import UtilityCss.Css.Rendering
import UtilityCss.Resolution
import UtilityCss.Token.Reader

/-!
# The engine

The engine styles tokens with a registry and writes the results as a stylesheet. A token
gets its declarations from its body and its selector from its variants, outermost first.
Then its values are changed, always in one order: mark of importance, sign, alpha.
-/

namespace UtilityCss

/-- A registry with the settings that styling depends on. -/
structure Engine where
  registry : Registry
  /-- What every body has to begin with. -/
  classPrefix : Text := []
  /-- Whether every declaration is important. -/
  important : Bool := false

namespace Engine

/-- Take a class name apart, with the variants of the registry. -/
def read (engine : Engine) (raw : Text) : Cached Token :=
  Token.read engine.registry.isVariant raw

/-- The tokens of a class text, with its variant groups written out. -/
def readAll (engine : Engine) (t : Text) : Cached (List Token) :=
  Token.readAll engine.registry.isVariant t

/-- Resolve the body of a token, given without the class prefix. A body that resolves with
its modifier, as a fraction does, has no opacity. -/
def resolveToken (engine : Engine) (token : Token) (body : Text) :
    Resolving (Option (Resolution × Option Opacity)) := do
  if let some modifier := token.modifier then
    if let some found ← engine.registry.resolve (body ++ '/' :: modifier) then
      return some (found, none)
  return (← engine.registry.resolve body).map (·, token.opacity)

/-- Change declarations as a token asks. Only rules that allow it change signs. -/
def adjust (engine : Engine) (token : Token) (negatable : Bool) (opacity : Option Opacity)
    (declarations : Declarations) : Declarations :=
  let declarations :=
    if token.important || engine.important then declarations.markImportant else declarations
  let declarations := if token.negative && negatable then declarations.negate else declarations
  match opacity with
  | some alpha => declarations.withAlpha alpha
  | none => declarations

/-- The template for the selector itself. -/
def selfTemplate : Text := "&"

/-- Put a resolution under a selector. A nested block for the selector itself takes the
place of the declarations. -/
def assemble (engine : Engine) (token : Token) (found : Resolution) (opacity : Option Opacity)
    (selector : Text) (atRules : List Text) : Styled :=
  let rule := found.entry.rule
  let selector := match rule.selector with
    | some template => Selector.fill template selector
    | none => selector
  let adjust := engine.adjust token rule.negative opacity
  { token, selector, atRules
    declarations := adjust ((found.nested.get? selfTemplate).getD found.declarations)
    ruleName := found.entry.name
    layer := rule.layer
    sortKey := found.entry.sortKey
    nested := Table.ofEntries
      ((found.nested.filter (·.1 ≠ selfTemplate)).map fun (template, declarations) =>
        (Selector.fill template selector, adjust declarations)) }

/-- Style a token; none if its body or one of its variants is unknown. -/
def style (engine : Engine) (token : Token) : Resolving (Option Styled) := do
  match Text.afterLead? engine.classPrefix token.body with
  | none => return none
  | some body =>
      match ← engine.resolveToken token body with
      | none => return none
      | some (found, opacity) =>
          match ← engine.registry.applyVariants token.variants (Selector.ofClass token.raw) [] with
          | none => return none
          | some (selector, atRules) =>
              return some (engine.assemble token found opacity selector atRules)

/-- Style a class name. -/
def styleText (engine : Engine) (raw : Text) : Resolving (Option Styled) := do
  let token ← engine.read raw
  engine.style token

/-- Style tokens and drop those that are unknown. -/
def styleEach (engine : Engine) : List Token → Resolving (List Styled)
  | [] => return []
  | token :: rest => do
      let styled ← engine.style token
      let others ← engine.styleEach rest
      return styled.toList ++ others

/-- Style the tokens of class texts. -/
def styleAll (engine : Engine) : List Text → Resolving (List Styled)
  | [] => return []
  | t :: rest => do
      let tokens ← engine.readAll t
      let styled ← engine.styleEach tokens
      let others ← engine.styleAll rest
      return styled ++ others

/-- The stylesheet for class texts. -/
def compile (engine : Engine) (texts : List Text) (options : Stylesheet.Options) :
    Resolving Text := do
  return Stylesheet.generate options (← engine.styleAll texts)

/-- The stylesheet for one class text. -/
def generate (engine : Engine) (t : Text) (options : Stylesheet.Options) : Resolving Text :=
  engine.compile [t] options

end Engine

end UtilityCss
