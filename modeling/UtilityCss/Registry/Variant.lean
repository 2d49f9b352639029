import UtilityCss.Css.Selector
import UtilityCss.Pattern.Cache
import UtilityCss.Token.Payload

/-!
# Variants

A variant puts a condition on a rule: it changes the selector or adds an at-rule. Static
variants are known by name. A computed variant is worked out from a name that matches a
pattern. A name in brackets is a variant by itself, if it is an at-rule with a condition or
a selector with an ampersand.
-/

namespace UtilityCss

/-- How a variant changes a rule. -/
inductive VariantKind where
  /-- Append to the selector. -/
  | pseudo
  /-- Put an ancestor before the selector. -/
  | parent
  /-- Write the selector for the ampersands of a template. -/
  | selector
  /-- Wrap the rule in an at-rule. -/
  | atRule
  deriving DecidableEq

/-- A variant. -/
structure Variant where
  name : Text
  kind : VariantKind
  value : Text
  deriving DecidableEq

/-- The selector and the at-rules, outermost first, after a variant. -/
def Variant.apply (variant : Variant) (selector : Text) (atRules : List Text) :
    Text × List Text :=
  match variant.kind with
  | .pseudo => (selector ++ variant.value, atRules)
  | .parent => (variant.value ++ " " ++ selector, atRules)
  | .selector => (Selector.fill variant.value selector, atRules)
  | .atRule => (selector, atRules ++ [variant.value])

/-- The pattern of a rule or a computed variant. -/
inductive RulePattern where
  /-- One text. -/
  | literal (text : Text)
  /-- A pattern to be read when it is first used. -/
  | written (source : Text) (flags : Nat := 0)
  /-- A pattern read in advance, with its flag word. -/
  | ready (pattern : Pattern) (flags : Nat)

namespace RulePattern

/-- Look a pattern up under a key. A literal is kept in escaped form. -/
def fetch (key : Text) : RulePattern → Cached Pattern
  | .literal text => PatternCache.fetch key (.text (Pattern.escape text))
  | .written source flags => PatternCache.fetch key (.text source) flags
  | .ready pattern flags => PatternCache.fetch key (.ready pattern) flags

end RulePattern

/-- A variant that is worked out from a match of its name. -/
structure ComputedVariant where
  name : Text
  pattern : RulePattern
  /-- The variant for a match; none rejects the name. -/
  resolve : Match → Except Error (Option Variant)

namespace Variant

/-- Whether a text is an at-rule without a condition: an at sign, then word characters and
dashes only. -/
def isBareAtRule : Text → Bool
  | '@' :: c :: rest => (c :: rest).all fun c => c == '-' || Text.isWordChar c
  | _ => false

/-- Put a space before the first parenthesis of an at-rule, unless it has one. -/
def spaceAtRule (t : Text) : Text :=
  match Text.cutFirst? '(' t with
  | some (before, after) =>
      if before = [] || before.getLast? == some ' ' then t else before ++ " (" ++ after
  | none => t

/-- The variant that a name in brackets denotes by itself. -/
def ofBrackets? (name : Text) : Option Variant :=
  if Brackets.closingBracket? name 0 ≠ some (name.length - 1) then none
  else
    let inner := Text.trim (Payload.normalize ((name.drop 1).dropLast))
    if Text.startsWith inner "@" then
      if isBareAtRule inner then none else some ⟨name, .atRule, spaceAtRule inner⟩
    else if inner.contains '&' then some ⟨name, .selector, inner⟩
    else none

end Variant

end UtilityCss
