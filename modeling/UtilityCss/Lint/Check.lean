import UtilityCss.Engine.Basic
import UtilityCss.Lint.Brackets

/-!
# Checks of class lists

Each check reads a list of tokens without groups and reports what it finds. Errors are
tokens that will not be in the stylesheet; a warning is given for two tokens that declare
one property under the same variants.
-/

namespace UtilityCss

namespace Lint

/-- Look for something in tokens, given in order. -/
abbrev Finder := Engine → List Text → Resolving (List Diagnostic)

/-- Look at each token by itself. -/
def eachToken (find : Text → Resolving (Option Diagnostic)) :
    List Text → Resolving (List Diagnostic)
  | [] => return []
  | token :: rest => do
      let found ← find token
      let others ← eachToken find rest
      return found.toList ++ others

/-- Take a token apart; none if it is a variant group. -/
def tryRead (engine : Engine) (raw : Text) : Cached (Option Token) := fun cache =>
  match engine.read raw cache with
  | (.ok token, cache) => (.ok (some token), cache)
  | (.error (.variantGroup ..), cache) => (.ok none, cache)
  | (.error error, cache) => (.error error, cache)

/-- The name of the check that every token can be taken apart. -/
def readingName : Text := "check_syntax"

/-- The finding for a token that was refused with an error. -/
def unreadFinding (raw : Text) (error : Error) : Diagnostic where
  rule := readingName
  severity := .error
  message := error.message
  code := "parse-error"
  token := some raw
  fix := some "Balance the parentheses of the variant group."

/-- Report variant groups that were not written out. -/
def checkReading : Finder := fun engine => eachToken fun raw => fun session =>
  match engine.read raw session.cache with
  | (.ok _, cache) => (.ok none, { session with cache })
  | (.error (.variantGroup token position), cache) =>
      (.ok (some (unreadFinding raw (.variantGroup token position))), { session with cache })
  | (.error error, cache) => (.error error, { session with cache })

/-- The finding for a token with a fault of its brackets. -/
def bracketFinding (raw : Text) (fault : BracketFault) : Diagnostic where
  rule := "check_arbitrary_brackets"
  severity := .error
  message := fault.message
  code := fault.code
  token := some raw

/-- Report faults of brackets, except that of an empty opacity. -/
def checkBrackets : Finder := fun _ => eachToken fun raw => do
  if hasEmptyOpacity raw then return none
  return (bracketFault? raw).map (bracketFinding raw)

/-- The finding for a token that ends in an empty opacity. -/
def emptyOpacityFinding (raw : Text) : Diagnostic :=
  let stem := raw.take (raw.length - 3)
  { rule := "check_empty_opacity"
    severity := .error
    message := "Empty arbitrary opacity modifier"
    code := "empty-opacity"
    token := some raw
    fix := some ("Use a value such as " ++ stem ++ "/50 or " ++ stem ++ "/[0.5].") }

/-- Report empty opacities. -/
def checkEmptyOpacity : Finder := fun _ => eachToken fun raw => do
  if !hasEmptyOpacity raw then return none
  return some (emptyOpacityFinding raw)

/-- The segments of a body before its last one: what stands there is no variant. -/
def unknownVariants (token : Token) : List Text := (Brackets.splitOutside ':' token.body).dropLast

/-- The finding for a token with a segment that should be a variant and is not. -/
def unknownVariantFinding (raw name : Text) : Diagnostic where
  rule := "check_unknown_variant"
  severity := .error
  message := "Unknown variant: \"" ++ name ++ "\""
  code := "unknown-variant"
  token := some raw

/-- Report the first segment of each body that should be a variant and is not. -/
def checkUnknownVariant : Finder := fun engine => eachToken fun raw => do
  match ← tryRead engine raw with
  | none => return none
  | some token => return (unknownVariants token).head?.map (unknownVariantFinding raw)

/-- The finding for a token that cannot be styled. -/
def unknownClassFinding (raw : Text) : Diagnostic where
  rule := "check_unknown_class"
  severity := .error
  message := "Unknown utility class: \"" ++ raw ++ "\""
  code := "unknown-class"
  token := some raw

/-- Report tokens without another fault that cannot be styled. -/
def checkUnknownClass : Finder := fun engine => eachToken fun raw => do
  match ← tryRead engine raw with
  | none => return none
  | some token =>
      if unknownVariants token ≠ [] || (bracketFault? raw).isSome || hasEmptyOpacity raw then
        return none
      if (← engine.style token).isSome then return none
      return some (unknownClassFinding raw)

/-- For each property under some variants, the last token that declared it. -/
abbrev Declared := Table (List Text × Text) Text

/-- The finding for a token that declares a property after another token did. -/
def conflict (property raw previous : Text) : Diagnostic where
  rule := "check_conflicting_classes"
  severity := .warning
  message := "Potentially conflicting classes for \"" ++ property ++ "\". \"" ++ raw ++
    "\" will take precedence over \"" ++ previous ++ "\"."
  code := "conflicting-classes"
  token := some raw

/-- The findings for a token that declares some properties under some variants. -/
def conflictsOf (declared : Declared) (variants : List Text) (raw : Text)
    (properties : List Text) : List Diagnostic :=
  properties.filterMap fun property =>
    ((declared.get? (variants, property)).filter (· ≠ raw)).map (conflict property raw)

/-- Record that a token declares some properties under some variants. -/
def Declared.record (declared : Declared) (variants : List Text) (raw : Text)
    (properties : List Text) : Declared :=
  properties.foldl (fun declared property => declared.put (variants, property) raw) declared

/-- Report conflicts of tokens with those before them. -/
def conflictsFrom (engine : Engine) (declared : Declared) :
    List Text → Resolving (List Diagnostic)
  | [] => return []
  | raw :: rest => do
      match ← tryRead engine raw with
      | none => conflictsFrom engine declared rest
      | some token =>
          match ← engine.style token with
          | none => conflictsFrom engine declared rest
          | some styled =>
              let properties := styled.declarations.keys
              let found := conflictsOf declared token.variants raw properties
              let declared := declared.record token.variants raw properties
              return found ++ (← conflictsFrom engine declared rest)

/-- Report tokens that declare a property which another token declared before under the
same variants. -/
def checkConflicts : Finder := fun engine => conflictsFrom engine []

/-- Report each token that contains a text. -/
structure Watch where
  rule : Text
  severity : Severity
  message : Text
  part : Text
  /-- Whether the findings name the token. -/
  withToken : Bool := true

namespace Watch

/-- The findings of a watch. -/
def finder (watch : Watch) : Finder := fun _ => eachToken fun raw => do
  if !Text.containsText watch.part raw then return none
  return some {
    rule := watch.rule
    severity := watch.severity
    message := watch.message
    token := if watch.withToken then some raw else none }

end Watch

/-- The checks by name, in the order in which they are made. -/
def checks : Table Text Finder :=
  [(readingName, checkReading),
    ("check_arbitrary_brackets", checkBrackets),
    ("check_empty_opacity", checkEmptyOpacity),
    ("check_unknown_variant", checkUnknownVariant),
    ("check_unknown_class", checkUnknownClass),
    ("check_conflicting_classes", checkConflicts)]

/-- The tokens of class texts, with their groups written out. -/
def expandAll (texts : List Text) : List Text := texts.flatMap Group.expand

/-- Make checks in order. -/
def runAll (engine : Engine) (tokens : List Text) : List Finder → Resolving (List Diagnostic)
  | [] => return []
  | find :: rest => do
      let found ← find engine tokens
      let others ← runAll engine tokens rest
      return found ++ others

/-- Check class texts; further checks come last. -/
def validate (engine : Engine) (texts : List Text) (extra : List Finder := []) :
    Resolving (List Diagnostic) :=
  runAll engine (expandAll texts) (checks.map (·.2) ++ extra)

/-- Check class texts and fail if an error is found. -/
def validateOrFail (engine : Engine) (texts : List Text) (extra : List Finder := []) :
    Resolving (List Diagnostic) := do
  let found ← validate engine texts extra
  let errors := found.filter Diagnostic.isError
  if errors = [] then return found else throw (.rejected errors)

end Lint

end UtilityCss
