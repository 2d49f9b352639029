import UtilityCss.Migration.Verdict
import UtilityCss.Pattern.Cache
import UtilityCss.Pattern.Template
import UtilityCss.Text.Blank

/-!
# Mapping class names

Class names of another dialect are mapped by an ordered list of rules, of which the first
whose pattern occurs in the name decides. A name that no rule knows is carried over, with a
warning if it looks like the name of a utility.
-/

namespace UtilityCss

namespace Migration

/-- What a rule makes of the part of a name that it matched. -/
inductive Replacement where
  /-- Fill a template. The template of the match itself stands for no change. -/
  | template (text : Text)
  /-- Work the whole name out. -/
  | computed (compute : Match → Option Text)

/-- A pattern of names and the verdict on them. -/
structure MappingRule where
  pattern : Text
  replacement : Replacement
  compatible : Bool
  deprecated : Bool := false
  warning : Option Text := none
  name : Text := []

/-- The template that changes nothing. -/
def sameTemplate : Text := "$&"

namespace MappingRule

/-- The name under which the pattern of a rule is looked up. -/
def key (rule : MappingRule) (index : Nat) : Text :=
  "migration:" ++ if rule.name = [] then "rule-" ++ Text.ofNat index else rule.name

/-- The name that a match is mapped to. -/
def mapped? (rule : MappingRule) (found : Match) : Option Text :=
  match rule.replacement with
  | .computed compute => compute found
  | .template text =>
      if text = sameTemplate then none
      else some (found.before ++ Template.fill found text ++ found.after)

/-- The verdict of a rule on a name that it matched. -/
def verdict (rule : MappingRule) (given : Text) (found : Match) : Verdict :=
  let mapped := (rule.mapped? found).filter (· ≠ given)
  { given, mapped
    compatible := rule.compatible
    deprecated := rule.deprecated
    replacement := if rule.deprecated then mapped.filter (· ≠ []) else none
    warning := rule.warning }

end MappingRule

/-- The key of the pattern for names of utilities. -/
def shapeKey : Text := "migration:utility-shape"

/-- Names of utilities: small letters, digits and dashes after a small letter. -/
def shapeSource : Text := "^[a-z][a-z0-9-]*(-[a-z0-9]+)*$"

/-- The warning for a name that looks like a utility and is not known. -/
def unknownWarning : Text := "Unknown utility class - verify it exists in brisk"

/-- The verdict on a name that no rule knows. -/
def unknownVerdict (given : Text) : Cached Verdict := do
  let shape ← PatternCache.fetch shapeKey (.text shapeSource)
  if (shape.matchStart given).isSome then return { given, warning := some unknownWarning }
  else return { given }

/-- The verdict of the first rule that knows a name. The rules are those from a given
index on. -/
def firstVerdict (given : Text) : (index : Nat) → List MappingRule → Cached Verdict
  | _, [] => unknownVerdict given
  | index, rule :: rest => do
      let pattern ← PatternCache.fetch (rule.key index) (.text rule.pattern)
      match pattern.search given with
      | some found => return rule.verdict given found
      | none => firstVerdict given (index + 1) rest

/-- Map a name. A custom mapping that is not empty is preferred to all rules. -/
def mapClass (rules : List MappingRule) (given : Text) (custom : Table Text Text := []) :
    Cached Verdict :=
  match (custom.get? given).filter (· ≠ []) with
  | some mapped => return { given, mapped := some mapped }
  | none => firstVerdict given 0 rules

/-- Map names in order. -/
def mapClasses (rules : List MappingRule) (custom : Table Text Text := []) :
    List Text → Cached (List Verdict)
  | [] => return []
  | given :: rest => do
      let verdict ← mapClass rules given custom
      let others ← mapClasses rules custom rest
      return verdict :: others

/-- Report on names. -/
def analyze (rules : List MappingRule) (names : List Text) : Cached Report := do
  return Report.ofVerdicts (← mapClasses rules [] names)

/-- The names in a class attribute. -/
def extractClasses (t : Text) : List Text := Text.words t

end Migration

end UtilityCss
