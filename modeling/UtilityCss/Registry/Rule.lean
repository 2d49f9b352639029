import UtilityCss.Css.Result
import UtilityCss.Registry.Variant
import UtilityCss.Theme.Lookup

/-!
# Rules

A rule gives declarations to the class bodies that its pattern matches in full. They are
fixed, or computed from the match and the theme. A table among the declarations is a block
of its own, under a selector template in which the ampersand stands for the selector of the
rule.
-/

namespace UtilityCss

/-- Declarations and nested blocks before they are told apart. -/
abbrev Properties := Table Text Value

/-- Work out declarations from a match. None hands the body on to later rules. -/
abbrev Compute := Match → Theme → Except Error (Option Properties)

/-- What a rule declares. -/
inductive RuleBody where
  | fixed (declarations : Declarations)
  | nested (properties : Properties)
  | computed (compute : Compute)

/-- A rule. -/
structure Rule where
  pattern : RulePattern
  body : RuleBody
  /-- A name of its own; if empty, the registry makes one. -/
  name : Text := []
  layer : Layer := .utilities
  /-- A sort key of its own; else the place of registration counts. -/
  order : Option Int := none
  /-- Whether a minus sign changes the sign of the values. -/
  negative : Bool := false
  /-- A template for the selector. -/
  selector : Option Text := none

namespace Properties

/-- The declarations among some properties. -/
def declarations (properties : Properties) : Declarations :=
  properties.filterMap fun
    | (_, .table _) => none
    | (property, value) => some (property, value.plainText)

/-- The nested blocks among some properties, by selector template. -/
def nested (properties : Properties) : Table Text Declarations :=
  properties.filterMap fun
    | (template, .table entries) =>
        some (template, entries.map fun (property, value) => (property, value.plainText))
    | _ => none

/-- Properties that are declarations only. -/
def ofDeclarations (declarations : Declarations) : Properties :=
  declarations.map fun (property, value) => (property, .text value)

end Properties

end UtilityCss
