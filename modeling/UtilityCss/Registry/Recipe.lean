import UtilityCss.Pattern.Template
import UtilityCss.Registry.Rule

/-!
# Recipes

Recipes describe computed rules and variants as data. Their texts are templates, filled from
the match.
-/

namespace UtilityCss

namespace Value

mutual

/-- Fill the templates among a value and the entries below it. -/
def fillTemplates (found : Match) : Value → Value
  | .text template => .text (Template.fill found template)
  | .table entries => .table (fillEntries found entries)
  | other => other

/-- Fill the templates among entries. -/
def fillEntries (found : Match) : List (Text × Value) → List (Text × Value)
  | [] => []
  | (key, value) :: rest => (key, fillTemplates found value) :: fillEntries found rest

end

end Value

/-- How a rule computes its properties. -/
inductive Recipe where
  /-- Properties with templates for values. -/
  | properties (templates : Properties)
  /-- Hand the body on to later rules. -/
  | handOn
  | failure (message : Text)
  /-- Look the first group up on a scale of the theme. -/
  | themed (scale property : Text)

namespace Recipe

/-- The computation that a recipe describes. -/
def compute : Recipe → Compute
  | .properties templates => fun found _ => .ok (some (Value.fillEntries found templates))
  | .handOn => fun _ _ => .ok none
  | .failure message => fun _ _ => .error (.failure message)
  | .themed scale property => fun found theme =>
      if found.groupCount = 0 then .error .unknownGroup
      else .ok (((found.group? 1).bind (theme.text? scale)).map fun value =>
        [(property, .text value)])

end Recipe

/-- How a variant is made from a match: its kind and a template for its value. -/
structure VariantRecipe where
  kind : VariantKind
  value : Text

/-- The variant for a match; it is named by the whole match. -/
def VariantRecipe.resolve (recipe : VariantRecipe) (found : Match) :
    Except Error (Option Variant) :=
  .ok (some ⟨found.whole, recipe.kind, Template.fill found recipe.value⟩)

end UtilityCss
