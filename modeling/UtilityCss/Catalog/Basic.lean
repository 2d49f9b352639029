import UtilityCss.Registry.Plugin

/-!
# Building rules

Short forms for the rules of the catalogue. Most computed rules look the group `value` of
their pattern up and give what they find to some properties.
-/

namespace UtilityCss

namespace Catalog

/-- A rule for one class name. -/
def fixedRule (name : Text) (declarations : Declarations) : Rule :=
  { pattern := .literal name, body := .fixed declarations }

/-- A rule that computes its declarations. -/
def computedRule (name source : Text) (compute : Compute) (negative : Bool := false) : Rule :=
  { pattern := .written source, body := .computed compute, name, negative }

/-- The plug-in that adds some rules. -/
def rulesPlugin (name : Text) (rules : List Rule) : Plugin :=
  { name, steps := [.addRules (rules.map .proper)] }

/-- Give one value to properties. -/
def declare (properties : List Text) (value : Text) : Properties :=
  properties.map (·, .text value)

/-- Look the group `value` up and give what is found to properties. -/
def fromValue (properties : List Text) (find : Text → Theme → Except Error (Option Text)) :
    Compute := fun found theme => do
  return (← find (← found.text "value") theme).map (declare properties)

/-- A rule that looks the group `value` up without fail. -/
def fromEntry (properties : List Text) (find? : Text → Theme → Option Text) : Compute :=
  fromValue properties fun key theme => .ok (find? key theme)

/-- A number of hundredths, for a numeral. -/
def hundredths (amount : Nat) : Except Error Text := return Css.number (← Css.divide amount 100)

end Catalog

end UtilityCss
