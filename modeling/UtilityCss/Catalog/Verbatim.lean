import UtilityCss.Catalog.Basic

/-!
# Declarations in brackets

A body in brackets that names a property and a value is that declaration.
-/

namespace UtilityCss

namespace Catalog

/-- The declaration that a bracketed body holds. -/
def verbatim : Compute := fun found _ => do
  let value := Text.trim (Payload.normalize (← found.text "value"))
  if value = [] then return none else return some (declare [← found.text "prop"] value)

/-- The plug-in of bracketed declarations. -/
def arbitrary : Plugin := rulesPlugin "arbitrary"
  [computedRule "arbitrary-property"
    "\\[(?P<prop>-\x7b0,2\x7d[a-zA-Z][a-zA-Z0-9-]*):(?P<value>.+)\\]" verbatim]

end Catalog

end UtilityCss
