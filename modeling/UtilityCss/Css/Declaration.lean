import UtilityCss.Css.Value
import UtilityCss.Table

/-!
# Declarations

Declarations are an ordered table from properties to values. Changes of values
act on all of them and keep the properties.
-/

namespace UtilityCss

/-- Properties with their values, in order. -/
abbrev Declarations := Table Text Text

namespace Declarations

/-- Change each value and leave marks of importance in place. -/
def mapValues (change : Text → Text) (declarations : Declarations) : Declarations :=
  declarations.map fun (property, value) => (property, Css.mapBare change value)

/-- Mark each value as important. -/
def markImportant (declarations : Declarations) : Declarations :=
  declarations.map fun (property, value) => (property, Css.markImportant value)

/-- Change the sign of each value. -/
def negate (declarations : Declarations) : Declarations := mapValues Css.negate declarations

/-- Give each colour an alpha channel. -/
def withAlpha (alpha : Opacity) (declarations : Declarations) : Declarations :=
  mapValues (Css.withAlpha alpha) declarations

end Declarations

end UtilityCss
