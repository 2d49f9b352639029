import UtilityCss.Catalog.Layout
import UtilityCss.Catalog.Motion
import UtilityCss.Catalog.Surface
import UtilityCss.Catalog.Typography
import UtilityCss.Catalog.Variants
import UtilityCss.Catalog.Verbatim
import UtilityCss.Theme.Default

/-!
# The plug-ins of the catalogue

The order is significant: the theme comes first, because variants read it; then the
variants; then the utilities, of which the first that resolves a body is taken.
-/

namespace UtilityCss

namespace Catalog

/-- The plug-in of the default theme with some values overridden. -/
def themePlugin (overrides : Theme := []) : Plugin where
  name := "theme"
  steps := [.extendTheme (Theme.defaults.merge overrides)]

/-- The plug-ins of utilities. -/
def utilityPlugins : List Plugin :=
  [layout, spacing, sizing, colors, typography, borders, effects, transforms, arbitrary]

/-- All plug-ins, for given overrides of the theme and a variant for dark mode. -/
def corePlugins (overrides : Theme) (dark : Variant) : List Plugin :=
  themePlugin overrides :: variantsPlugin dark :: utilityPlugins

end Catalog

end UtilityCss
