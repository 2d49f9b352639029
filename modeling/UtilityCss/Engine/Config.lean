import UtilityCss.Catalog.Plugins
import UtilityCss.Engine.Basic

/-!
# Building engines

An engine is built from a configuration and a list of plug-ins, by default those of the
catalogue. Its registry is frozen.
-/

namespace UtilityCss

/-- The settings of an engine. -/
structure Config where
  /-- What every body has to begin with. -/
  classPrefix : Text := []
  darkMode : Text := "class"
  /-- The ancestor for dark mode; none stands for that of the mode. -/
  darkSelector : Option Text := none
  /-- Whether every declaration is important. -/
  important : Bool := false
  /-- Values that override those of the theme. -/
  theme : Theme := []

namespace Config

/-- Accept a configuration if its dark mode is known. -/
def check (config : Config) : Except Error Unit :=
  if darkModes.contains config.darkMode then .ok ()
  else .error (.invalidDarkMode config.darkMode)

/-- The plug-ins of the catalogue for a configuration. -/
def corePlugins (config : Config) : Except Error (List Plugin) := do
  let dark ← Catalog.darkVariant config.darkMode config.darkSelector
  return Catalog.corePlugins config.theme dark

/-- The plug-in of the catalogue with a given name. -/
def corePlugin? (config : Config) (name : Text) : Except Error (Option Plugin) := do
  return (← config.corePlugins).find? (·.name == name)

end Config

namespace Engine

/-- Fill and freeze a registry. -/
def fill (plugins : List Plugin) (theme : Theme) : Registering Unit := do
  Registry.installAll plugins
  if theme ≠ [] then Registry.extendTheme theme
  Registry.freeze

/-- Build an engine from plug-ins, installed in order. -/
def ofPlugins (config : Config) (plugins : List Plugin) : Except Error Engine := do
  config.check
  match fill plugins config.theme {} with
  | (.ok _, registry) =>
      return { registry, classPrefix := config.classPrefix, important := config.important }
  | (.error error, _) => throw error

/-- Build an engine from the plug-ins of the catalogue. -/
def build (config : Config := {}) : Except Error Engine := do
  config.check
  ofPlugins config (← config.corePlugins)

end Engine

end UtilityCss
