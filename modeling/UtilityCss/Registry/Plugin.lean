import UtilityCss.Registry.Basic

/-!
# Plug-ins

A plug-in is a named list of steps, each an addition to the registry. A step may install
further plug-ins, and it may add variants that depend on the theme as it is then.
-/

namespace UtilityCss

/-- A name and a version for some steps. -/
structure PluginOf (σ : Type) where
  name : Text
  version : Text := "1.0.0"
  steps : List σ

/-- A step of a plug-in. -/
inductive Step where
  | addRule (offer : Offered Rule)
  | addRules (offers : List (Offered Rule))
  | addVariant (offer : Offered AnyVariant)
  | addVariants (offers : List (Offered AnyVariant))
  /-- Add variants that are made from the theme. -/
  | addThemed (make : Theme → Except Error (List AnyVariant))
  | extendTheme (values : Theme)
  | install (plugin : PluginOf Step)
  | installAll (plugins : List (PluginOf Step))
  | freeze
  | fail (error : Error)

/-- A named list of additions. -/
abbrev Plugin := PluginOf Step

namespace Registry

mutual

/-- Take a step. -/
def runStep : Step → Registering Unit
  | .addRule offer => do let _ ← addRule offer
  | .addRules offers => do let _ ← addRules offers
  | .addVariant offer => addVariant offer
  | .addVariants offers => addVariants offers
  | .addThemed make => fun registry =>
      match make registry.theme with
      | .ok variants => addVariants (variants.map .proper) registry
      | .error error => (.error error, registry)
  | .extendTheme values => extendTheme values
  | .install plugin => install plugin
  | .installAll plugins => installAll plugins
  | .freeze => freeze
  | .fail error => throw error

/-- Take steps in order, up to the first that fails. -/
def runSteps : List Step → Registering Unit
  | [] => return ()
  | step :: rest => do
      runStep step
      runSteps rest

/-- Install a plug-in. -/
def install : PluginOf Step → Registering Unit
  | ⟨name, version, steps⟩ => onBehalfOf name version (runSteps steps)

/-- Install plug-ins in order. -/
def installAll : List (PluginOf Step) → Registering Unit
  | [] => return ()
  | plugin :: rest => do
      install plugin
      installAll rest

end

end Registry

end UtilityCss
