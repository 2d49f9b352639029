import UtilityCss.Proofs.Settled
import UtilityCss.Registry.Plugin

/-!
# What steps can do to a registry

A single addition changes a registry in one of five ways, or leaves it as it is. An
installation makes its additions between an entry in the trace and the return to the plug-in
before it, which takes place after an error too. Steps that nest installations to any depth,
and stop at an error in any place, do nothing else: they are runs, which are put together from
changes and installations. What is kept across these is therefore kept by all steps.
-/

namespace UtilityCss

namespace Registry

/-- The change that an addition makes. -/
inductive Change (registry : Registry) : Registry → Prop
  | rule {rule : Rule} {name : Text} (opened : registry.frozen = false)
      (named : registry.ruleName rule = .ok name) :
      Change registry ({ registry with
        rules := registry.rules ++
          [(⟨rule, name, registry.rules.length, registry.currentPlugin⟩ : RegisteredRule)]
        }.traced .rule name)
  | variant (opened : registry.frozen = false) (variant : Variant) :
      Change registry ({ registry with
        variants := registry.variants.put variant.name variant }.traced .variant variant.name)
  | computed {variant : ComputedVariant} (opened : registry.frozen = false)
      (new : variant.name ∉ registry.computedVariants.map (·.name)) :
      Change registry ({ registry with
        computedVariants := registry.computedVariants ++ [variant] }.traced .computedVariant
          variant.name)
  | theme (opened : registry.frozen = false) (values : Theme) :
      Change registry { registry with
        theme := registry.theme.merge values
        trace := registry.trace ++ values.keys.map (⟨registry.currentPlugin, .theme, ·⟩) }
  | freeze : Change registry { registry with frozen := true }

/-- The registry when the installation of a plug-in begins. -/
def starting (registry : Registry) (name version : Text) : Registry :=
  { registry with currentPlugin := name }.traced .plugin version

/-- A registry on the way from one state to another. A plug-in is recorded if its additions were
all made; if not, those before the error stay. -/
inductive Runs : Registry → Registry → Prop
  | stay (registry : Registry) : Runs registry registry
  | change {registry next : Registry} : Change registry next → Runs registry next
  | andThen {registry middle next : Registry} :
      Runs registry middle → Runs middle next → Runs registry next
  | install {registry filled : Registry} {name version : Text} :
      registry.frozen = false → Runs (registry.starting name version) filled →
      Runs registry { filled with
        currentPlugin := registry.currentPlugin
        plugins := filled.plugins ++ [(name, version)] }
  | abandon {registry filled : Registry} {name version : Text} :
      registry.frozen = false → Runs (registry.starting name version) filled →
      Runs registry { filled with currentPlugin := registry.currentPlugin }

/-- Whether it succeeds or not, the computation runs on from every registry. -/
def Proceeds {α : Type} (act : Registering α) : Prop :=
  ∀ registry, Runs registry (act registry).2

namespace Proceeds

variable {α β : Type}

theorem pure (a : α) : Proceeds (pure a) := Runs.stay

theorem throw (error : Error) : Proceeds (throw error : Registering α) := Runs.stay

theorem bind {act : Registering α} {next : α → Registering β} (hact : Proceeds act)
    (hnext : ∀ a, Proceeds (next a)) : Proceeds (act >>= next) := by
  intro registry
  have hfirst := hact registry
  rw [run_bind]
  rcases hrun : act registry with ⟨error | a, middle⟩
  · rwa [hrun] at hfirst
  · rw [hrun] at hfirst
    exact hfirst.andThen (hnext a middle)

theorem whenOpen {act : Registry → Except Error α × Registry}
    (hact : ∀ registry, registry.frozen = false → Runs registry (act registry).2) :
    Proceeds (whenOpen act) := by
  intro registry
  unfold Registry.whenOpen
  split
  · exact Runs.stay registry
  next hopen => exact hact registry (Bool.eq_false_iff.mpr hopen)

end Proceeds

/-! ## Single additions -/

theorem proceeds_addRule (offer : Offered Rule) : Proceeds (addRule offer) := by
  apply Proceeds.whenOpen
  intro registry hopen
  cases offer with
  | foreign kind => exact Runs.stay registry
  | proper rule =>
      dsimp only
      cases hname : registry.ruleName rule with
      | error error => exact Runs.stay registry
      | ok name => exact .change (.rule hopen hname)

theorem proceeds_addVariant (offer : Offered AnyVariant) : Proceeds (addVariant offer) := by
  apply Proceeds.whenOpen
  intro registry hopen
  rcases offer with (variant | variant) | kind
  · exact .change (.variant hopen variant)
  · dsimp only
    split
    · exact Runs.stay registry
    next hnew => exact .change (.computed hopen (by simpa using hnew))
  · exact Runs.stay registry

theorem foldl_traced_theme (keys : List Text) (registry : Registry) :
    keys.foldl (fun registry key => registry.traced .theme key) registry =
      { registry with
        trace := registry.trace ++ keys.map (⟨registry.currentPlugin, .theme, ·⟩) } := by
  induction keys generalizing registry with
  | nil => simp
  | cons key rest ih =>
      rw [List.foldl_cons, ih]
      simp [traced]

theorem proceeds_extendTheme (values : Theme) : Proceeds (extendTheme values) := by
  apply Proceeds.whenOpen
  intro registry hopen
  dsimp only
  rw [foldl_traced_theme]
  exact .change (.theme hopen values)

/-! ## Steps of all kinds -/

theorem proceeds_addRules (offers : List (Offered Rule)) : Proceeds (addRules offers) := by
  induction offers with
  | nil => exact Proceeds.pure []
  | cons offer rest ih =>
      exact (proceeds_addRule offer).bind fun _ => ih.bind fun _ => Proceeds.pure _

theorem proceeds_addVariants (offers : List (Offered AnyVariant)) :
    Proceeds (addVariants offers) := by
  induction offers with
  | nil => exact Proceeds.pure ()
  | cons offer rest ih => exact (proceeds_addVariant offer).bind fun _ => ih

theorem proceeds_onBehalfOf (name version : Text) {additions : Registering Unit}
    (hadditions : Proceeds additions) : Proceeds (onBehalfOf name version additions) := by
  apply Proceeds.whenOpen
  intro registry hopen
  have hinner := hadditions (registry.starting name version)
  dsimp only
  rw [← starting]
  split
  next hrun =>
    rw [hrun] at hinner
    exact .install hopen hinner
  next hrun =>
    rw [hrun] at hinner
    exact .abandon hopen hinner
  next hrun =>
    rw [hrun] at hinner
    exact .abandon hopen hinner

mutual

theorem proceeds_runStep (step : Step) : Proceeds (runStep step) := by
  cases step with
  | addRule offer =>
      rw [runStep]
      exact (proceeds_addRule offer).bind fun _ => Proceeds.pure _
  | addRules offers =>
      rw [runStep]
      exact (proceeds_addRules offers).bind fun _ => Proceeds.pure _
  | addVariant offer =>
      rw [runStep]
      exact proceeds_addVariant offer
  | addVariants offers =>
      rw [runStep]
      exact proceeds_addVariants offers
  | addThemed make =>
      rw [runStep]
      intro registry
      dsimp only
      split
      · exact proceeds_addVariants _ registry
      · exact Runs.stay registry
  | extendTheme values =>
      rw [runStep]
      exact proceeds_extendTheme values
  | install plugin =>
      rw [runStep]
      exact proceeds_install plugin
  | installAll plugins =>
      rw [runStep]
      exact proceeds_installAll plugins
  | freeze =>
      rw [runStep]
      exact fun registry => .change .freeze
  | fail error =>
      rw [runStep]
      exact Proceeds.throw error

theorem proceeds_runSteps (steps : List Step) : Proceeds (runSteps steps) := by
  cases steps with
  | nil =>
      rw [runSteps]
      exact Proceeds.pure ()
  | cons step rest =>
      rw [runSteps]
      exact (proceeds_runStep step).bind fun _ => proceeds_runSteps rest

theorem proceeds_install (plugin : PluginOf Step) : Proceeds (install plugin) := by
  obtain ⟨name, version, steps⟩ := plugin
  rw [install]
  exact proceeds_onBehalfOf name version (proceeds_runSteps steps)

theorem proceeds_installAll (plugins : List (PluginOf Step)) : Proceeds (installAll plugins) := by
  cases plugins with
  | nil =>
      rw [installAll]
      exact Proceeds.pure ()
  | cons plugin rest =>
      rw [installAll]
      exact (proceeds_install plugin).bind fun _ => proceeds_installAll rest

end

/-- The registry after steps that are taken one after the other, whether they fail or not. -/
def resume : List Step → Registry → Registry
  | [], registry => registry
  | step :: rest, registry => resume rest (runStep step registry).2

/-- The registry that steps make of an empty one. -/
def after (steps : List Step) : Registry := resume steps {}

theorem runs_resume (steps : List Step) (registry : Registry) :
    Runs registry (resume steps registry) := by
  induction steps generalizing registry with
  | nil => exact .stay registry
  | cons step rest ih => exact (proceeds_runStep step registry).andThen (ih _)

theorem runs_after (steps : List Step) : Runs {} (after steps) := runs_resume steps {}

end Registry

end UtilityCss
