import UtilityCss.Proofs.CatalogInstallation
import UtilityCss.Proofs.ThemeMerging

/-!
# Overrides of the theme

The overrides of a configuration are merged into the theme twice: by the plug-in of the
theme, before the variants read their screens and containers, and after all plug-ins are
installed. The second merge changes nothing, so the variants of an engine are those of the
theme that it ends up with.
-/

namespace UtilityCss

open Registry

namespace Registry

variable {rules : List Rule} {computed : List ComputedVariant} {theme : Theme}

/-- A sequence that succeeds has gone on from what its first part leaves. -/
theorem Turns.of_bind_eq_ok {α β : Type} {act : Registering α} {next : α → Registering β}
    {before middle : Registry → Prop} (hact : Turns act before middle) {registry : Registry}
    (hregistry : before registry) {b : β} (hrun : ((act >>= next) registry).1 = .ok b) :
    ∃ a state, middle state ∧ (next a state).1 = .ok b := by
  obtain ⟨a, state, hfirst, hnext⟩ := run_bind_eq_ok hrun
  obtain ⟨_, _, hmiddle⟩ := hact registry hregistry
  rw [hfirst] at hmiddle
  exact ⟨a, state, hmiddle, hnext⟩

theorem exists_runSteps_of_install {name version : Text} {steps : List Step} {registry : Registry}
    (hregistry : Holds rules computed theme registry) {a : Unit}
    (hinstall : (install ⟨name, version, steps⟩ registry).1 = .ok a) :
    ∃ started, Holds rules computed theme started ∧ (runSteps steps started).1 = .ok () := by
  refine ⟨{ registry with currentPlugin := name }.traced .plugin version,
    ⟨hregistry.opened, hregistry.rules, hregistry.computed, hregistry.theme, hregistry.named⟩, ?_⟩
  rw [install, onBehalfOf, whenOpen, if_neg (ne_true_of_eq_false hregistry.opened)] at hinstall
  dsimp only at hinstall
  split at hinstall
  next hrun => rw [hrun]
  next => cases hinstall
  next => cases hinstall

/-- A plug-in that makes variants from the theme is installed only if they can be made. -/
theorem exists_make_of_install {name version : Text} {variants : List Variant}
    {make : Theme → Except Error (List AnyVariant)} {rest : List Step} {registry : Registry}
    (hregistry : Holds rules computed theme registry) {a : Unit}
    (hinstall : (install ⟨name, version,
      .addVariants (variants.map (.proper ∘ .static)) :: .addThemed make :: rest⟩ registry).1 =
        .ok a) :
    ∃ made, make theme = .ok made := by
  obtain ⟨started, hstarted, hsteps⟩ := exists_runSteps_of_install hregistry hinstall
  rw [runSteps, runStep] at hsteps
  obtain ⟨_, state, hstate, hrest⟩ := (turns_addStatic variants).of_bind_eq_ok hstarted hsteps
  rw [runSteps] at hrest
  obtain ⟨_, _, hmake, -⟩ := run_bind_eq_ok hrest
  rw [runStep] at hmake
  dsimp only at hmake
  rw [hstate.theme] at hmake
  cases hmade : make theme with
  | ok made => exact ⟨made, rfl⟩
  | error error =>
      rw [hmade] at hmake
      cases hmake

end Registry

namespace Catalog

theorem nodup_keys_defaults : (Table.keys Theme.defaults).Nodup := by decide

theorem defaults_sections : "screens".toList ∈ Table.keys Theme.defaults ∧
    "containers".toList ∈ Table.keys Theme.defaults := by decide

theorem overriddenTheme_eq (overrides : Theme) :
    overriddenTheme overrides = Theme.defaults.merge overrides :=
  Theme.nil_merge (Value.nodup_keys_mergeEntries nodup_keys_defaults overrides)

theorem screens_of_themeScreens {theme : Theme} {made : List AnyVariant} {value : Value}
    (hvalue : theme.get? "screens" = some value) (hmade : themeScreens theme = .ok made) :
    ∃ screens, value = .table screens := by
  rw [themeScreens, hvalue] at hmade
  cases value with
  | table screens => exact ⟨screens, rfl⟩
  | _ => cases hmade

/-- The plug-ins are installed only if the screens of the theme are a table. -/
theorem exists_screens_of_installAll {overrides : Theme} {dark : Variant} {a : Unit}
    (hinstall : (installAll (corePlugins overrides dark) {}).1 = .ok a) :
    ∃ screens, (overriddenTheme overrides).get? "screens" = some (.table screens) := by
  rw [corePlugins, installAll] at hinstall
  obtain ⟨_, state, hstate, hrest⟩ :=
    (turns_themePlugin overrides).of_bind_eq_ok holds_new hinstall
  rw [installAll] at hrest
  obtain ⟨_, _, hvariants, -⟩ := run_bind_eq_ok hrest
  obtain ⟨made, hmade⟩ := exists_make_of_install hstate (congrArg Prod.fst hvariants)
  obtain ⟨value, hvalue⟩ := Theme.exists_get?_merge defaults_sections.1 overrides
  rw [← overriddenTheme_eq] at hvalue
  obtain ⟨screens, rfl⟩ := screens_of_themeScreens hvalue hmade
  exact ⟨screens, hvalue⟩

theorem exists_containers (overrides : Theme) :
    ∃ containers, (Theme.defaults.merge overrides).get? "containers" = some containers :=
  Theme.exists_get?_merge defaults_sections.2 overrides

end Catalog

namespace Engine

/-- The registry of an engine is what its plug-ins and overrides fill. -/
theorem exists_fill_of_build {config : Config} {engine : Engine}
    (hbuild : build config = .ok engine) :
    ∃ dark, fill (Catalog.corePlugins config.theme dark) config.theme {} =
      (.ok (), engine.registry) := by
  obtain ⟨-, -, hbuild⟩ := bind_eq_ok hbuild
  obtain ⟨plugins, hplugins, hbuild⟩ := bind_eq_ok hbuild
  obtain ⟨dark, -, hdark⟩ := bind_eq_ok hplugins
  obtain ⟨-, -, hbuild⟩ := bind_eq_ok hbuild
  cases hdark
  refine ⟨dark, ?_⟩
  rcases hfill : fill (Catalog.corePlugins config.theme dark) config.theme {} with
    ⟨error | _, registry⟩
  · rw [hfill] at hbuild
    cases hbuild
  · rw [hfill] at hbuild
    cases hbuild
    rfl

/-- Overrides are merged into the theme that the plug-ins leave. -/
theorem turns_fill {plugins : List Plugin} {rules : List Rule} {computed : List ComputedVariant}
    {theme : Theme}
    (hplugins : Turns (installAll plugins) (Holds [] [] []) (Holds rules computed theme))
    (overrides : Theme) :
    Turns (fill plugins overrides) (Holds [] [] []) fun registry =>
      registry.computedVariants = computed ∧ registry.theme = theme.merge overrides := by
  refine hplugins.bind fun _ => ?_
  by_cases hnone : overrides = []
  · rw [if_neg (· hnone), hnone]
    exact fun _ hregistry => ⟨(), rfl, hregistry.computed, hregistry.theme⟩
  · rw [if_pos hnone]
    refine (turns_extendTheme overrides).bind fun _ => ?_
    exact fun _ hregistry => ⟨(), rfl, hregistry.computed, hregistry.theme⟩

/-- An engine can be built if its dark mode is known and its screens are a table. -/
theorem exists_build_of_table {config : Config} {dark : Variant} (hcheck : config.check = .ok ())
    (hdark : Catalog.darkVariant config.darkMode config.darkSelector = .ok dark)
    (hscreens : Catalog.hasTable (Theme.defaults.merge config.theme) "screens" = true) :
    ∃ engine, build config = .ok engine := by
  obtain ⟨screens, hscreens⟩ := Catalog.exists_table hscreens
  obtain ⟨containers, hcontainers⟩ := Catalog.exists_containers config.theme
  rw [← Catalog.overriddenTheme_eq] at hscreens hcontainers
  have hturns := turns_fill (Catalog.turns_corePlugins dark hscreens hcontainers) config.theme
  obtain ⟨_, hanswer, -⟩ := hturns {} holds_new
  rcases hfill : fill (Catalog.corePlugins config.theme dark) config.theme {} with
    ⟨answer, registry⟩
  rw [hfill] at hanswer
  refine ⟨{ registry, classPrefix := config.classPrefix, important := config.important }, ?_⟩
  have hcore : config.corePlugins = .ok (Catalog.corePlugins config.theme dark) := by
    rw [Config.corePlugins, hdark]
    rfl
  obtain rfl : answer = .ok _ := hanswer
  rw [build, hcheck, ok_bind, hcore, ok_bind, ofPlugins, hcheck, ok_bind, hfill]
  rfl

/-- An engine has the variants of the theme that it ends up with. -/
theorem theme_of_build {config : Config} {engine : Engine} (hconfig : config.theme.Keyed)
    (hbuild : build config = .ok engine) :
    engine.registry.theme = Theme.defaults.merge config.theme ∧
      ∃ screens containers,
        engine.registry.theme.get? "screens" = some (.table screens) ∧
        engine.registry.theme.get? "containers" = some containers ∧
        engine.registry.computedVariants = Catalog.computedVariants screens containers := by
  obtain ⟨dark, hfill⟩ := exists_fill_of_build hbuild
  have hinstalled : ((installAll (Catalog.corePlugins config.theme dark)) {}).1 = .ok () := by
    obtain ⟨_, _, hrun, -⟩ := run_bind_eq_ok (congrArg Prod.fst hfill)
    exact congrArg Prod.fst hrun
  obtain ⟨screens, hscreens⟩ := Catalog.exists_screens_of_installAll hinstalled
  obtain ⟨containers, hcontainers⟩ := Catalog.exists_containers config.theme
  rw [← Catalog.overriddenTheme_eq] at hcontainers
  have hturns := turns_fill (Catalog.turns_corePlugins dark hscreens hcontainers) config.theme
  obtain ⟨_, -, hcomputed, hfinal⟩ := hturns {} holds_new
  rw [hfill] at hcomputed hfinal
  -- The second merge of the overrides changes nothing.
  have htwice := Theme.merge_merge Theme.defaults hconfig
  rw [← Catalog.overriddenTheme_eq] at htwice
  rw [htwice] at hfinal
  refine ⟨hfinal.trans (Catalog.overriddenTheme_eq _), screens, containers, ?_, ?_, hcomputed⟩
  · rw [hfinal, hscreens]
  · rw [hfinal, hcontainers]

end Engine

/-- Merging overrides a second time changes nothing, the order of keys included. So an engine
that is built has the default theme with its overrides merged in once, and its variants are
those of the screens and the containers of that theme. -/
theorem Theme.overrides_merged_once :
    (∀ base extra : Theme, extra.Keyed → (base.merge extra).merge extra = base.merge extra) ∧
      ∀ (config : Config) (engine : Engine), config.theme.Keyed →
        Engine.build config = .ok engine →
        engine.registry.theme = Theme.defaults.merge config.theme ∧
          ∃ screens containers,
            engine.registry.theme.get? "screens" = some (.table screens) ∧
            engine.registry.theme.get? "containers" = some containers ∧
            engine.registry.computedVariants = Catalog.computedVariants screens containers :=
  ⟨fun base _ hextra => merge_merge base hextra,
    fun _ _ hconfig hbuild => Engine.theme_of_build hconfig hbuild⟩

/-- Overrides that add a screen, put a table in the place of a text, and a text in the place
of a table. -/
def Theme.narrowed : Theme :=
  [("screens", .table [("xs", .text "20rem"), ("sm", .table [("min", .text "40rem")])]),
    ("containers", .text "none")]

theorem Theme.overrides_merged_once_narrowed :
    ((Theme.defaults.merge narrowed).merge narrowed = Theme.defaults.merge narrowed) ∧
      ∃ engine, Engine.build { theme := narrowed } = .ok engine ∧
        engine.registry.theme = Theme.defaults.merge narrowed ∧
        ∃ screens containers,
          engine.registry.theme.get? "screens" = some (.table screens) ∧
          engine.registry.theme.get? "containers" = some containers ∧
          engine.registry.computedVariants = Catalog.computedVariants screens containers := by
  have hinner : Value.Keyed (.table [("xs", .text "20rem"),
      ("sm", .table [("min", .text "40rem")])]) := by
    refine .table (by decide) ?_
    simp only [List.forall_mem_cons]
    exact ⟨.leaf rfl, .table (by decide) (by simpa using .leaf rfl), by simp⟩
  have hkeyed : narrowed.Keyed := by
    refine .table (by decide) ?_
    simp only [narrowed, List.forall_mem_cons]
    exact ⟨hinner, .leaf rfl, by simp⟩
  obtain ⟨engine, hengine⟩ := @Engine.exists_build_of_table { theme := narrowed }
    ⟨"dark", .parent, ".dark"⟩ rfl rfl rfl
  obtain ⟨hmerge, hbuild⟩ := overrides_merged_once
  exact ⟨hmerge _ _ hkeyed, engine, hengine, hbuild { theme := narrowed } engine hkeyed hengine⟩

end UtilityCss
