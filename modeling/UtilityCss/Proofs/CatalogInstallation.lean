import UtilityCss.Engine.Config
import UtilityCss.Proofs.CatalogRules
import UtilityCss.Proofs.RuleNames

/-!
# The engine of the catalogue

What a registry holds are rules, computed variants and a theme; names, indices and the trace
are left out. Additions succeed on an open registry and change what it holds, whatever else
is in it. So the plug-ins of the catalogue install one after the other, and the engine that is
built from them holds the rules of the catalogue in order, under distinct names.
-/

namespace UtilityCss

namespace Registry

/-- An open registry with these rules, computed variants and theme values. Names are brought
by rules or have a colon. -/
structure Holds (rules : List Rule) (computed : List ComputedVariant) (theme : Theme)
    (registry : Registry) : Prop where
  opened : registry.frozen = false
  rules : registry.rules.map (·.rule) = rules
  computed : registry.computedVariants = computed
  theme : registry.theme = theme
  named : ∀ entry ∈ registry.rules, entry.name = entry.rule.name ∨ ':' ∈ entry.name

theorem holds_new : Holds [] [] [] {} := ⟨rfl, rfl, rfl, rfl, by simp⟩

/-- The computation succeeds on registries of one kind, and leaves one of another. -/
def Turns {α : Type} (act : Registering α) (before after : Registry → Prop) : Prop :=
  ∀ registry, before registry → ∃ a, (act registry).1 = .ok a ∧ after (act registry).2

namespace Turns

variable {α β : Type} {before middle after : Registry → Prop}

theorem pure (a : α) : Turns (pure a) before before := fun _ hregistry => ⟨a, rfl, hregistry⟩

theorem bind {act : Registering α} {next : α → Registering β} (hact : Turns act before middle)
    (hnext : ∀ a, Turns (next a) middle after) : Turns (act >>= next) before after := by
  intro registry hregistry
  obtain ⟨a, hanswer, hmiddle⟩ := hact registry hregistry
  rw [run_bind]
  rcases hrun : act registry with ⟨answer, state⟩
  rw [hrun] at hanswer hmiddle
  obtain rfl : answer = .ok a := hanswer
  exact hnext a state hmiddle

theorem whenOpen {act : Registry → Except Error α × Registry}
    (hopened : ∀ registry, before registry → registry.frozen = false)
    (hact : ∀ registry, before registry →
      ∃ a, (act registry).1 = .ok a ∧ after (act registry).2) :
    Turns (whenOpen act) before after := by
  intro registry hregistry
  rw [Registry.whenOpen, hopened registry hregistry, if_neg Bool.false_ne_true]
  exact hact registry hregistry

end Turns

section

variable {rules : List Rule} {computed : List ComputedVariant} {theme : Theme}

/-! ## Rules -/

/-- The names that rules bring. -/
def broughtNames (rules : List Rule) : List Text := (rules.map (·.name)).filter (· ≠ [])

theorem mem_broughtNames {name : Text} :
    name ∈ broughtNames rules ↔ name ≠ [] ∧ ∃ rule ∈ rules, rule.name = name := by
  simp [broughtNames, and_comm]

theorem broughtNames_append (first second : List Rule) :
    broughtNames (first ++ second) = broughtNames first ++ broughtNames second := by
  rw [broughtNames, List.map_append, List.filter_append]
  rfl

/-- A rule that brings a name brings one without a colon, and any other is for one text. -/
def isRegistrable (rule : Rule) : Bool :=
  !rule.name.contains ':' && (rule.name ≠ [] || rule.literal?.isSome)

/-- No registered rule has the name that a rule brings. -/
theorem hasRule_of_brought {registry : Registry} (hregistry : Holds rules computed theme registry)
    {rule : Rule} (hbrought : rule.name ≠ []) (hcolon : ':' ∉ rule.name)
    (hnew : (broughtNames (rules ++ [rule])).Nodup) : registry.hasRule rule.name = false := by
  rw [Bool.eq_false_iff, Ne, hasRule_iff]
  intro htaken
  obtain ⟨entry, hentry, hname⟩ := List.mem_map.mp htaken
  rcases hregistry.named entry hentry with hbrings | hmade
  · have hmem : entry.rule ∈ rules := by
      rw [← hregistry.rules]
      exact List.mem_map_of_mem hentry
    rw [broughtNames_append, List.nodup_append] at hnew
    refine hnew.2.2 rule.name ?_ rule.name (by simp [broughtNames, hbrought]) rfl
    exact mem_broughtNames.mpr ⟨hbrought, entry.rule, hmem, hbrings.symm.trans hname⟩
  · exact hcolon (hname ▸ hmade)

theorem ruleName_of_isRegistrable {registry : Registry}
    (hregistry : Holds rules computed theme registry) {rule : Rule}
    (hrule : isRegistrable rule = true) (hnew : (broughtNames (rules ++ [rule])).Nodup) :
    ∃ name, registry.ruleName rule = .ok name ∧ (name = rule.name ∨ ':' ∈ name) := by
  simp only [isRegistrable, Bool.and_eq_true, Bool.or_eq_true, decide_eq_true_eq,
    Bool.not_eq_true', List.contains_eq_mem, decide_eq_false_iff_not] at hrule
  obtain ⟨hcolon, hkind⟩ := hrule
  rw [ruleName]
  by_cases hbrought : rule.name = []
  · obtain ⟨text, htext⟩ := Option.isSome_iff_exists.mp (hkind.resolve_left (· hbrought))
    rw [if_neg (· hbrought), Rule.pattern_of_literal? htext]
    refine ⟨_, rfl, .inr ?_⟩
    dsimp only
    split <;> simp
  · rw [if_pos hbrought, hasRule_of_brought hregistry hbrought hcolon hnew]
    exact ⟨rule.name, rfl, .inl rfl⟩

theorem turns_addRule {rule : Rule} (hrule : isRegistrable rule = true)
    (hnew : (broughtNames (rules ++ [rule])).Nodup) :
    Turns (addRule (.proper rule)) (Holds rules computed theme)
      (Holds (rules ++ [rule]) computed theme) := by
  apply Turns.whenOpen fun _ => Holds.opened
  intro registry hregistry
  obtain ⟨name, hname, hcolon⟩ := ruleName_of_isRegistrable hregistry hrule hnew
  dsimp only
  rw [hname]
  refine ⟨name, rfl, hregistry.opened, ?_, hregistry.computed, hregistry.theme, ?_⟩
  · simp [traced, hregistry.rules]
  · intro entry hentry
    rcases List.mem_append.mp hentry with hearlier | hlast
    · exact hregistry.named entry hearlier
    · rw [List.mem_singleton.mp hlast]
      exact hcolon

/-- Rules with new names are added in order. -/
theorem turns_addRules {more : List Rule} (hmore : more.all isRegistrable = true)
    (hnew : (broughtNames (rules ++ more)).Nodup) :
    Turns (addRules (more.map .proper)) (Holds rules computed theme)
      (Holds (rules ++ more) computed theme) := by
  induction more generalizing rules with
  | nil =>
      rw [List.append_nil]
      exact Turns.pure []
  | cons rule rest ih =>
      rw [List.all_cons, Bool.and_eq_true] at hmore
      rw [List.append_cons] at hnew ⊢
      have hfirst : (broughtNames (rules ++ [rule])).Nodup := by
        rw [broughtNames_append] at hnew
        exact (List.nodup_append.mp hnew).1
      refine (turns_addRule hmore.1 hfirst).bind fun _ => ?_
      exact (ih hmore.2 hnew).bind fun _ => Turns.pure _

/-! ## Variants and theme values -/

theorem turns_addStatic (variants : List Variant) :
    Turns (addVariants (variants.map (.proper ∘ .static))) (Holds rules computed theme)
      (Holds rules computed theme) := by
  induction variants with
  | nil => exact Turns.pure ()
  | cons variant rest ih =>
      refine Turns.bind (Turns.whenOpen (fun _ => Holds.opened) ?_) fun _ => ih
      intro registry hregistry
      exact ⟨(), rfl, hregistry.opened, hregistry.rules, hregistry.computed, hregistry.theme,
        hregistry.named⟩

/-- Computed variants with new names are added in order. -/
theorem turns_addComputed {more : List ComputedVariant}
    (hnew : ((computed ++ more).map (·.name)).Nodup) :
    Turns (addVariants (more.map (.proper ∘ .computed))) (Holds rules computed theme)
      (Holds rules (computed ++ more) theme) := by
  induction more generalizing computed with
  | nil =>
      rw [List.append_nil]
      exact Turns.pure ()
  | cons variant rest ih =>
      rw [List.append_cons] at hnew ⊢
      refine Turns.bind (Turns.whenOpen (fun _ => Holds.opened) ?_) fun _ => ih hnew
      intro registry hregistry
      have hfresh : registry.computedVariants.any (·.name == variant.name) = false := by
        rw [hregistry.computed, Bool.eq_false_iff, Ne, List.any_eq_true]
        rintro ⟨other, hother, hname⟩
        rw [List.map_append, List.map_append, List.nodup_append, List.nodup_append] at hnew
        exact hnew.1.2.2 other.name (List.mem_map_of_mem hother) variant.name (by simp)
          (eq_of_beq hname)
      rw [Function.comp_apply]
      dsimp only
      rw [hfresh]
      exact ⟨(), rfl, hregistry.opened, hregistry.rules, by simp [traced, hregistry.computed],
        hregistry.theme, hregistry.named⟩

theorem turns_extendTheme (values : Theme) :
    Turns (extendTheme values) (Holds rules computed theme)
      (Holds rules computed (theme.merge values)) := by
  apply Turns.whenOpen fun _ => Holds.opened
  intro registry hregistry
  dsimp only
  rw [foldl_traced_theme]
  exact ⟨(), rfl, hregistry.opened, hregistry.rules, hregistry.computed,
    by rw [← hregistry.theme], hregistry.named⟩

/-! ## Plug-ins -/

theorem turns_install {more : List Rule} {others : List ComputedVariant} {merged : Theme}
    {name version : Text} {steps : List Step}
    (hsteps : Turns (runSteps steps) (Holds rules computed theme) (Holds more others merged)) :
    Turns (install ⟨name, version, steps⟩) (Holds rules computed theme)
      (Holds more others merged) := by
  rw [install]
  apply Turns.whenOpen fun _ => Holds.opened
  intro registry hregistry
  obtain ⟨a, hanswer, hafter⟩ := hsteps
    ({ registry with currentPlugin := name }.traced .plugin version)
    ⟨hregistry.opened, hregistry.rules, hregistry.computed, hregistry.theme, hregistry.named⟩
  dsimp only
  rcases hrun : runSteps steps ({ registry with currentPlugin := name }.traced .plugin version)
    with ⟨answer, state⟩
  rw [hrun] at hanswer hafter ⊢
  obtain rfl : answer = .ok a := hanswer
  exact ⟨(), rfl, hafter.opened, hafter.rules, hafter.computed, hafter.theme, hafter.named⟩

theorem turns_runSteps_nil {kind : Registry → Prop} : Turns (runSteps []) kind kind := by
  rw [runSteps]
  exact Turns.pure ()

theorem turns_runSteps_cons {before middle after : Registry → Prop} {step : Step}
    {steps : List Step} (hstep : Turns (runStep step) before middle)
    (hsteps : Turns (runSteps steps) middle after) :
    Turns (runSteps (step :: steps)) before after := by
  rw [runSteps]
  exact hstep.bind fun _ => hsteps

theorem turns_addThemed {after : Registry → Prop} {make : Theme → Except Error (List AnyVariant)}
    {variants : List AnyVariant} (hmake : make theme = .ok variants)
    (hvariants : Turns (addVariants (variants.map .proper)) (Holds rules computed theme) after) :
    Turns (runStep (.addThemed make)) (Holds rules computed theme) after := by
  intro registry hregistry
  rw [runStep]
  dsimp only
  rw [hregistry.theme, hmake]
  exact hvariants registry hregistry

theorem turns_rulesPlugin (name : Text) {more : List Rule} (hmore : more.all isRegistrable = true)
    (hnew : (broughtNames (rules ++ more)).Nodup) :
    Turns (install (Catalog.rulesPlugin name more)) (Holds rules computed theme)
      (Holds (rules ++ more) computed theme) := by
  refine turns_install (turns_runSteps_cons ?_ turns_runSteps_nil)
  rw [runStep]
  exact (turns_addRules hmore hnew).bind fun _ => Turns.pure _

theorem turns_installAll {plugins : List Plugin} {more : List Rule}
    (hplugins : ∀ plugin ∈ plugins, ∃ name rules, plugin = Catalog.rulesPlugin name rules)
    (hmore : plugins.flatMap Plugin.rules = more) (hrules : more.all isRegistrable = true)
    (hnew : (broughtNames (rules ++ more)).Nodup) :
    Turns (installAll plugins) (Holds rules computed theme)
      (Holds (rules ++ more) computed theme) := by
  induction plugins generalizing rules more with
  | nil =>
      rw [← hmore, installAll, List.flatMap_nil, List.append_nil]
      exact Turns.pure ()
  | cons plugin rest ih =>
      obtain ⟨name, first, rfl⟩ := hplugins plugin List.mem_cons_self
      rw [List.flatMap_cons, Catalog.rules_rulesPlugin] at hmore
      rw [← hmore] at hrules hnew ⊢
      rw [List.all_append, Bool.and_eq_true] at hrules
      rw [← List.append_assoc] at hnew ⊢
      have hfirst : (broughtNames (rules ++ first)).Nodup := by
        rw [broughtNames_append] at hnew
        exact (List.nodup_append.mp hnew).1
      rw [installAll]
      refine (turns_rulesPlugin name hrules.1 hfirst).bind fun _ => ?_
      exact ih (fun other hother => hplugins other (List.mem_cons_of_mem _ hother)) rfl hrules.2
        hnew

end

end Registry

/-! ## The catalogue -/

namespace Catalog

open Registry

/-- The computed variants for the screens and the containers of a theme. -/
def computedVariants (screens : Theme) (containers : Value) : List ComputedVariant :=
  [screenVariant (orderScreens screens), groupVariant, dataVariant, ariaVariant, supportsVariant,
    widthVariant, containerVariant containers]

theorem nodup_computedVariants (screens : Theme) (containers : Value) :
    ((computedVariants screens containers).map (·.name)).Nodup := by
  have hnames : (["screens", "group-peer", "data", "aria", "supports", "min-max", "container"] :
      List Text).Nodup := by decide +kernel
  exact hnames

theorem turns_variantsPlugin (dark : Variant) {theme screens : Theme} {containers : Value}
    (hscreens : theme.get? "screens" = some (.table screens))
    (hcontainers : theme.get? "containers" = some containers) :
    Turns (install (variantsPlugin dark)) (Holds [] [] theme)
      (Holds [] (computedVariants screens containers) theme) := by
  have hnames := nodup_computedVariants screens containers
  have hscreen : themeScreens theme = .ok [.computed (screenVariant (orderScreens screens))] := by
    rw [themeScreens, hscreens]
    rfl
  have hcontainer : themeContainers theme = .ok [.computed (containerVariant containers)] := by
    rw [themeContainers, hcontainers]
    rfl
  -- The names of a part of the variants are new because those of all are.
  have hadd (early late : List ComputedVariant)
      (hlate : early ++ late <+: computedVariants screens containers) :
      Turns (addVariants (late.map (.proper ∘ .computed))) (Holds [] early theme)
        (Holds [] (early ++ late) theme) :=
    turns_addComputed ((hlate.sublist.map _).nodup hnames)
  apply turns_install
  apply turns_runSteps_cons
  · rw [runStep]
    exact turns_addStatic _
  apply turns_runSteps_cons
  · exact turns_addThemed hscreen (hadd [] [_] ⟨_, rfl⟩)
  apply turns_runSteps_cons
  · rw [runStep]
    exact hadd [_] [_, _, _, _, _] ⟨_, rfl⟩
  apply turns_runSteps_cons _ turns_runSteps_nil
  exact turns_addThemed hcontainer (hadd [_, _, _, _, _, _] [_] ⟨[], rfl⟩)

/-- The theme of the catalogue with overrides. -/
def overriddenTheme (overrides : Theme) : Theme := Theme.merge [] (Theme.defaults.merge overrides)

/-- The theme of the catalogue without overrides. -/
def standardTheme : Theme := Theme.merge [] (Theme.defaults.merge [])

theorem turns_themePlugin (overrides : Theme) :
    Turns (install (themePlugin overrides)) (Holds [] [] [])
      (Holds [] [] (overriddenTheme overrides)) := by
  refine turns_install (turns_runSteps_cons ?_ turns_runSteps_nil)
  rw [runStep]
  exact turns_extendTheme _

/-- The section of a theme is a table. -/
def hasTable (theme : Theme) (scale : Text) : Bool := ((theme.get? scale).bind Value.table?).isSome

theorem exists_table {theme : Theme} {scale : Text} (hscale : hasTable theme scale = true) :
    ∃ entries, theme.get? scale = some (.table entries) := by
  obtain ⟨entries, hentries⟩ := Option.isSome_iff_exists.mp hscale
  obtain ⟨value, hvalue, htable⟩ := Option.bind_eq_some_iff.mp hentries
  cases value with
  | table found => exact ⟨found, hvalue⟩
  | _ => cases htable

theorem standardTheme_sections :
    hasTable standardTheme "screens" = true ∧ hasTable standardTheme "containers" = true ∧
      standardTheme.lacksSlashes "spacing" = true ∧
      standardTheme.lacksSlashes "maxWidth" = true := by
  decide +kernel

theorem registrable_utilities :
    utilityRules.all (fun rule => isRegistrable rule && rule.isHashFree) = true ∧
      (broughtNames utilityRules).Nodup := by
  decide +kernel

theorem isHashFree_utilities : ∀ rule ∈ utilityRules, rule.isHashFree = true := by
  intro rule hrule
  exact (Bool.and_eq_true_iff.mp (List.all_eq_true.mp registrable_utilities.1 rule hrule)).2

theorem utilityPlugins_eq : ∀ plugin ∈ utilityPlugins, ∃ name rules,
    plugin = rulesPlugin name rules := by
  simp only [utilityPlugins, List.forall_mem_cons]
  exact ⟨⟨_, _, rfl⟩, ⟨_, _, rfl⟩, ⟨_, _, rfl⟩, ⟨_, _, rfl⟩, ⟨_, _, rfl⟩, ⟨_, _, rfl⟩,
    ⟨_, _, rfl⟩, ⟨_, _, rfl⟩, ⟨_, _, rfl⟩, by simp⟩

/-- If the screens are a table, the plug-ins install, with the utilities in any order, and the
variants are those of the theme that they leave. -/
theorem turns_arranged {overrides screens : Theme} {containers : Value} (dark : Variant)
    (hscreens : (overriddenTheme overrides).get? "screens" = some (.table screens))
    (hcontainers : (overriddenTheme overrides).get? "containers" = some containers)
    {plugins : List Plugin} (hplugins : plugins.Perm utilityPlugins) :
    Turns (installAll (themePlugin overrides :: variantsPlugin dark :: plugins)) (Holds [] [] [])
      (Holds (plugins.flatMap Plugin.rules) (computedVariants screens containers)
        (overriddenTheme overrides)) := by
  have hperm : (plugins.flatMap Plugin.rules).Perm utilityRules := hplugins.flatMap_right _
  have hrules : (plugins.flatMap Plugin.rules).all isRegistrable = true := by
    rw [List.all_eq_true]
    intro rule hrule
    have hboth := List.all_eq_true.mp registrable_utilities.1 rule (hperm.subset hrule)
    exact (Bool.and_eq_true_iff.mp hboth).1
  have hnew : (broughtNames (plugins.flatMap Plugin.rules)).Nodup :=
    ((hperm.map _).filter _).nodup_iff.mpr registrable_utilities.2
  rw [installAll]
  refine (turns_themePlugin overrides).bind fun _ => ?_
  rw [installAll]
  refine (turns_variantsPlugin dark hscreens hcontainers).bind fun _ => ?_
  rw [← List.nil_append (plugins.flatMap Plugin.rules)] at hnew ⊢
  exact turns_installAll (fun plugin hplugin => utilityPlugins_eq plugin (hplugins.subset hplugin))
    rfl hrules hnew

theorem turns_corePlugins {overrides screens : Theme} {containers : Value} (dark : Variant)
    (hscreens : (overriddenTheme overrides).get? "screens" = some (.table screens))
    (hcontainers : (overriddenTheme overrides).get? "containers" = some containers) :
    Turns (installAll (corePlugins overrides dark)) (Holds [] [] [])
      (Holds utilityRules (computedVariants screens containers) (overriddenTheme overrides)) :=
  turns_arranged dark hscreens hcontainers (List.Perm.refl _)

theorem turns_standardPlugins (dark : Variant) : ∃ screens entries,
    Turns (installAll (corePlugins [] dark)) (Holds [] [] [])
      (Holds utilityRules (computedVariants screens (.table entries)) standardTheme) := by
  obtain ⟨hscreens, hcontainers, -, -⟩ := standardTheme_sections
  obtain ⟨screens, hscreens⟩ := exists_table hscreens
  obtain ⟨entries, hcontainers⟩ := exists_table hcontainers
  exact ⟨screens, entries, turns_corePlugins dark hscreens hcontainers⟩

end Catalog

namespace Engine

/-- The engine holds the catalogue, in order and under distinct names. -/
structure IsStandard (engine : Engine) : Prop where
  classPrefix : engine.classPrefix = []
  rules : engine.registry.rules.map (·.rule) = Catalog.utilityRules
  names : (engine.registry.rules.map (·.name)).Nodup
  computed : ∃ screens entries,
    engine.registry.computedVariants = Catalog.computedVariants screens (.table entries)
  theme : engine.registry.theme = Catalog.standardTheme

/-- Plug-ins whose rules have no hash signs fill a registry under distinct names. -/
theorem fill_of_turns {plugins : List Plugin} {rules : List Rule}
    {computed : List ComputedVariant} {theme : Theme}
    (hplugins : Registry.Turns (Registry.installAll plugins) (Registry.Holds [] [] [])
      (Registry.Holds rules computed theme))
    (hrules : ∀ rule ∈ rules, rule.isHashFree = true) :
    ∃ registry : Registry, fill plugins [] {} = (.ok (), registry) ∧
      registry.rules.map (·.rule) = rules ∧ (registry.rules.map (·.name)).Nodup ∧
      registry.computedVariants = computed ∧ registry.theme = theme := by
  have hadditions := (Registry.proceeds_installAll plugins {}).additions
  obtain ⟨a, hanswer, hregistry⟩ := hplugins {} Registry.holds_new
  rcases hrun : Registry.installAll plugins {} with ⟨answer, registry⟩
  rw [hrun] at hanswer hregistry hadditions
  obtain rfl : answer = .ok a := hanswer
  refine ⟨{ registry with frozen := true }, ?_, hregistry.rules, ?_, hregistry.computed,
    hregistry.theme⟩
  · rw [fill, run_bind, hrun]
    rfl
  · apply Registry.nodup_names_of_unindexed hadditions
    intro entry hentry
    apply RegisteredRule.unindexed_of_isHashFree
    apply hrules
    rw [← hregistry.rules]
    exact List.mem_map_of_mem hentry

/-- The engine of the catalogue can be built. -/
theorem exists_build : ∃ engine, build {} = .ok engine ∧ engine.IsStandard := by
  obtain ⟨screens, entries, hturns⟩ := Catalog.turns_standardPlugins ⟨"dark", .parent, ".dark"⟩
  obtain ⟨registry, hfill, hregistry, hnames, hcomputed, htheme⟩ :=
    fill_of_turns hturns Catalog.isHashFree_utilities
  refine ⟨{ registry }, ?_, rfl, hregistry, hnames, ⟨screens, entries, hcomputed⟩, htheme⟩
  have hcheck : Config.check {} = .ok () := rfl
  have hcore : Config.corePlugins {} =
      .ok (Catalog.corePlugins [] ⟨"dark", .parent, ".dark"⟩) := rfl
  rw [build, hcheck, ok_bind, hcore, ok_bind, ofPlugins, hcheck, ok_bind, hfill]
  rfl

end Engine

end UtilityCss
