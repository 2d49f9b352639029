import UtilityCss.Proofs.RegistryRuns

/-!
# What failed additions leave behind

A single addition that fails leaves the registry as it was. Other steps consist of such additions
and of installations, one after the other, and stop at the first that fails: what was completed
before it stays. So an installation that fails leaves its entry in the trace, the effects of the
steps before the one that failed and those of the completed parts of that step, to any depth of
installations within installations. The plug-in before it is the current one again, and the
plug-in itself is not recorded.

A frozen registry refuses everything with one error, which no installation takes for its own.
-/

namespace UtilityCss

/-- The steps that a step takes one after the other, if it is not taken at once. -/
def Step.parts (theme : Theme) : Step → Option (List Step)
  | .addRules offers => some (offers.map .addRule)
  | .addVariants offers => some (offers.map .addVariant)
  | .addThemed make =>
      (make theme).toOption.map (·.map fun variant => .addVariant (.proper variant))
  | .installAll plugins => some (plugins.map .install)
  | _ => none

/-- Whether a step is the installation of one plug-in. -/
def Step.isInstall : Step → Bool
  | .install _ => true
  | _ => false

/-- The property passes from the steps of a plug-in to its installation, and from the parts of any
other step to the step. -/
structure Step.Inherited (motive : Step → Prop) : Prop where
  install : ∀ plugin : Plugin, (∀ step ∈ plugin.steps, motive step) → motive (.install plugin)
  other : ∀ step : Step, step.isInstall = false →
    (∀ theme parts, step.parts theme = some parts → ∀ part ∈ parts, motive part) → motive step

namespace Step.Inherited

variable {motive : Step → Prop}

theorem addRule (hmotive : Inherited motive) (offer : Offered Rule) : motive (.addRule offer) :=
  hmotive.other _ rfl nofun

theorem addVariant (hmotive : Inherited motive) (offer : Offered AnyVariant) :
    motive (.addVariant offer) :=
  hmotive.other _ rfl nofun

mutual

theorem step (hmotive : Inherited motive) (step : Step) : motive step := by
  cases step with
  | install plugin => exact hmotive.install plugin (hmotive.plugin plugin)
  | installAll plugins =>
      apply hmotive.other _ rfl
      rintro theme parts ⟨⟩
      exact hmotive.plugins plugins
  | addRules offers =>
      apply hmotive.other _ rfl
      rintro theme parts ⟨⟩
      exact List.forall_mem_map.mpr fun offer _ => hmotive.addRule offer
  | addVariants offers =>
      apply hmotive.other _ rfl
      rintro theme parts ⟨⟩
      exact List.forall_mem_map.mpr fun offer _ => hmotive.addVariant offer
  | addThemed make =>
      apply hmotive.other _ rfl
      intro theme parts hparts
      obtain ⟨variants, -, rfl⟩ := Option.map_eq_some_iff.mp hparts
      exact List.forall_mem_map.mpr fun variant _ => hmotive.addVariant _
  | addRule | addVariant | extendTheme | freeze | fail => exact hmotive.other _ rfl nofun

theorem steps (hmotive : Inherited motive) (steps : List Step) : ∀ step ∈ steps, motive step := by
  cases steps with
  | nil => exact List.forall_mem_nil _
  | cons step rest => exact List.forall_mem_cons.mpr ⟨hmotive.step step, hmotive.steps rest⟩

theorem plugin (hmotive : Inherited motive) (plugin : PluginOf Step) :
    ∀ step ∈ plugin.steps, motive step := by
  obtain ⟨name, version, steps⟩ := plugin
  exact hmotive.steps steps

theorem plugins (hmotive : Inherited motive) (plugins : List (PluginOf Step)) :
    ∀ step ∈ plugins.map Step.install, motive step := by
  cases plugins with
  | nil => exact List.forall_mem_nil _
  | cons plugin rest =>
      exact List.forall_mem_cons.mpr
        ⟨hmotive.install plugin (hmotive.plugin plugin), hmotive.plugins rest⟩

end

end Step.Inherited

namespace Registry

variable {registry middle left inside : Registry} {error : Error}

/-! ## Steps in order -/

theorem runSteps_nil (registry : Registry) : runSteps [] registry = (.ok (), registry) := by
  rw [runSteps]
  rfl

theorem runSteps_cons_ok {step : Step} (hstep : runStep step registry = (.ok (), middle))
    (rest : List Step) : runSteps (step :: rest) registry = runSteps rest middle := by
  rw [runSteps, run_bind, hstep]

theorem runSteps_cons_error {step : Step} (hstep : runStep step registry = (.error error, left))
    (rest : List Step) : runSteps (step :: rest) registry = (.error error, left) := by
  rw [runSteps, run_bind, hstep]

theorem runSteps_append (first second : List Step) :
    runSteps (first ++ second) = (do runSteps first; runSteps second) := by
  induction first with
  | nil => rw [List.nil_append, runSteps, pure_bind]
  | cons step rest ih => rw [List.cons_append, runSteps, runSteps, ih, bind_assoc]

theorem runSteps_append_ok {done : List Step} (hdone : runSteps done registry = (.ok (), middle))
    (rest : List Step) : runSteps (done ++ rest) registry = runSteps rest middle := by
  rw [runSteps_append, run_bind, hdone]

theorem runStep_addRules (offers : List (Offered Rule)) :
    runStep (.addRules offers) = runSteps (offers.map .addRule) := by
  induction offers with
  | nil =>
      rw [runStep, List.map_nil, runSteps]
      rfl
  | cons offer rest ih =>
      rw [List.map_cons, runSteps, ← ih, runStep, runStep, runStep, addRules]
      simp only [bind_assoc, pure_bind]

theorem addVariants_eq (offers : List (Offered AnyVariant)) :
    addVariants offers = runSteps (offers.map .addVariant) := by
  induction offers with
  | nil => rw [addVariants, List.map_nil, runSteps]
  | cons offer rest ih => rw [addVariants, List.map_cons, runSteps, runStep, ih]

theorem installAll_eq (plugins : List Plugin) :
    installAll plugins = runSteps (plugins.map .install) := by
  induction plugins with
  | nil => rw [installAll, List.map_nil, runSteps]
  | cons plugin rest ih => rw [installAll, List.map_cons, runSteps, runStep, ih]

/-- A step with parts takes these. -/
theorem runStep_of_parts {step : Step} {parts : List Step}
    (hparts : step.parts registry.theme = some parts) :
    runStep step registry = runSteps parts registry := by
  cases step with
  | addRules offers =>
      cases hparts
      rw [runStep_addRules]
  | addVariants offers =>
      cases hparts
      rw [runStep, addVariants_eq]
  | addThemed make =>
      obtain ⟨variants, hmake, rfl⟩ := Option.map_eq_some_iff.mp hparts
      rw [runStep]
      dsimp only
      rw [eq_ok_of_toOption hmake]
      dsimp only
      rw [addVariants_eq, List.map_map]
      rfl
  | installAll plugins =>
      cases hparts
      rw [runStep, installAll_eq]
  | addRule | addVariant | extendTheme | install | freeze | fail => cases hparts

/-! ## Steps that are taken at once -/

/-- If it fails, the computation leaves the registry as it was. -/
def AllOrNothing {α : Type} (act : Registering α) : Prop :=
  ∀ registry error, (act registry).1 = .error error → (act registry).2 = registry

theorem allOrNothing_whenOpen {α : Type} {act : Registry → Except Error α × Registry}
    (hact : AllOrNothing act) : AllOrNothing (whenOpen act) := by
  intro registry error herror
  unfold whenOpen at herror ⊢
  split
  · rfl
  next hopen =>
    rw [if_neg hopen] at herror
    exact hact registry error herror

theorem allOrNothing_addRule (offer : Offered Rule) : AllOrNothing (addRule offer) := by
  apply allOrNothing_whenOpen
  intro registry error herror
  cases offer with
  | foreign kind => rfl
  | proper rule =>
      dsimp only at herror ⊢
      cases hname : registry.ruleName rule with
      | error error => rfl
      | ok name =>
          rw [hname] at herror
          cases herror

theorem allOrNothing_addVariant (offer : Offered AnyVariant) : AllOrNothing (addVariant offer) := by
  apply allOrNothing_whenOpen
  intro registry error herror
  rcases offer with (variant | variant) | kind
  · cases herror
  · dsimp only at herror ⊢
    split
    · rfl
    next hnew =>
      rw [if_neg hnew] at herror
      cases herror
  · rfl

theorem allOrNothing_extendTheme (values : Theme) : AllOrNothing (extendTheme values) := by
  apply allOrNothing_whenOpen
  intro registry error herror
  cases herror

theorem snd_runStep_of_whole {step : Step} (hparts : step.parts registry.theme = none)
    (hwhole : step.isInstall = false) (hfailed : (runStep step registry).1 = .error error) :
    (runStep step registry).2 = registry := by
  cases step with
  | addRule offer =>
      rw [runStep, run_bind] at hfailed ⊢
      rcases hadd : addRule offer registry with ⟨cause | name, after⟩
      · have hkept := allOrNothing_addRule offer registry cause (by rw [hadd])
        rwa [hadd] at hkept
      · rw [hadd] at hfailed
        cases hfailed
  | addVariant offer =>
      rw [runStep] at hfailed ⊢
      exact allOrNothing_addVariant offer registry error hfailed
  | addThemed make =>
      rw [runStep]
      rw [Step.parts] at hparts
      dsimp only
      cases hmake : make registry.theme with
      | error cause => rfl
      | ok variants =>
          rw [hmake] at hparts
          cases hparts
  | extendTheme values =>
      rw [runStep] at hfailed ⊢
      exact allOrNothing_extendTheme values registry error hfailed
  | freeze =>
      rw [runStep] at hfailed
      cases hfailed
  | fail cause =>
      rw [runStep]
      rfl
  | install plugin => cases hwhole
  | addRules | addVariants | installAll => cases hparts

/-! ## Installations -/

/-- The error of an installation that its steps end with this error. -/
def attributed (name : Text) : Error → Error
  | .frozen => .frozen
  | error => .install name error

theorem whenOpen_of_frozen {α : Type} (hfrozen : registry.frozen = true)
    (act : Registry → Except Error α × Registry) :
    whenOpen act registry = (.error .frozen, registry) := by
  rw [whenOpen, if_pos hfrozen]

theorem install_of_frozen (hfrozen : registry.frozen = true) (plugin : Plugin) :
    install plugin registry = (.error .frozen, registry) := by
  obtain ⟨name, version, steps⟩ := plugin
  rw [install, onBehalfOf, whenOpen_of_frozen hfrozen]

theorem install_of_ok {plugin : Plugin} (hopen : registry.frozen = false)
    (hsteps : runSteps plugin.steps (registry.starting plugin.name plugin.version) =
      (.ok (), inside)) :
    install plugin registry = (.ok (), { inside with
      currentPlugin := registry.currentPlugin
      plugins := inside.plugins ++ [(plugin.name, plugin.version)] }) := by
  obtain ⟨name, version, steps⟩ := plugin
  rw [install, onBehalfOf, whenOpen, if_neg (Bool.eq_false_iff.mp hopen)]
  dsimp only
  rw [← starting, hsteps]

theorem install_of_error {plugin : Plugin} (hopen : registry.frozen = false)
    (hsteps : runSteps plugin.steps (registry.starting plugin.name plugin.version) =
      (.error error, inside)) :
    install plugin registry =
      (.error (attributed plugin.name error),
        { inside with currentPlugin := registry.currentPlugin }) := by
  obtain ⟨name, version, steps⟩ := plugin
  rw [install, onBehalfOf, whenOpen, if_neg (Bool.eq_false_iff.mp hopen)]
  dsimp only
  rw [← starting, hsteps]
  cases error <;> rfl

/-! ## Steps that fail -/

/-- A step fails with this error and leaves this registry: at once, at one of its parts after those
before it were taken, or at one of the steps of the plug-in that it installs. -/
inductive Breaks : Step → Registry → Error → Registry → Prop
  | whole {step : Step} {registry : Registry} {error : Error}
      (undivided : step.parts registry.theme = none) (single : step.isInstall = false)
      (failed : (runStep step registry).1 = .error error) : Breaks step registry error registry
  | part {step part : Step} {done rest : List Step} {registry middle left : Registry}
      {error : Error} (divided : step.parts registry.theme = some (done ++ part :: rest))
      (taken : runSteps done registry = (.ok (), middle)) (broken : Breaks part middle error left) :
      Breaks step registry error left
  | refused {registry : Registry} (plugin : Plugin) (frozen : registry.frozen = true) :
      Breaks (.install plugin) registry .frozen registry
  | install {plugin : Plugin} {step : Step} {done rest : List Step}
      {registry middle inside : Registry} {error : Error} (opened : registry.frozen = false)
      (listed : plugin.steps = done ++ step :: rest)
      (taken : runSteps done (registry.starting plugin.name plugin.version) = (.ok (), middle))
      (broken : Breaks step middle error inside) :
      Breaks (.install plugin) registry (attributed plugin.name error)
        { inside with currentPlugin := registry.currentPlugin }

/-- Steps fail at the first of them that does. -/
def BreaksAt (steps : List Step) (registry : Registry) (error : Error) (left : Registry) : Prop :=
  ∃ done step rest middle, steps = done ++ step :: rest ∧
    runSteps done registry = (.ok (), middle) ∧ Breaks step middle error left

theorem BreaksAt.cons {step : Step} {steps : List Step}
    (hstep : runStep step registry = (.ok (), middle)) (hrest : BreaksAt steps middle error left) :
    BreaksAt (step :: steps) registry error left := by
  obtain ⟨done, broken, rest, last, rfl, htaken, hbroken⟩ := hrest
  refine ⟨step :: done, broken, rest, last, rfl, ?_, hbroken⟩
  rw [runSteps_cons_ok hstep, htaken]

theorem BreaksAt.head {step : Step} (hstep : Breaks step registry error left) (rest : List Step) :
    BreaksAt (step :: rest) registry error left :=
  ⟨[], step, rest, registry, rfl, runSteps_nil registry, hstep⟩

theorem Breaks.of_parts {step : Step} {parts : List Step}
    (hparts : step.parts registry.theme = some parts)
    (hbroken : BreaksAt parts registry error left) : Breaks step registry error left := by
  obtain ⟨done, part, rest, middle, rfl, htaken, hpart⟩ := hbroken
  exact .part hparts htaken hpart

/-- A step that is described so fails in this way. -/
theorem Breaks.run {step : Step} (hbreaks : Breaks step registry error left) :
    runStep step registry = (.error error, left) := by
  induction hbreaks with
  | whole hparts hwhole hfailed =>
      exact Prod.ext hfailed (snd_runStep_of_whole hparts hwhole hfailed)
  | part hparts htaken _ ih =>
      rw [runStep_of_parts hparts, runSteps_append_ok htaken, runSteps_cons_error ih]
  | refused plugin hfrozen => rw [runStep, install_of_frozen hfrozen]
  | install hopen hlisted htaken _ ih =>
      rw [runStep]
      apply install_of_error hopen
      rw [hlisted, runSteps_append_ok htaken, runSteps_cons_error ih]

theorem BreaksAt.run {steps : List Step} (hbreaks : BreaksAt steps registry error left) :
    runSteps steps registry = (.error error, left) := by
  obtain ⟨done, step, rest, middle, rfl, htaken, hbroken⟩ := hbreaks
  rw [runSteps_append_ok htaken, runSteps_cons_error hbroken.run]

/-- Every failure of the step is described. -/
def Described (step : Step) : Prop :=
  ∀ registry error left,
    runStep step registry = (.error error, left) → Breaks step registry error left

theorem breaksAt_of_described {steps : List Step} (hsteps : ∀ step ∈ steps, Described step)
    (hrun : runSteps steps registry = (.error error, left)) :
    BreaksAt steps registry error left := by
  induction steps generalizing registry with
  | nil =>
      rw [runSteps_nil] at hrun
      cases hrun
  | cons step rest ih =>
      rcases hstep : runStep step registry with ⟨cause | ⟨⟩, middle⟩
      · rw [runSteps_cons_error hstep] at hrun
        cases hrun
        exact .head (hsteps step List.mem_cons_self _ _ _ hstep) rest
      · rw [runSteps_cons_ok hstep] at hrun
        exact .cons hstep (ih (fun part hpart => hsteps part (List.mem_cons_of_mem _ hpart)) hrun)

theorem Described.of_parts {step : Step} (hwhole : step.isInstall = false)
    (hparts : ∀ theme parts, step.parts theme = some parts → ∀ part ∈ parts, Described part) :
    Described step := by
  intro registry error left hrun
  cases hdivided : step.parts registry.theme with
  | none =>
      have hfailed : (runStep step registry).1 = .error error := congrArg Prod.fst hrun
      have hkept : left = registry :=
        (congrArg Prod.snd hrun).symm.trans (snd_runStep_of_whole hdivided hwhole hfailed)
      rw [hkept]
      exact .whole hdivided hwhole hfailed
  | some parts =>
      rw [runStep_of_parts hdivided] at hrun
      exact .of_parts hdivided (breaksAt_of_described (hparts _ _ hdivided) hrun)

theorem Described.install {plugin : Plugin} (hsteps : ∀ step ∈ plugin.steps, Described step) :
    Described (.install plugin) := by
  intro registry error left hrun
  rw [runStep] at hrun
  cases hfrozen : registry.frozen with
  | true =>
      rw [install_of_frozen hfrozen] at hrun
      cases hrun
      exact .refused plugin hfrozen
  | false =>
      rcases htaken : runSteps plugin.steps (registry.starting plugin.name plugin.version) with
        ⟨cause | ⟨⟩, inside⟩
      · rw [install_of_error hfrozen htaken] at hrun
        cases hrun
        obtain ⟨done, step, rest, middle, hlisted, hdone, hbroken⟩ :=
          breaksAt_of_described hsteps htaken
        exact .install hfrozen hlisted hdone hbroken
      · rw [install_of_ok hfrozen htaken] at hrun
        cases hrun

theorem inherited_described : Step.Inherited Described where
  install _ hsteps := .install hsteps
  other _ hwhole hparts := .of_parts hwhole hparts

/-- An installation in an open registry fails at one of the steps of the plug-in. -/
theorem install_eq_error_iff {plugin : Plugin} (hopen : registry.frozen = false) :
    install plugin registry = (.error error, left) ↔
      ∃ cause inside,
        BreaksAt plugin.steps (registry.starting plugin.name plugin.version) cause inside ∧
        error = attributed plugin.name cause ∧
        left = { inside with currentPlugin := registry.currentPlugin } := by
  constructor
  · intro hrun
    rcases htaken : runSteps plugin.steps (registry.starting plugin.name plugin.version) with
      ⟨cause | ⟨⟩, inside⟩
    · rw [install_of_error hopen htaken] at hrun
      cases hrun
      have hbroken := breaksAt_of_described (inherited_described.plugin plugin) htaken
      exact ⟨cause, inside, hbroken, rfl, rfl⟩
    · rw [install_of_ok hopen htaken] at hrun
      cases hrun
  · rintro ⟨cause, inside, hbroken, rfl, rfl⟩
    exact install_of_error hopen hbroken.run

/-! ## Frozen registries -/

/-- The registry refuses all that there is to add, and stays as it is. -/
structure RefusesAll (registry : Registry) : Prop where
  rule (offer : Offered Rule) : addRule offer registry = (.error .frozen, registry)
  rules (offers : List (Offered Rule)) :
    addRules offers registry = (if offers.isEmpty then .ok [] else .error .frozen, registry)
  variant (offer : Offered AnyVariant) : addVariant offer registry = (.error .frozen, registry)
  variants (offers : List (Offered AnyVariant)) :
    addVariants offers registry = (if offers.isEmpty then .ok () else .error .frozen, registry)
  theme (values : Theme) : extendTheme values registry = (.error .frozen, registry)
  plugin (plugin : Plugin) : install plugin registry = (.error .frozen, registry)
  plugins (plugins : List Plugin) :
    installAll plugins registry = (if plugins.isEmpty then .ok () else .error .frozen, registry)

theorem refusesAll_of_frozen (hfrozen : registry.frozen = true) : registry.RefusesAll where
  rule _ := whenOpen_of_frozen hfrozen _
  rules offers := by
    cases offers with
    | nil => rfl
    | cons offer rest =>
        rw [addRules, run_bind, addRule, whenOpen_of_frozen hfrozen]
        rfl
  variant _ := whenOpen_of_frozen hfrozen _
  variants offers := by
    cases offers with
    | nil => rfl
    | cons offer rest =>
        rw [addVariants, run_bind, addVariant, whenOpen_of_frozen hfrozen]
        rfl
  theme _ := whenOpen_of_frozen hfrozen _
  plugin plugin := install_of_frozen hfrozen plugin
  plugins plugins := by
    cases plugins with
    | nil =>
        rw [installAll]
        rfl
    | cons plugin rest =>
        rw [installAll, run_bind, install_of_frozen hfrozen]
        rfl

/-- A single addition that fails leaves the registry as it was, and a frozen registry stays as it is
under all additions and refuses those of anything. An installation in an open registry fails if and
only if one of its steps does: it leaves the entry of the plug-in, what the steps before that one
added and what the completed parts of that one added. The plug-in before it is current again, and
the plug-in is not recorded. -/
theorem failures_keep_completed (registry : Registry) :
    ((∀ offer, AllOrNothing (addRule offer)) ∧ (∀ offer, AllOrNothing (addVariant offer)) ∧
      ∀ values, AllOrNothing (extendTheme values)) ∧
    (registry.frozen = true → registry.RefusesAll) ∧
    (registry.frozen = false → ∀ plugin error left,
      install plugin registry = (.error error, left) ↔
        ∃ cause inside,
          BreaksAt plugin.steps (registry.starting plugin.name plugin.version) cause inside ∧
          error = attributed plugin.name cause ∧
          left = { inside with currentPlugin := registry.currentPlugin }) :=
  ⟨⟨allOrNothing_addRule, allOrNothing_addVariant, allOrNothing_extendTheme⟩,
    refusesAll_of_frozen, fun hopen _ _ _ => install_eq_error_iff hopen⟩

/-- A plug-in that installs another, which adds a rule, and then something that is no rule. -/
def halfway : Plugin where
  name := "outer"
  steps := [.install
    { name := "inner"
      steps := [.addRules [.proper { pattern := .literal "a", body := .fixed [] }, .foreign "int"],
        .fail .frozen] },
    .freeze]

theorem failures_keep_completed_halfway :
    ({ frozen := true } : Registry).RefusesAll ∧
    ((install halfway {}).1 =
        .error (.install "outer" (.install "inner" (.unsupportedRule "int"))) ∧
      (install halfway {}).2.trace.map (·.kind) = [.plugin, .plugin, .rule] ∧
      (install halfway {}).2.plugins = []) ∧
    ∃ cause inside,
      BreaksAt halfway.steps (({} : Registry).starting "outer" "1.0.0") cause inside ∧
      (install halfway {}).2 = { inside with currentPlugin := directPlugin } := by
  have hrun : install halfway {} =
      (.error (.install "outer" (.install "inner" (.unsupportedRule "int"))),
        (install halfway {}).2) := by rfl
  obtain ⟨cause, inside, hbroken, -, hleft⟩ :=
    ((failures_keep_completed {}).2.2 rfl _ _ _).mp hrun
  exact ⟨(failures_keep_completed { frozen := true }).2.1 rfl,
    ⟨congrArg Prod.fst hrun, by rfl, by rfl⟩, cause, inside, hbroken, hleft⟩

end Registry

end UtilityCss
