import UtilityCss.Engine.Config
import UtilityCss.Proofs.CatalogRules
import UtilityCss.Proofs.FailedAdditions
import UtilityCss.Proofs.RuleNames

/-!
# What plug-ins contribute

Steps that succeed add the same rules and merge the same values into the theme, whatever the
registry holds: only the names of rules, and variants, depend on it. So the rules of a registry
that was filled from a list of plug-ins are those of the plug-ins, in the order of the list.
-/

namespace UtilityCss

/-- The values that a step merges into the theme. -/
def Step.values : Step → List Theme
  | .extendTheme values => [values]
  | _ => []

def Plugin.values (plugin : Plugin) : List Theme := plugin.steps.flatMap Step.values

/-- Whether a step adds lists of rules, variants or theme values, and installs nothing. -/
def Step.isFlat : Step → Bool
  | .addRules _ | .addVariants _ | .addThemed _ | .extendTheme _ => true
  | _ => false

namespace Registry

variable {rules more : List Rule} {values others : List Theme}

/-- Whenever it succeeds, the computation adds these rules and merges these values into the
theme. -/
def Contributes (act : Registering Unit) (rules : List Rule) (values : List Theme) : Prop :=
  ∀ registry after, act registry = (.ok (), after) →
    after.rules.map (·.rule) = registry.rules.map (·.rule) ++ rules ∧
      after.theme = values.foldl Theme.merge registry.theme

/-! ## Sequences -/

theorem contributes_bind {first second : Registering Unit} (hfirst : Contributes first rules values)
    (hsecond : Contributes second more others) :
    Contributes (do first; second) (rules ++ more) (values ++ others) := by
  intro registry after hrun
  rw [run_bind] at hrun
  split at hrun
  next middle htaken =>
    obtain ⟨hrules, htheme⟩ := hfirst registry middle htaken
    obtain ⟨hmore, hothers⟩ := hsecond middle after hrun
    constructor
    · rw [hmore, hrules, List.append_assoc]
    · rw [hothers, htheme, List.foldl_append]
  next => cases hrun

theorem contributes_nil : Contributes (runSteps []) [] [] := by
  intro registry after hrun
  rw [runSteps_nil] at hrun
  cases hrun
  exact ⟨(List.append_nil _).symm, rfl⟩

theorem contributes_cons {step : Step} {steps : List Step}
    (hstep : Contributes (runStep step) rules values)
    (hsteps : Contributes (runSteps steps) more others) :
    Contributes (runSteps (step :: steps)) (rules ++ more) (values ++ others) := by
  rw [runSteps]
  exact contributes_bind hstep hsteps

theorem contributes_append {first second : List Step}
    (hfirst : Contributes (runSteps first) rules values)
    (hsecond : Contributes (runSteps second) more others) :
    Contributes (runSteps (first ++ second)) (rules ++ more) (values ++ others) := by
  rw [runSteps_append]
  exact contributes_bind hfirst hsecond

/-- Steps that are made from items contribute what is known of each. -/
theorem contributes_map {ι : Type} {step : ι → Step} {brought : ι → List Rule}
    {merged : ι → List Theme} {items : List ι}
    (hitems : ∀ item ∈ items, Contributes (runStep (step item)) (brought item) (merged item)) :
    Contributes (runSteps (items.map step)) (items.flatMap brought) (items.flatMap merged) := by
  induction items with
  | nil => exact contributes_nil
  | cons item rest ih =>
      rw [List.forall_mem_cons] at hitems
      exact contributes_cons hitems.1 (ih hitems.2)

/-! ## Single steps -/

theorem contributes_of_fails {act : Registering Unit}
    (hact : ∀ registry, (act registry).1 ≠ .ok ()) : Contributes act [] [] := by
  intro registry after hrun
  exact absurd (congrArg Prod.fst hrun) (hact registry)

/-- What an open registry does not refuse. -/
theorem of_whenOpen_eq_ok {α : Type} {act : Registry → Except Error α × Registry} {a : α}
    {registry after : Registry} (hrun : whenOpen act registry = (.ok a, after)) :
    act registry = (.ok a, after) := by
  unfold whenOpen at hrun
  split at hrun
  · cases hrun
  · exact hrun

theorem contributes_addRule (rule : Rule) :
    Contributes (runStep (.addRule (.proper rule))) [rule] [] := by
  intro registry after hrun
  rw [runStep, run_bind] at hrun
  split at hrun
  next name middle hadd =>
    have hopen := of_whenOpen_eq_ok hadd
    dsimp only at hopen
    split at hopen
    · cases hopen
    · cases hopen
      cases hrun
      exact ⟨by simp [traced], rfl⟩
  next => cases hrun

theorem contributes_foreign (kind : Text) :
    Contributes (runStep (.addRule (.foreign kind))) [] [] := by
  apply contributes_of_fails
  intro registry hok
  rw [runStep, run_bind, addRule, whenOpen] at hok
  cases hfrozen : registry.frozen <;> simp [hfrozen] at hok

theorem contributes_addRules (offers : List (Offered Rule)) :
    Contributes (runStep (.addRules offers)) (Step.rules (.addRules offers)) [] := by
  rw [runStep_addRules]
  induction offers with
  | nil => exact contributes_nil
  | cons offer rest ih =>
      cases offer with
      | proper rule => exact contributes_cons (contributes_addRule rule) ih
      | foreign kind => exact contributes_cons (contributes_foreign kind) ih

theorem contributes_addVariant (offer : Offered AnyVariant) :
    Contributes (runStep (.addVariant offer)) [] [] := by
  intro registry after hrun
  rw [runStep] at hrun
  have hopen := of_whenOpen_eq_ok hrun
  rcases offer with (variant | variant) | kind
  · cases hopen
    exact ⟨(List.append_nil _).symm, rfl⟩
  · dsimp only at hopen
    split at hopen
    · cases hopen
    · cases hopen
      exact ⟨(List.append_nil _).symm, rfl⟩
  · cases hopen

theorem contributes_addVariants (offers : List (Offered AnyVariant)) :
    Contributes (addVariants offers) [] [] := by
  rw [addVariants_eq]
  induction offers with
  | nil => exact contributes_nil
  | cons offer rest ih => exact contributes_cons (contributes_addVariant offer) ih

theorem contributes_extendTheme (values : Theme) :
    Contributes (extendTheme values) [] [values] := by
  intro registry after hrun
  have hopen := of_whenOpen_eq_ok hrun
  dsimp only at hopen
  rw [foldl_traced_theme] at hopen
  cases hopen
  exact ⟨(List.append_nil _).symm, rfl⟩

theorem contributes_freeze : Contributes freeze [] [] := by
  intro registry after hrun
  cases hrun
  exact ⟨(List.append_nil _).symm, rfl⟩

theorem contributes_addThemed (make : Theme → Except Error (List AnyVariant)) :
    Contributes (runStep (.addThemed make)) [] [] := by
  intro registry after hrun
  rw [runStep] at hrun
  dsimp only at hrun
  split at hrun
  next variants _ => exact contributes_addVariants _ registry after hrun
  next => cases hrun

/-- A step that installs nothing contributes what is listed in it. -/
theorem contributes_of_isFlat {step : Step} (hstep : step.isFlat = true) :
    Contributes (runStep step) step.rules step.values := by
  cases step with
  | addRules offers => exact contributes_addRules offers
  | addVariants offers =>
      rw [runStep]
      exact contributes_addVariants offers
  | addThemed make => exact contributes_addThemed make
  | extendTheme values =>
      rw [runStep]
      exact contributes_extendTheme values
  | addRule | addVariant | install | installAll | freeze | fail => cases hstep

theorem contributes_install {plugin : Plugin}
    (hsteps : Contributes (runSteps plugin.steps) rules values) :
    Contributes (install plugin) rules values := by
  intro registry after hrun
  cases hfrozen : registry.frozen with
  | true =>
      rw [install_of_frozen hfrozen] at hrun
      cases hrun
  | false =>
      rcases htaken : runSteps plugin.steps (registry.starting plugin.name plugin.version) with
        ⟨error | ⟨⟩, inside⟩
      · rw [install_of_error hfrozen htaken] at hrun
        cases hrun
      · rw [install_of_ok hfrozen htaken] at hrun
        cases hrun
        exact hsteps (registry.starting plugin.name plugin.version) inside htaken

theorem contributes_flatPlugin {plugin : Plugin} (hplugin : plugin.steps.all Step.isFlat = true) :
    Contributes (runStep (.install plugin)) plugin.rules plugin.values := by
  have hsteps := @contributes_map _ id Step.rules Step.values plugin.steps fun step hstep =>
    contributes_of_isFlat (List.all_eq_true.mp hplugin step hstep)
  rw [List.map_id] at hsteps
  rw [runStep]
  exact contributes_install hsteps

/-! ## All steps -/

theorem exists_contributes_steps {steps : List Step}
    (hsteps : ∀ step ∈ steps, ∃ rules values, Contributes (runStep step) rules values) :
    ∃ rules values, Contributes (runSteps steps) rules values := by
  induction steps with
  | nil => exact ⟨[], [], contributes_nil⟩
  | cons step rest ih =>
      rw [List.forall_mem_cons] at hsteps
      obtain ⟨rules, values, hstep⟩ := hsteps.1
      obtain ⟨more, others, hrest⟩ := ih hsteps.2
      exact ⟨_, _, contributes_cons hstep hrest⟩

/-- Every step contributes the same whenever it succeeds. -/
theorem inherited_contributes :
    Step.Inherited fun step => ∃ rules values, Contributes (runStep step) rules values where
  install plugin hsteps := by
    obtain ⟨rules, values, hcontributes⟩ := exists_contributes_steps hsteps
    refine ⟨rules, values, ?_⟩
    rw [runStep]
    exact contributes_install hcontributes
  other step hwhole hparts := by
    cases step with
    | addRule offer =>
        cases offer with
        | proper rule => exact ⟨_, _, contributes_addRule rule⟩
        | foreign kind => exact ⟨_, _, contributes_foreign kind⟩
    | addVariant offer => exact ⟨_, _, contributes_addVariant offer⟩
    | addRules | addVariants | addThemed | extendTheme => exact ⟨_, _, contributes_of_isFlat rfl⟩
    | install plugin => cases hwhole
    | installAll plugins =>
        rw [runStep, installAll_eq]
        exact exists_contributes_steps (hparts [] _ rfl)
    | freeze =>
        rw [runStep]
        exact ⟨_, _, contributes_freeze⟩
    | fail error =>
        rw [runStep]
        exact ⟨[], [], contributes_of_fails fun _ hok => by cases hok⟩

end Registry

namespace Engine

open Registry

/-- What an engine holds is what its plug-ins contribute, and the values of its configuration. -/
theorem contents_of_ofPlugins {config : Config} {plugins : List Plugin} {engine : Engine}
    {rules : List Rule} {values : List Theme}
    (hplugins : Contributes (runSteps (plugins.map .install)) rules values)
    (hengine : ofPlugins config plugins = .ok engine) :
    engine.registry.rules.map (·.rule) = rules ∧
      engine.registry.theme =
        (values ++ if config.theme ≠ [] then [config.theme] else []).foldl Theme.merge [] := by
  have hfill : Contributes (fill plugins config.theme) (rules ++ [])
      (values ++ if config.theme ≠ [] then [config.theme] else []) := by
    unfold fill
    rw [installAll_eq]
    apply contributes_bind hplugins
    split
    · exact contributes_bind (contributes_extendTheme _) contributes_freeze
    · exact contributes_freeze
  obtain ⟨-, -, hengine⟩ := bind_eq_ok hengine
  split at hengine
  next registry hrun =>
    cases hengine
    have hcontents := hfill {} registry hrun
    rwa [List.append_nil] at hcontents
  next => cases hengine

theorem proceeds_fill (plugins : List Plugin) (theme : Theme) : Proceeds (fill plugins theme) := by
  have hfreeze : Proceeds freeze := fun _ => .change .freeze
  refine (proceeds_installAll plugins).bind fun _ => ?_
  split
  · exact (proceeds_extendTheme theme).bind fun _ => hfreeze
  · exact hfreeze

theorem additions_of_ofPlugins {config : Config} {plugins : List Plugin} {engine : Engine}
    (hengine : ofPlugins config plugins = .ok engine) : Additions [] engine.registry.rules := by
  have hruns := proceeds_fill plugins config.theme {}
  obtain ⟨-, -, hengine⟩ := bind_eq_ok hengine
  split at hengine
  next registry hrun =>
    cases hengine
    rw [hrun] at hruns
    exact hruns.additions
  next => cases hengine

end Engine

end UtilityCss
