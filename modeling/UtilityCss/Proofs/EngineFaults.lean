import UtilityCss.Proofs.CatalogRules
import UtilityCss.Proofs.ReadingFaults

/-!
# Faults of the standard engine

An engine with the catalogue and nothing else resolves a body as the rules of the catalogue
do, each with its own pattern. So styling fails with the fault of a body and with nothing
else: a token is resolved with its modifier first and then without, variants can always be
applied, and class names that cannot be read are left out of a stylesheet. Faults exist, so
unknown input can fail; which input does is determined by its text alone.
-/

namespace UtilityCss

/-! ## Faults of computations -/

section Faults

variable {σ α β : Type} {inv : σ → Prop}

/-- The computation settles on an answer with this fault. -/
def Faults (inv : σ → Prop) (act : ExceptT Error (StateM σ) α) (fault : Option Error) : Prop :=
  ∃ answer, Settles inv act answer ∧ fault? answer = fault

theorem Faults.pure (a : α) : Faults inv (pure a) none := ⟨.ok a, Settles.pure a, rfl⟩

/-- The first fault of a sequence decides. -/
theorem Settles.faults_bind {act : ExceptT Error (StateM σ) α}
    {next : α → ExceptT Error (StateM σ) β} {answer : Except Error α} {late : Option Error}
    (hact : Settles inv act answer) (hnext : ∀ a, answer = .ok a → Faults inv (next a) late) :
    Faults inv (act >>= next) ((fault? answer).or late) := by
  cases answer with
  | error error => exact ⟨_, hact.bind_error, rfl⟩
  | ok a =>
      obtain ⟨last, hlast, hfault⟩ := hnext a rfl
      exact ⟨last, hact.bind_ok hlast, hfault⟩

theorem Faults.bind {act : ExceptT Error (StateM σ) α} {next : α → ExceptT Error (StateM σ) β}
    {early late : Option Error} (hact : Faults inv act early)
    (hnext : ∀ a, Faults inv (next a) late) : Faults inv (act >>= next) (early.or late) := by
  obtain ⟨answer, hanswer, rfl⟩ := hact
  exact hanswer.faults_bind fun a _ => hnext a

theorem Faults.fault?_eq {act : ExceptT Error (StateM σ) α} {fault : Option Error}
    (hact : Faults inv act fault) {state : σ} (hstate : inv state) :
    fault? (act state).1 = fault := by
  obtain ⟨answer, hanswer, hfault⟩ := hact
  rw [(hanswer state hstate).1, hfault]

end Faults

/-! ## Faults of tokens -/

/-- The bodies that a token is resolved with, the one with its modifier first. -/
def Token.bodies (token : Token) : List Text :=
  (token.modifier.map (token.body ++ '/' :: ·)).toList ++ [token.body]

/-- The fault of a token: that of the first of its bodies that has one. -/
def Catalog.tokenFault? (token : Token) : Option Error := token.bodies.findSome? bodyFault?

/-- The fault of a class name that can be read. -/
def Engine.nameFault? (engine : Engine) (raw : Text) : Option Error :=
  (engine.read raw {}).1.toOption.bind Catalog.tokenFault?

/-- With its own pattern, a registered rule makes of a body what the rule does. -/
theorem RegisteredRule.own_verdict (theme : Theme) (body : Text) (entry : RegisteredRule) :
    (entry.lookup.own >>= entry.verdict theme body) =
      (entry.rule.answer theme body).map
        (Option.map fun properties => ⟨entry, properties.declarations, properties.nested⟩) := by
  have hpattern : entry.lookup.pattern? = entry.rule.pattern? :=
    RulePattern.pattern?_lookup _ entry.rule.pattern
  rw [Lookup.own, hpattern, Rule.answer]
  cases entry.rule.pattern? with
  | none => rfl
  | some pattern =>
      rw [ok_bind, RegisteredRule.verdict]
      dsimp only
      cases pattern.matchWhole body with
      | none => rfl
      | some found =>
          dsimp only
          cases entry.rule.body.properties found theme with
          | error error => rfl
          | ok properties => cases properties <;> rfl

theorem findSome?_filterMap {α β γ : Type} (f : α → Option β) (g : β → Option γ) (items : List α) :
    (items.filterMap f).findSome? g = items.findSome? fun item => (f item).bind g := by
  induction items with
  | nil => rfl
  | cons item rest ih =>
      rw [List.filterMap_cons, List.findSome?_cons]
      cases f item with
      | none => exact ih
      | some b => rw [List.findSome?_cons, ih]; rfl

theorem Catalog.fits_standard : Fits standardTheme utilityRules numberLeads :=
  fits_utilities standardTheme_sections.2.2.1 standardTheme_sections.2.2.2

namespace Engine

variable {engine : Engine}

theorem nameFault?_eq (raw : Text) :
    engine.nameFault? raw =
      (Token.readAnswer engine.accepts raw).toOption.bind Catalog.tokenFault? := by
  rw [nameFault?, (engine.settles_read raw {} (PatternCache.faithful_empty _)).1]

/-- With distinct names, a body is resolved by the first registered rule that answers it. -/
theorem resolution_eq_firstAnswer (hnames : (engine.registry.rules.map (·.name)).Nodup)
    {body : Text} (hbody : body ≠ []) :
    (engine.registry.resolution body {}).1 =
      firstAnswer (fun entry => (entry.rule.answer engine.registry.theme body).map
        (Option.map fun properties => ⟨entry, properties.declarations, properties.nested⟩))
        engine.registry.rules := by
  have howned : ∀ entry ∈ engine.registry.rules,
      owned engine.lookups entry.lookup.key = entry.lookup.own := by
    intro entry hentry
    obtain ⟨before, after, hrules⟩ := List.append_of_mem hentry
    apply engine.owned_rule hrules
    exact ne_of_nodup_map (hrules ▸ hnames)
  have hscan := (engine.settles_scan body {} (PatternCache.faithful_empty _)).1
  rw [Registry.resolution, if_neg hbody, hscan, sweepOwned_eq_firstAnswer _ howned]
  simp only [RegisteredRule.own_verdict]

namespace IsStandard

theorem resolution_eq (hengine : engine.IsStandard) {body : Text} (hbody : body ≠ []) :
    (engine.registry.resolution body {}).1 =
      firstAnswer (fun entry => (entry.rule.answer Catalog.standardTheme body).map
        (Option.map fun properties => ⟨entry, properties.declarations, properties.nested⟩))
        engine.registry.rules := by
  rw [resolution_eq_firstAnswer hengine.names hbody, hengine.theme]

/-- A body is resolved if the rules of the catalogue resolve it, and fails as they do. -/
theorem resolution_isSome (hengine : engine.IsStandard) {body : Text} (hbody : body ≠ []) :
    (engine.registry.resolution body {}).1.map Option.isSome =
      (firstAnswer (Rule.answer Catalog.standardTheme body) Catalog.utilityRules).map
        Option.isSome := by
  rw [hengine.resolution_eq hbody, ← hengine.rules, firstAnswer_map]
  exact firstAnswer_mapped _ fun entry _ => rfl

theorem fault?_resolution (hengine : engine.IsStandard) (body : Text) :
    fault? (engine.registry.resolution body {}).1 = Catalog.bodyFault? body := by
  by_cases hbody : body = []
  · have hnone : Catalog.bodyFault? [] = none := rfl
    rw [hbody, hnone]
    rfl
  · rw [← Catalog.fits_standard.fault?_firstAnswer, ← fault?_map Option.isSome,
      hengine.resolution_isSome hbody, fault?_map]

theorem resolution_behind (hengine : engine.IsStandard) {body : Text} {error : Error}
    (hfault : Catalog.bodyFault? body = some error) (modifier : Text) :
    (engine.registry.resolution (body ++ '/' :: modifier) {}).1 = .ok none := by
  have hbehind : body ++ '/' :: modifier ≠ [] := by simp
  have hsame := hengine.resolution_isSome hbehind
  rw [Catalog.fits_standard.firstAnswer_behind hfault modifier] at hsame
  cases hanswer : (engine.registry.resolution (body ++ '/' :: modifier) {}).1 with
  | error other => simp [hanswer, Except.map] at hsame
  | ok found =>
      cases found with
      | none => rfl
      | some found => simp [hanswer, Except.map] at hsame

theorem faults_resolve (hengine : engine.IsStandard) (body : Text) :
    Faults engine.Faithful (engine.registry.resolve body) (Catalog.bodyFault? body) :=
  ⟨_, engine.settles_resolve body, hengine.fault?_resolution body⟩

theorem faults_resolveToken (hengine : engine.IsStandard) (token : Token) :
    Faults engine.Faithful (engine.resolveToken token token.body) (Catalog.tokenFault? token) := by
  have hbody : Faults engine.Faithful
      (do return (← engine.registry.resolve token.body).map (·, token.opacity) : Resolving _)
      (Catalog.bodyFault? token.body) := by
    rw [← Option.or_none (o := Catalog.bodyFault? token.body)]
    exact (hengine.faults_resolve token.body).bind fun _ => Faults.pure _
  unfold resolveToken
  rw [Catalog.tokenFault?, Token.bodies]
  cases token.modifier with
  | none => simpa using hbody
  | some modifier =>
      have hboth : List.findSome? Catalog.bodyFault?
          ((some (token.body ++ '/' :: modifier)).toList ++ [token.body]) =
          (fault? (engine.registry.resolution (token.body ++ '/' :: modifier) {}).1).or
            (Catalog.bodyFault? token.body) := by
        rw [hengine.fault?_resolution, List.findSome?_append]
        simp
      rw [Option.map_some, hboth]
      refine (engine.settles_resolve _).faults_bind fun found hfound => ?_
      cases found with
      | none => exact hbody
      | some found =>
          -- A body that resolves with its modifier has no fault without it.
          cases hfault : Catalog.bodyFault? token.body with
          | none => exact Faults.pure _
          | some error =>
              rw [hengine.resolution_behind hfault modifier] at hfound
              cases hfound

/-- A token is styled as it is resolved, at the place that its variants give. -/
theorem settles_style_of_resolveToken (hengine : engine.IsStandard) (token : Token)
    {place : Option (Text × List Text)}
    {answer : Except Error (Option (Resolution × Option Opacity))}
    (hplace : Settles (PatternCache.Faithful engine.lookups)
      (engine.registry.applyVariants token.variants (Selector.ofClass token.raw) []) (.ok place))
    (hanswer : Settles engine.Faithful (engine.resolveToken token token.body) answer) :
    Settles engine.Faithful (engine.style token)
      (answer.map fun resolved => resolved.bind fun (found, opacity) =>
        place.map fun (selector, atRules) =>
          engine.assemble token found opacity selector atRules) := by
  have hbody : Text.afterLead? engine.classPrefix token.body = some token.body := by
    rw [hengine.classPrefix]
    rfl
  unfold style
  rw [hbody]
  cases answer with
  | error error => exact hanswer.bind_error
  | ok resolved =>
      refine hanswer.bind_ok ?_
      cases resolved with
      | none => exact Settles.pure none
      | some resolved =>
          refine (engine.settles_lift hplace).bind_ok ?_
          cases place <;> exact Settles.pure _

/-- Styling a token fails exactly with its fault. -/
theorem faults_style (hengine : engine.IsStandard) (token : Token) :
    Faults engine.Faithful (engine.style token) (Catalog.tokenFault? token) := by
  obtain ⟨place, hplace, -⟩ := hengine.exists_applyVariants token.variants
    (Selector.ofClass token.raw) []
  obtain ⟨answer, hanswer, hfault⟩ := hengine.faults_resolveToken token
  exact ⟨_, hengine.settles_style_of_resolveToken token hplace hanswer, by rw [fault?_map, hfault]⟩

theorem faults_styleText (hengine : engine.IsStandard) (raw : Text) :
    Faults engine.Faithful (engine.styleText raw)
      ((fault? (engine.read raw {}).1).or (engine.nameFault? raw)) := by
  have hread := engine.settles_read raw
  rw [nameFault?_eq, (hread {} (PatternCache.faithful_empty _)).1]
  refine (engine.settles_lift hread).faults_bind fun token htoken => ?_
  rw [htoken]
  exact hengine.faults_style token

theorem faults_styleEach (hengine : engine.IsStandard) (tokens : List Token) :
    Faults engine.Faithful (engine.styleEach tokens) (tokens.findSome? Catalog.tokenFault?) := by
  induction tokens with
  | nil => exact Faults.pure []
  | cons token rest ih =>
      have hrest (styled : Option Styled) : Faults engine.Faithful
          (do return styled.toList ++ (← engine.styleEach rest) : Resolving _)
          (rest.findSome? Catalog.tokenFault?) := by
        rw [← Option.or_none (o := rest.findSome? Catalog.tokenFault?)]
        exact ih.bind fun _ => Faults.pure _
      rw [← List.singleton_append, List.findSome?_append, List.findSome?_singleton]
      exact (hengine.faults_style token).bind hrest

/-- Reading never fails: names that cannot be read are left out. -/
theorem settles_readAll (hengine : engine.IsStandard) (t : Text) :
    Settles (PatternCache.Faithful engine.lookups) (engine.readAll t)
      (.ok ((Group.expand t).filterMap fun raw =>
        (Token.readAnswer engine.accepts raw).toOption)) := by
  obtain ⟨known, hknown⟩ := hengine.exists_accepts
  apply Token.settles_readEach_filterMap engine.settles_isVariant
  intro raw _ error herror
  rw [hknown] at herror
  obtain ⟨position, rfl⟩ := Token.eq_variantGroup_of_readAnswer herror
  exact ⟨raw, position, rfl⟩

theorem faults_styleAll (hengine : engine.IsStandard) (texts : List Text) :
    Faults engine.Faithful (engine.styleAll texts)
      ((Lint.expandAll texts).findSome? engine.nameFault?) := by
  induction texts with
  | nil => exact Faults.pure []
  | cons t rest ih =>
      have hrest (styled : List Styled) : Faults engine.Faithful
          (do return styled ++ (← engine.styleAll rest) : Resolving _)
          ((Lint.expandAll rest).findSome? engine.nameFault?) := by
        rw [← Option.or_none (o := (Lint.expandAll rest).findSome? engine.nameFault?)]
        exact ih.bind fun _ => Faults.pure _
      have hstyled := (hengine.faults_styleEach ((Group.expand t).filterMap fun raw =>
        (Token.readAnswer engine.accepts raw).toOption)).bind hrest
      rw [findSome?_filterMap, ← funext nameFault?_eq, ← List.findSome?_append] at hstyled
      -- Reading has no fault of its own, so the first one is found in styling.
      obtain ⟨answer, hanswer, hfault⟩ := hstyled
      exact ⟨answer, (engine.settles_lift (hengine.settles_readAll t)).bind_ok hanswer, hfault⟩

theorem faults_compile (hengine : engine.IsStandard) (texts : List Text)
    (options : Stylesheet.Options) :
    Faults engine.Faithful (engine.compile texts options)
      ((Lint.expandAll texts).findSome? engine.nameFault?) := by
  rw [← Option.or_none (o := (Lint.expandAll texts).findSome? engine.nameFault?)]
  exact (hengine.faults_styleAll texts).bind fun _ => Faults.pure _

end IsStandard

/-- The standard engine can be built, and refuses a class name only as a variant group. After
every history, styling a class name that can be read fails exactly if one of its bodies has a
number that cannot be had, and so does the stylesheet of class texts if one of the names that
they stand for is such a name; names that cannot be read are left out of it. -/
theorem standard_faults (history : List Call) (raw : Text) (texts : List Text)
    (options : Stylesheet.Options) :
    ∃ engine, Engine.build {} = .ok engine ∧
      (∀ error, (engine.read raw {}).1 = .error error →
        ∃ position, error = .variantGroup raw position) ∧
      fault? (engine.styleText raw (engine.after history)).1 =
        (fault? (engine.read raw {}).1).or (engine.nameFault? raw) ∧
      fault? (engine.compile texts options (engine.after history)).1 =
        (Lint.expandAll texts).findSome? engine.nameFault? ∧
      (∀ error, engine.nameFault? raw = some error →
        error = .unreadableNumber ∨ error = .quotientTooLarge) := by
  obtain ⟨engine, hbuild, hengine⟩ := Engine.exists_build
  have hsession := engine.faithful_after history
  refine ⟨engine, hbuild, ?_, (hengine.faults_styleText raw).fault?_eq hsession,
    (hengine.faults_compile texts options).fault?_eq hsession, ?_⟩
  · intro error herror
    obtain ⟨known, hknown⟩ := hengine.exists_accepts
    rw [(engine.settles_read raw {} (PatternCache.faithful_empty _)).1, hknown] at herror
    exact Token.eq_variantGroup_of_readAnswer herror
  · intro error hfault
    obtain ⟨token, -, hbodies⟩ := Option.bind_eq_some_iff.mp hfault
    obtain ⟨body, -, hbody⟩ := List.exists_of_findSome?_eq_some hbodies
    obtain ⟨use, lead, key, -, -, hkey⟩ := Catalog.exists_lead_of_bodyFault? hbody
    exact NumberUse.eq_of_fault? hkey

/-- A superscript is a digit sign without a value, which is enough to lose a stylesheet. -/
theorem fails_on_superscript : ∃ engine, Engine.build {} = .ok engine ∧
    (engine.styleText "opacity-²" {}).1 = .error .unreadableNumber ∧
    (engine.compile ["flex", "opacity-²"] {} {}).1 = .error .unreadableNumber := by
  obtain ⟨engine, hbuild, hengine⟩ := Engine.exists_build
  have hread {raw segment : Text}
      (hsegments : ClassName.segments (Token.splitImportant (Text.trim raw)).2 = [segment]) :
      (engine.read raw {}).1 = Token.readAnswer (fun _ => .ok false) raw := by
    rw [(engine.settles_read raw {} (PatternCache.faithful_empty _)).1, Token.readAnswer,
      Token.readAnswer, hsegments]
    rfl
  have hflex : engine.nameFault? "flex" = none := by
    have hsegments : ClassName.segments (Token.splitImportant (Text.trim "flex")).2 =
        (["flex"] : List Text) := by decide +kernel
    rw [nameFault?, hread hsegments]
    decide +kernel
  have hsegments : ClassName.segments (Token.splitImportant (Text.trim "opacity-²")).2 =
      (["opacity-²"] : List Text) := by decide +kernel
  have hopacity : engine.nameFault? "opacity-²" = some .unreadableNumber := by
    rw [nameFault?, hread hsegments]
    rfl
  refine ⟨engine, hbuild, eq_error_of_fault? ?_, eq_error_of_fault? ?_⟩
  · rw [(hengine.faults_styleText _).fault?_eq engine.faithful_new, hopacity, hread hsegments]
    rfl
  · have hnames : Lint.expandAll ["flex", "opacity-²"] =
        (["flex", "opacity-²"] : List Text) := by
      decide +kernel
    rw [(hengine.faults_compile _ _).fault?_eq engine.faithful_new, hnames, List.findSome?_cons,
      hflex, List.findSome?_cons, hopacity]

end Engine

end UtilityCss
