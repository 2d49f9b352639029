import UtilityCss.Proofs.LintAnswers

/-!
# Calls in any order

The calls of an engine are listed with the types of their answers, and a history is a
list of calls made on a new session, whether they succeed or not. Every call answers
after every history as it does at once. If the names of the rules are distinct, each
rule is tried with its own pattern, and a body resolves to the first rule in the order of
registration that matches it and does not hand it on.
-/

namespace UtilityCss

/-- A call of an engine. -/
inductive Call where
  | read (raw : Text)
  | readAll (t : Text)
  | style (token : Token)
  | styleText (raw : Text)
  | styleAll (texts : List Text)
  | compile (texts : List Text) (options : Stylesheet.Options)
  | generate (t : Text) (options : Stylesheet.Options)
  | resolve (body : Text)
  | validate (texts : List Text) (watches : List Lint.Watch)
  | validateOrFail (texts : List Text) (watches : List Lint.Watch)
  | mapClass (given : Text) (custom : Table Text Text)
  | mapClasses (names : List Text) (custom : Table Text Text)
  | analyze (names : List Text)
  | category (name : Text)
  | groupByCategory (names : List Text)
  /-- Forget the bodies resolved. -/
  | forget
  /-- Forget all that is kept. -/
  | clear

/-- What a call returns if it succeeds. -/
def Call.Answer : Call → Type
  | .read _ => Token
  | .readAll _ => List Token
  | .style _ | .styleText _ => Option Styled
  | .styleAll _ => List Styled
  | .compile _ _ | .generate _ _ | .category _ => Text
  | .resolve _ => Option Resolution
  | .validate _ _ | .validateOrFail _ _ => List Diagnostic
  | .mapClass _ _ => Migration.Verdict
  | .mapClasses _ _ => List Migration.Verdict
  | .analyze _ => Migration.Report
  | .groupByCategory _ => Table Text (List Text)
  | .forget | .clear => Unit

namespace Engine

/-- Make a call. -/
def perform (engine : Engine) : (call : Call) → Resolving call.Answer
  | .read raw => liftM (engine.read raw)
  | .readAll t => liftM (engine.readAll t)
  | .style token => engine.style token
  | .styleText raw => engine.styleText raw
  | .styleAll texts => engine.styleAll texts
  | .compile texts options => engine.compile texts options
  | .generate t options => engine.generate t options
  | .resolve body => engine.registry.resolve body
  | .validate texts watches => Lint.validate engine texts (watches.map Lint.Watch.finder)
  | .validateOrFail texts watches =>
      Lint.validateOrFail engine texts (watches.map Lint.Watch.finder)
  | .mapClass given custom => liftM (Migration.mapClass Migration.defaultRules given custom)
  | .mapClasses names custom => liftM (Migration.mapClasses Migration.defaultRules custom names)
  | .analyze names => liftM (Migration.analyze Migration.defaultRules names)
  | .category name => liftM (Migration.category name)
  | .groupByCategory names => liftM (Migration.groupByCategory names)
  | .forget => Session.forget
  | .clear => Session.clear

/-- The session after calls that are made one after the other. -/
def resume (engine : Engine) : List Call → Session → Session
  | [], session => session
  | call :: rest, session => engine.resume rest (engine.perform call session).2

/-- The session after calls on a new engine. -/
def after (engine : Engine) (history : List Call) : Session := engine.resume history {}

/-- A call settles under faithful sessions. -/
theorem steady_perform (engine : Engine) (call : Call) :
    Steady engine.Faithful (engine.perform call) := by
  cases call with
  | read raw => exact engine.steady_lift (engine.settles_read raw).steady
  | readAll t => exact engine.steady_lift (engine.steady_readAll t)
  | style token => exact engine.steady_style token
  | styleText raw => exact (engine.settles_styleText raw).steady
  | styleAll texts => exact engine.steady_styleAll texts
  | compile texts options => exact engine.steady_compile texts options
  | generate t options => exact engine.steady_compile [t] options
  | resolve body => exact (engine.settles_resolve body).steady
  | validate texts watches => exact Lint.steady_validate engine texts watches
  | validateOrFail texts watches =>
      refine (Lint.steady_validate engine texts watches).bind fun found => ?_
      dsimp only
      split
      · exact Steady.pure found
      · exact Steady.throw _
  | mapClass given custom => exact engine.steady_lift (engine.steady_mapClass given custom)
  | mapClasses names custom => exact engine.steady_lift (engine.steady_mapClasses custom names)
  | analyze names =>
      exact engine.steady_lift
        ((engine.steady_mapClasses [] names).bind fun _ => Steady.pure _)
  | category name => exact engine.steady_lift (engine.steady_category name)
  | groupByCategory names => exact engine.steady_lift (engine.steady_groupInto [] names)
  | forget =>
      refine ⟨.ok (), ?_⟩
      intro session hsession
      exact ⟨rfl, ⟨hsession.cache, engine.faithful_new.memo⟩⟩
  | clear =>
      refine ⟨.ok (), ?_⟩
      intro session _
      exact ⟨rfl, engine.faithful_new⟩

theorem faithful_resume (engine : Engine) (calls : List Call) {session : Session}
    (hsession : engine.Faithful session) : engine.Faithful (engine.resume calls session) := by
  induction calls generalizing session with
  | nil => exact hsession
  | cons call rest ih =>
      obtain ⟨answer, hanswer⟩ := engine.steady_perform call
      exact ih (hanswer session hsession).2

/-- Every history leaves a faithful session. -/
theorem faithful_after (engine : Engine) (history : List Call) :
    engine.Faithful (engine.after history) :=
  engine.faithful_resume history engine.faithful_new

end Engine

/-! ## The first rule that resolves a body -/

/-- What a rule resolves a body to with its own pattern. -/
def RegisteredRule.resolution? (theme : Theme) (body : Text) (entry : RegisteredRule) :
    Option Resolution := do
  let pattern ← entry.lookup.pattern?
  let found ← pattern.matchWhole body
  match entry.rule.body.properties found theme with
  | .ok (some properties) => some ⟨entry, properties.declarations, properties.nested⟩
  | _ => none

/-- Nothing goes wrong when a rule is tried: its pattern can be read, and what it computes from
a match of the body is no error. -/
structure RegisteredRule.Sound (theme : Theme) (body : Text) (entry : RegisteredRule) : Prop where
  readable : entry.lookup.pattern?.isSome
  computes : ∀ pattern found, entry.lookup.pattern? = some pattern →
    pattern.matchWhole body = some found →
      ∃ properties, entry.rule.body.properties found theme = .ok properties

/-- With its own pattern, a sound rule says what it resolves the body to. -/
theorem RegisteredRule.Sound.verdict_eq {theme : Theme} {body : Text} {entry : RegisteredRule}
    (hsound : entry.Sound theme body) {pattern : Pattern}
    (hpattern : entry.lookup.pattern? = some pattern) :
    entry.verdict theme body pattern = .ok (entry.resolution? theme body) := by
  unfold RegisteredRule.verdict RegisteredRule.resolution?
  rw [hpattern, Option.bind_eq_bind, Option.bind_some]
  cases hmatch : pattern.matchWhole body with
  | none => rfl
  | some found =>
      obtain ⟨properties, hproperties⟩ := hsound.computes pattern found hpattern hmatch
      simp only [Option.bind_eq_bind, Option.bind_some, hproperties, ok_bind]
      cases properties <;> rfl

namespace Engine

/-- Rules with distinct names own their keys. -/
theorem owned_rule (engine : Engine) {before after : List RegisteredRule} {entry : RegisteredRule}
    (hrules : engine.registry.rules = before ++ entry :: after)
    (hnames : ∀ other ∈ before, other.name ≠ entry.name) :
    owned engine.lookups entry.lookup.key = match entry.lookup.pattern? with
      | some pattern => .ok pattern
      | none => .error .invalidPattern := by
  have hlookups : engine.lookups = (Token.lookups ++
      (engine.registry.computedVariants.map ComputedVariant.lookup ++
        before.map RegisteredRule.lookup)) ++
      entry.lookup :: (after.map RegisteredRule.lookup ++ Migration.lookups) := by
    simp [Engine.lookups, hrules]
  rw [hlookups]
  apply owned_of_first
  intro earlier hearlier
  rcases List.mem_append.mp hearlier with hreader | hothers
  · exact Lookup.key_ne_of_head (Token.head_of_mem_lookups hreader) entry.head_lookup (by decide)
  · rcases List.mem_append.mp hothers with hvariant | hrule
    · obtain ⟨variant, _, rfl⟩ := List.mem_map.mp hvariant
      exact Lookup.key_ne_of_head variant.head_lookup entry.head_lookup (by decide)
    · obtain ⟨other, hother, rfl⟩ := List.mem_map.mp hrule
      intro hkey
      have hname : other.lookup.name = entry.lookup.name := congrArg Prod.fst hkey
      simp only [RegisteredRule.lookup, RulePattern.lookup_name] at hname
      exact hnames other hother (List.append_cancel_left hname)

/-- Sound rules with distinct names are tried in order with their own patterns. -/
theorem sweepOwned_rules (engine : Engine) (body : Text)
    (hnames : (engine.registry.rules.map (·.name)).Nodup)
    (hsound : ∀ entry ∈ engine.registry.rules, entry.Sound engine.registry.theme body)
    {before rest : List RegisteredRule} (hrules : engine.registry.rules = before ++ rest) :
    sweepOwned engine.lookups RegisteredRule.lookup
        (RegisteredRule.verdict engine.registry.theme body) rest =
      .ok (rest.findSome? (RegisteredRule.resolution? engine.registry.theme body)) := by
  induction rest generalizing before with
  | nil => rfl
  | cons entry rest ih =>
      have hentry := hsound entry (by simp [hrules])
      obtain ⟨pattern, hpattern⟩ := Option.isSome_iff_exists.mp hentry.readable
      have hdistinct : ∀ other ∈ before, other.name ≠ entry.name := by
        intro other hother hname
        rw [hrules, List.map_append, List.nodup_append] at hnames
        exact hnames.2.2 other.name (List.mem_map_of_mem hother) entry.name (by simp) hname
      have howned := engine.owned_rule hrules hdistinct
      have hrest := @ih (before ++ [entry]) (by simp [hrules])
      rw [sweepOwned, howned, hpattern, ok_bind, hentry.verdict_eq hpattern, ok_bind,
        List.findSome?_cons]
      cases entry.resolution? engine.registry.theme body with
      | none => exact hrest
      | some found => rfl

/-- After every history, also one with calls that failed, a call answers as on a new session.
With distinct names, a body that is not empty resolves after every history to the first rule
that matches it in full with its own pattern and does not hand it on, if nothing goes wrong. -/
theorem perform_after (engine : Engine) :
    (∀ (history : List Call) (call : Call),
      (engine.perform call (engine.after history)).1 = (engine.perform call {}).1) ∧
    ((engine.registry.rules.map (·.name)).Nodup → ∀ (history : List Call) (body : Text),
      body ≠ [] → (∀ entry ∈ engine.registry.rules, entry.Sound engine.registry.theme body) →
      (engine.registry.resolve body (engine.after history)).1 =
        .ok (engine.registry.rules.findSome?
          (RegisteredRule.resolution? engine.registry.theme body))) := by
  constructor
  · intro history call
    exact (engine.steady_perform call).answer_eq (engine.faithful_after history)
      engine.faithful_new
  · intro hnames history body hbody hsound
    have hresolve := (engine.settles_resolve body _ (engine.faithful_after history)).1
    have hscan := (engine.settles_scan body _ (PatternCache.faithful_empty engine.lookups)).1
    rw [hresolve, Registry.resolution, if_neg hbody, hscan]
    exact engine.sweepOwned_rules body hnames hsound (List.nil_append _).symm

/-- An engine with a rule that hands every body on, and a rule for one text. -/
def handingOn : Engine where
  registry := {
    rules := [
      ⟨{ pattern := .written "f(.*)", body := .computed fun _ _ => .ok none }, "a#0", 0, "a"⟩,
      ⟨{ pattern := .literal "flex", body := .fixed [("display", "flex")] }, "a:flex", 1, "a"⟩] }

theorem handingOn_after :
    (handingOn.registry.rules.map (·.name)).Nodup ∧
      (∀ entry ∈ handingOn.registry.rules, entry.Sound handingOn.registry.theme "flex") ∧
      (handingOn.registry.resolve "flex"
        (handingOn.after [.resolve "fl", .styleText "(a)", .clear, .resolve "flex"])).1.map
          (·.map (·.entry.name)) = .ok (some ("a:flex" : Text)) := by
  have hnames : (handingOn.registry.rules.map (·.name)).Nodup := by decide
  have hsound : ∀ entry ∈ handingOn.registry.rules,
      entry.Sound handingOn.registry.theme "flex" := by
    intro entry hentry
    simp only [handingOn, List.mem_cons, List.not_mem_nil, or_false] at hentry
    rcases hentry with rfl | rfl
    · exact ⟨rfl, fun _ _ _ _ => ⟨none, rfl⟩⟩
    · exact ⟨rfl, fun _ _ _ _ => ⟨_, rfl⟩⟩
  refine ⟨hnames, hsound, ?_⟩
  rw [(perform_after handingOn).2 hnames _ _ (by decide) hsound]
  rfl

end Engine

end UtilityCss
