import UtilityCss.Proofs.FirstAnswers
import UtilityCss.Proofs.HistoryIndependence
import UtilityCss.Proofs.PatternSearch

/-!
# Which mapping rule decides

A foreign name gets its verdict from the first mapping rule whose pattern is found in it, whatever
has been looked up before. A name in which no rule is found is kept, and warned of if it looks like
the name of a utility. No two lookups of the mapping share a key, so that each of the default rules
is tried with its own pattern after every history.
-/

namespace UtilityCss

namespace Migration

/-! ## The first rule that is found -/

/-- Where the pattern of a rule is found in a name. -/
def MappingRule.found? (rule : MappingRule) (given : Text) : Option Match :=
  (Pattern.read? rule.pattern false).bind (·.search given)

/-- A rule decides on a name: of some rules it is the first whose pattern is found in the name,
and the verdict is its own. -/
def Decides (rules : List MappingRule) (given : Text) (rule : MappingRule) (verdict : Verdict) :
    Prop :=
  ∃ before after found, rules = before ++ rule :: after ∧
    (∀ earlier ∈ before, earlier.found? given = none) ∧ rule.found? given = some found ∧
    verdict = rule.verdict given found

/-- The verdict of the first rule that is found in a name. -/
def ruled? (rules : List MappingRule) (given : Text) : Option Verdict :=
  rules.findSome? fun rule => (rule.found? given).map (rule.verdict given)

/-- The verdict on a name in which no rule is found. -/
def unruled (given : Text) : Verdict :=
  if (Pattern.read? shapeSource false).any fun shape => (shape.matchStart given).isSome then
    { given, warning := some unknownWarning }
  else { given }

/-- The verdict on a name. -/
def ruling (rules : List MappingRule) (given : Text) : Verdict :=
  (ruled? rules given).getD (unruled given)

section Rules

variable {rules late : List MappingRule} {given : Text} {verdict : Verdict}

theorem ruled?_eq_some_iff :
    ruled? rules given = some verdict ↔ ∃ rule, Decides rules given rule verdict := by
  simp only [ruled?, Decides, List.findSome?_eq_some_iff, Option.map_eq_some_iff,
    Option.map_eq_none_iff]
  constructor
  · rintro ⟨before, rule, after, hrules, ⟨found, hfound, rfl⟩, hbefore⟩
    exact ⟨rule, before, after, found, hrules, hbefore, hfound, rfl⟩
  · rintro ⟨rule, before, after, found, hrules, hbefore, hfound, rfl⟩
    exact ⟨before, rule, after, hrules, ⟨found, hfound, rfl⟩, hbefore⟩

theorem isSome_ruled?_iff :
    (ruled? rules given).isSome ↔ ∃ rule ∈ rules, (rule.found? given).isSome := by
  simp [ruled?, List.isSome_findSome?]

theorem ruled?_append_of_isSome (hruled : (ruled? rules given).isSome) (late : List MappingRule) :
    ruled? (rules ++ late) given = ruled? rules given := by
  obtain ⟨verdict, hverdict⟩ := Option.isSome_iff_exists.mp hruled
  rw [ruled?, List.findSome?_append, ← ruled?, hverdict, Option.some_or]

theorem ruling_of_ruled? (hruled : ruled? rules given = some verdict) :
    ruling rules given = verdict := by
  rw [ruling, hruled, Option.getD_some]

/-- A verdict is that of a rule, or one on a name in which no rule is found. Such a name is kept,
and at most warned of. -/
theorem ruling_cases (rules : List MappingRule) (given : Text) :
    (∃ rule, Decides rules given rule (ruling rules given)) ∨
      ∃ warning ∈ [none, some unknownWarning], ruling rules given = { given, warning } := by
  cases hruled : ruled? rules given with
  | some verdict =>
      rw [ruling_of_ruled? hruled]
      exact .inl (ruled?_eq_some_iff.mp hruled)
  | none =>
      rw [ruling, hruled, Option.getD_none, unruled]
      split
      · exact .inr ⟨_, List.mem_cons_of_mem _ List.mem_cons_self, rfl⟩
      · exact .inr ⟨_, List.mem_cons_self, rfl⟩

end Rules

/-! ## The verdict after every history -/

/-- Every pattern of the mapping can be read, and no two of them share a key. -/
theorem lookups_readable_nodup :
    lookups.all (·.pattern?.isSome) = true ∧ (lookups.map Lookup.key).Nodup := by
  unfold lookups defaultRules boxRules surfaceRules effectRules placeRules changeRules keep
    shapeLookup shapeKey shapeSource categories
  -- Literals are written out first; to decode them again and again is slow.
  repeat rw [String.toList_ofList]
  decide +kernel

theorem foldsCase_zero : foldsCase 0 = false := by decide

theorem own_of_mem {lookup : Lookup} (hmem : lookup ∈ lookups) :
    ∃ pattern, lookup.pattern? = some pattern ∧ lookup.own = .ok pattern := by
  obtain ⟨pattern, hpattern⟩ :=
    Option.isSome_iff_exists.mp (List.all_eq_true.mp lookups_readable_nodup.1 lookup hmem)
  exact ⟨pattern, hpattern, by rw [Lookup.own, hpattern]⟩

end Migration

namespace Engine

open Migration

variable (engine : Engine)

/-- Each lookup of the mapping owns its key. -/
theorem owned_mapping {lookup : Lookup} (hmem : lookup ∈ Migration.lookups) :
    owned engine.lookups lookup.key = lookup.own := by
  obtain ⟨before, after, hsplit⟩ := List.append_of_mem hmem
  have hnodup := lookups_readable_nodup.2
  rw [hsplit] at hnodup
  rw [engine.lookups_eq, hsplit, ← List.append_assoc]
  apply owned_of_first
  intro earlier hearlier
  rcases List.mem_append.mp hearlier with hother | hbefore
  · exact engine.key_ne_of_mem_migration hother hmem
  · exact ne_of_nodup_map hnodup earlier hbefore

theorem settles_ruled? (given : Text) :
    Settles (PatternCache.Faithful engine.lookups)
      (sweep ruleLookup (ruleVerdict given) defaultRules.zipIdx)
      (.ok (ruled? defaultRules given)) := by
  have hmem {item : MappingRule × Nat} (hitem : item ∈ defaultRules.zipIdx) :
      ruleLookup item ∈ Migration.lookups :=
    List.mem_append_left _ (List.mem_map_of_mem hitem)
  have hanswer : ∀ item ∈ defaultRules.zipIdx,
      ((ruleLookup item).own >>= ruleVerdict given item) =
        .ok ((item.1.found? given).map (item.1.verdict given)) := by
    intro item hitem
    obtain ⟨pattern, hpattern, hown⟩ := own_of_mem (hmem hitem)
    have hread : Pattern.read? item.1.pattern (foldsCase 0) = some pattern := hpattern
    rw [foldsCase_zero] at hread
    rw [hown, ok_bind, ruleVerdict, MappingRule.found?, hread, Option.bind_some]
  have hzip : defaultRules.zipIdx.findSome?
      (fun item => (item.1.found? given).map (item.1.verdict given)) =
        ruled? defaultRules given := by
    rw [ruled?]
    conv_rhs => rw [← List.zipIdx_map_fst 0 defaultRules, List.findSome?_map]
    rfl
  have hsettles := engine.settles_ruleSweep given
  rwa [sweepOwned_eq_firstAnswer _ fun item hitem => engine.owned_mapping (hmem hitem),
    firstAnswer_eq_findSome? hanswer, hzip] at hsettles

theorem settles_unruled (given : Text) :
    Settles (PatternCache.Faithful engine.lookups) (unknownVerdict given)
      (.ok (unruled given)) := by
  have hmem : shapeLookup ∈ Migration.lookups := List.mem_append_right _ List.mem_cons_self
  obtain ⟨pattern, hpattern, hown⟩ := own_of_mem hmem
  have hread : Pattern.read? shapeSource (foldsCase 0) = some pattern := hpattern
  rw [foldsCase_zero] at hread
  have hsettles := engine.settles_shape
  rw [engine.owned_mapping hmem, hown] at hsettles
  refine hsettles.bind_ok ?_
  rw [unruled, hread, Option.any_some]
  split
  · exact Settles.pure _
  · exact Settles.pure _

theorem settles_mapClass (given : Text) :
    Settles (PatternCache.Faithful engine.lookups) (mapClass defaultRules given [])
      (.ok (ruling defaultRules given)) := by
  change Settles _ (firstVerdict given 0 defaultRules) _
  rw [firstVerdict_eq_sweep]
  refine (engine.settles_ruled? given).bind_ok ?_
  rw [ruling]
  cases ruled? defaultRules given with
  | some verdict => exact Settles.pure verdict
  | none => exact engine.settles_unruled given

theorem settles_mapClasses (names : List Text) :
    Settles (PatternCache.Faithful engine.lookups) (mapClasses defaultRules [] names)
      (.ok (names.map (ruling defaultRules))) := by
  induction names with
  | nil => exact Settles.pure []
  | cons given rest ih =>
      exact (engine.settles_mapClass given).bind_ok (ih.bind_ok (Settles.pure _))

/-- A name gets one verdict after every history. -/
theorem mapClass_after (history : List Call) (given : Text) :
    (engine.perform (.mapClass given []) (engine.after history)).1 =
      .ok (ruling defaultRules given) :=
  (engine.settles_lift (engine.settles_mapClass given) _ (engine.faithful_after history)).1

/-- Names get one report after every history. -/
theorem analyze_after (history : List Call) (names : List Text) :
    (engine.perform (.analyze names) (engine.after history)).1 =
      .ok (Report.ofVerdicts (names.map (ruling defaultRules))) := by
  have hsettles : Settles (PatternCache.Faithful engine.lookups) (analyze defaultRules names)
      (.ok (Report.ofVerdicts (names.map (ruling defaultRules)))) :=
    (engine.settles_mapClasses names).bind_ok (Settles.pure _)
  exact (engine.settles_lift hsettles _ (engine.faithful_after history)).1

end Engine

end UtilityCss
