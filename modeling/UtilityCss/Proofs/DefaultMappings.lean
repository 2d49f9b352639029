import UtilityCss.Proofs.MappingVerdicts

/-!
# What the default mapping rules decide

The first default rules, for boxes and surfaces, keep every name they know. They know the names
that begin with the leads of two later rules, so these never decide, and the warning of one of
them is never given. They also know every border, which is what a dividing line is mapped to. As
the other rules that map a name are for several names at once, mapping a name without blanks comes
to an end after one step.
-/

namespace UtilityCss

namespace Migration

/-- A name carries over: it works as it stands, and there is nothing else to be said of it. -/
structure Verdict.CarriesOver (verdict : Verdict) : Prop where
  compatible : verdict.compatible = true
  current : verdict.deprecated = false
  unmapped : verdict.mapped = none
  unreplaced : verdict.replacement = none
  unwarned : verdict.warning = none

namespace MappingRule

/-! ## What the shape of a rule tells -/

/-- The rule keeps the names it knows, and has nothing to say about them. -/
def keeps (rule : MappingRule) : Bool :=
  rule.compatible && !rule.deprecated && rule.warning.isNone &&
    match rule.replacement with
    | .template text => text == sameTemplate
    | .computed _ => false

theorem carriesOver_of_keeps {rule : MappingRule} (hkeeps : rule.keeps = true) (given : Text)
    (found : Match) : (rule.verdict given found).CarriesOver := by
  simp only [keeps, Bool.and_eq_true, Bool.not_eq_true', Option.isNone_iff_eq_none] at hkeeps
  obtain ⟨⟨⟨hcompatible, hcurrent⟩, hwarning⟩, hsame⟩ := hkeeps
  have hmapped : rule.mapped? found = none := by
    unfold mapped?
    cases hreplacement : rule.replacement with
    | template text =>
        rw [hreplacement] at hsame
        exact if_pos (eq_of_beq hsame)
    | computed compute =>
        rw [hreplacement] at hsame
        cases hsame
  constructor <;> simp [verdict, hcompatible, hcurrent, hwarning, hmapped]

/-- The leads behind which the rule takes the rest of a line, and the group for it. -/
def leads? (rule : MappingRule) : Option (Nat × List (Text × List (Nat × Text))) :=
  (Pattern.read? rule.pattern false).bind Pattern.leads?

/-- The texts that the rule is for, if these are a few. -/
def texts? (rule : MappingRule) : Option (List (Text × List (Nat × Text))) :=
  (Pattern.read? rule.pattern false).bind Pattern.texts?

/-- The rule takes the rest of a line behind a lead. -/
def hasLead (rule : MappingRule) (lead : Text) : Bool :=
  rule.leads?.any fun line => line.2.any (·.1 == lead)

variable {rule : MappingRule} {given : Text}

theorem isSome_found?_iff_leads {index : Nat} {leads : List (Text × List (Nat × Text))}
    (hleads : rule.leads? = some (index, leads)) :
    (rule.found? given).isSome ↔ ∃ lead ∈ leads, ∃ key ending : Text, key ≠ [] ∧ '\n' ∉ key ∧
      ending.IsEnding ∧ given = lead.1 ++ (key ++ ending) := by
  obtain ⟨pattern, hpattern, hleads⟩ := Option.bind_eq_some_iff.mp hleads
  rw [found?, hpattern, Option.bind_some]
  exact Pattern.isSome_search_iff_leads hleads

theorem isSome_found?_iff_texts {texts : List (Text × List (Nat × Text))}
    (htexts : rule.texts? = some texts) :
    (rule.found? given).isSome ↔
      ∃ text ∈ texts, ∃ ending : Text, ending.IsEnding ∧ given = text.1 ++ ending := by
  obtain ⟨pattern, hpattern, htexts⟩ := Option.bind_eq_some_iff.mp htexts
  rw [found?, hpattern, Option.bind_some]
  exact Pattern.isSome_search_iff_texts htexts

theorem isSome_found?_of_hasLead {lead : Text} (hlead : rule.hasLead lead = true) {key : Text}
    (hne : key ≠ []) (hline : '\n' ∉ key) {ending : Text} (hending : ending.IsEnding) :
    (rule.found? (lead ++ (key ++ ending))).isSome := by
  obtain ⟨⟨index, leads⟩, hleads, hany⟩ := (Option.any_eq_true _ _).mp hlead
  obtain ⟨reading, hreading, hsame⟩ := List.any_eq_true.mp hany
  obtain rfl : reading.1 = lead := eq_of_beq hsame
  exact (isSome_found?_iff_leads hleads).mpr ⟨reading, hreading, key, ending, hne, hline, hending, rfl⟩

end MappingRule

/-! ## The rules that come first -/

/-- The rules for boxes and surfaces, which come first. -/
def earlyRules : List MappingRule := boxRules ++ surfaceRules

def lateRules : List MappingRule := effectRules ++ placeRules ++ changeRules

theorem defaultRules_eq : defaultRules = earlyRules ++ lateRules := by
  simp [defaultRules, earlyRules, lateRules]

/-- All rules but those for names that change. -/
def keepingRules : List MappingRule := earlyRules ++ effectRules ++ placeRules

/-- The names of two rules that never decide. -/
def shadowedNames : List Text := ["ring-offset", "mx-auto"]

theorem keeps_keepingRules : keepingRules.all MappingRule.keeps = true := rfl

/-- The first rules are not shadowed and know some leads, and what the two shadowed rules are for. -/
theorem defaultRules_shapes :
    earlyRules.all (·.name ∉ shadowedNames) = true ∧
      earlyRules.any (fun rule => rule.name == "spacing" && rule.hasLead "mx-") = true ∧
      earlyRules.any (fun rule => rule.name == "colors" && rule.hasLead "ring-" &&
        rule.hasLead "border-") = true ∧
      defaultRules.all (fun rule => rule.name != "ring-offset" ||
        rule.leads? == some (1, [(("ring-offset-" : Text), [])])) = true ∧
      defaultRules.all (fun rule => rule.name != "mx-auto" ||
        rule.texts? == some [(("mx-auto" : Text), [(1, ("mx-auto" : Text))])]) = true := by
  unfold defaultRules earlyRules boxRules surfaceRules effectRules placeRules changeRules keep
    shadowedNames
  repeat rw [String.toList_ofList]
  decide +kernel

section

variable {given key ending : Text}

/-- A name that one of the first rules knows carries over. -/
theorem carriesOver_of_early (hearly : (ruled? earlyRules given).isSome) :
    (ruling defaultRules given).CarriesOver := by
  obtain ⟨verdict, hverdict⟩ := Option.isSome_iff_exists.mp hearly
  have hruled : ruled? defaultRules given = some verdict := by
    rw [defaultRules_eq, ruled?_append_of_isSome hearly, hverdict]
  obtain ⟨rule, before, after, found, hrules, -, -, rfl⟩ := ruled?_eq_some_iff.mp hverdict
  have hmem : rule ∈ keepingRules := by
    simp [keepingRules, hrules]
  rw [ruling_of_ruled? hruled]
  exact MappingRule.carriesOver_of_keeps (List.all_eq_true.mp keeps_keepingRules rule hmem) _ _

theorem early_of_spacing (hne : key ≠ []) (hline : '\n' ∉ key) (hending : ending.IsEnding) :
    (ruled? earlyRules ("mx-" ++ (key ++ ending))).isSome := by
  obtain ⟨rule, hmem, hrule⟩ := List.any_eq_true.mp defaultRules_shapes.2.1
  have hlead := (Bool.and_eq_true_iff.mp hrule).2
  exact isSome_ruled?_iff.mpr
    ⟨rule, hmem, MappingRule.isSome_found?_of_hasLead hlead hne hline hending⟩

theorem early_of_colors {lead : Text} (hlead : lead = "ring-" ∨ lead = "border-") (hne : key ≠ [])
    (hline : '\n' ∉ key) (hending : ending.IsEnding) :
    (ruled? earlyRules (lead ++ (key ++ ending))).isSome := by
  obtain ⟨rule, hmem, hrule⟩ := List.any_eq_true.mp defaultRules_shapes.2.2.1
  simp only [Bool.and_eq_true] at hrule
  have hlead : rule.hasLead lead = true := by
    rcases hlead with rfl | rfl
    · exact hrule.1.2
    · exact hrule.2
  exact isSome_ruled?_iff.mpr
    ⟨rule, hmem, MappingRule.isSome_found?_of_hasLead hlead hne hline hending⟩

/-! ## Shadowed rules -/

/-- Where a shadowed rule is found, one of the first rules is found. -/
theorem early_of_shadowed {rule : MappingRule} (hmem : rule ∈ defaultRules)
    (hname : rule.name ∈ shadowedNames) (hfound : (rule.found? given).isSome) :
    (ruled? earlyRules given).isSome := by
  obtain ⟨-, -, -, hring, hauto⟩ := defaultRules_shapes
  rcases List.mem_pair.mp hname with hname | hname
  · have hshape := List.all_eq_true.mp hring rule hmem
    rw [hname, bne_self_eq_false, Bool.false_or] at hshape
    obtain ⟨lead, hlead, key, ending, -, hline, hending, rfl⟩ :=
      (MappingRule.isSome_found?_iff_leads (eq_of_beq hshape)).mp hfound
    obtain rfl := List.mem_singleton.mp hlead
    -- To the rule for colours, the lead is a shorter one and a part of the key.
    refine @early_of_colors ("offset-" ++ key) ending _ (.inl rfl) (by simp) ?_ hending
    simpa using hline
  · have hshape := List.all_eq_true.mp hauto rule hmem
    rw [hname, bne_self_eq_false, Bool.false_or] at hshape
    obtain ⟨text, htext, ending, hending, rfl⟩ :=
      (MappingRule.isSome_found?_iff_texts (eq_of_beq hshape)).mp hfound
    obtain rfl := List.mem_singleton.mp htext
    exact @early_of_spacing "auto" ending (by simp) (by simp) hending

/-- The first rules stand before a shadowed one. -/
theorem early_before_shadowed {before after : List MappingRule} {rule : MappingRule}
    (hrules : defaultRules = before ++ rule :: after) (hname : rule.name ∈ shadowedNames) :
    ∃ more, before = earlyRules ++ more := by
  have hapart : rule ∉ earlyRules := by
    intro hmem
    exact of_decide_eq_true (List.all_eq_true.mp defaultRules_shapes.1 rule hmem) hname
  rw [defaultRules_eq] at hrules
  rcases List.append_eq_append_iff.mp hrules with ⟨more, hbefore, -⟩ | ⟨more, hearly, hlate⟩
  · exact ⟨more, hbefore⟩
  · cases more with
    | nil => exact ⟨[], by simpa using hearly.symm⟩
    | cons first others =>
        obtain ⟨rfl, -⟩ := List.cons.inj hlate
        exact absurd (by simp [hearly]) hapart

theorem not_shadowed_of_decides {rule : MappingRule} {verdict : Verdict}
    (hdecides : Decides defaultRules given rule verdict) : rule.name ∉ shadowedNames := by
  obtain ⟨before, after, found, hrules, hbefore, hfound, -⟩ := hdecides
  intro hname
  have hearly := early_of_shadowed (by simp [hrules]) hname (Option.isSome_of_mem hfound)
  obtain ⟨more, rfl⟩ := early_before_shadowed hrules hname
  obtain ⟨other, hother, hsome⟩ := isSome_ruled?_iff.mp hearly
  rw [hbefore other (List.mem_append_left more hother)] at hsome
  cases hsome

end

/-- The warning of the rule for the offset of rings. -/
def offsetWarning : Text := "Consider using outline utilities for better accessibility"

theorem offsetWarning_shapes :
    defaultRules.all (fun rule => rule.warning != some offsetWarning ||
      rule.name == "ring-offset") = true ∧ unknownWarning ≠ offsetWarning := by
  unfold defaultRules boxRules surfaceRules effectRules placeRules changeRules keep unknownWarning
    offsetWarning
  repeat rw [String.toList_ofList]
  decide +kernel

theorem warning_ne_offsetWarning (given : Text) :
    (ruling defaultRules given).warning ≠ some offsetWarning := by
  rcases ruling_cases defaultRules given with ⟨rule, hdecides⟩ | ⟨warning, hwarning, hkept⟩
  · intro hwarning
    apply not_shadowed_of_decides hdecides
    obtain ⟨before, after, found, hrules, -, -, hverdict⟩ := hdecides
    rw [hverdict] at hwarning
    have hshape := List.all_eq_true.mp offsetWarning_shapes.1 rule (by simp [hrules])
    have hrule : rule.warning = some offsetWarning := hwarning
    rw [hrule, bne_self_eq_false, Bool.false_or] at hshape
    rw [eq_of_beq hshape]
    exact List.mem_cons_self
  · rw [hkept]
    rcases List.mem_pair.mp hwarning with rfl | rfl
    · simp
    · simpa using offsetWarning_shapes.2

/-- After every history, a name gets its verdict from the first rule that is found in it, if there
is one. That is never the rule for the offset of rings nor the one for centred boxes: where one of
them is found, a rule before it decides, and the name carries over. So no report has the warning of
the rule for the offset of rings. -/
theorem shadowed_never_decide (engine : Engine) (history : List Call) :
    (∀ given : Text, ∃ verdict,
      (engine.perform (.mapClass given []) (engine.after history)).1 = .ok verdict ∧
      ((∃ rule, Decides defaultRules given rule verdict) ∨
        ∀ rule ∈ defaultRules, rule.found? given = none) ∧
      (∀ rule, Decides defaultRules given rule verdict → rule.name ∉ shadowedNames) ∧
      ∀ before rule after, defaultRules = before ++ rule :: after → rule.name ∈ shadowedNames →
        (rule.found? given).isSome →
          (∃ earlier, Decides before given earlier verdict) ∧ verdict.CarriesOver) ∧
    ∀ names : List Text, ∃ report,
      (engine.perform (.analyze names) (engine.after history)).1 = .ok report ∧
      ∀ verdict ∈ report.incompatible ++ report.deprecated ++ report.warnings,
        verdict.warning ≠ some offsetWarning := by
  constructor
  · intro given
    refine ⟨_, engine.mapClass_after history given, ?_, fun _ => not_shadowed_of_decides, ?_⟩
    · cases hruled : ruled? defaultRules given with
      | some verdict =>
          rw [ruling_of_ruled? hruled]
          exact .inl (ruled?_eq_some_iff.mp hruled)
      | none =>
          refine .inr fun rule hmem => ?_
          simpa using List.findSome?_eq_none_iff.mp hruled rule hmem
    · intro before rule after hrules hname hfound
      have hearly := early_of_shadowed (by simp [hrules]) hname hfound
      refine ⟨?_, carriesOver_of_early hearly⟩
      obtain ⟨more, rfl⟩ := early_before_shadowed hrules hname
      obtain ⟨verdict, hverdict⟩ := Option.isSome_iff_exists.mp hearly
      -- The verdict of the first rules is that of all rules, and of all before this one.
      have hbefore : ruled? (earlyRules ++ more) given = some verdict := by
        rw [ruled?_append_of_isSome hearly, hverdict]
      have hall : ruled? defaultRules given = some verdict := by
        rw [defaultRules_eq, ruled?_append_of_isSome hearly, hverdict]
      rw [ruling_of_ruled? hall]
      exact ruled?_eq_some_iff.mp hbefore
  · intro names
    refine ⟨_, engine.analyze_after history names, ?_⟩
    intro verdict hverdict
    obtain ⟨given, -, rfl⟩ : ∃ given ∈ names, ruling defaultRules given = verdict := by
      apply List.mem_map.mp
      simp only [Report.ofVerdicts, List.mem_append, List.mem_filter] at hverdict
      tauto
    exact warning_ne_offsetWarning given

/-- An engine without rules of its own. -/
def bareEngine : Engine where
  registry := {}

/-- The rule for the offset of rings is found in a name that ends with a newline, and the name
carries over nevertheless. -/
theorem shadowed_never_decide_newline : ∃ before rule after,
    defaultRules = before ++ rule :: after ∧ rule.name = ("ring-offset" : Text) ∧
      (rule.found? "ring-offset-2\n").isSome ∧
      ∃ verdict, (bareEngine.perform (.mapClass "ring-offset-2\n" []) (bareEngine.after [])).1 =
          .ok verdict ∧
        (∃ earlier, Decides before "ring-offset-2\n" earlier verdict) ∧ verdict.CarriesOver := by
  obtain ⟨verdict, hverdict, -, -, hshadowed⟩ :=
    (shadowed_never_decide bareEngine []).1 "ring-offset-2\n"
  refine ⟨keepingRules ++ [_, _], _, [_, _], rfl, rfl, rfl, verdict, hverdict, ?_⟩
  exact hshadowed _ _ _ rfl List.mem_cons_self rfl

/-! ## Names that change -/

section

variable {given mapped : Text} {found : Match}

/-- The first name is one of a dividing line, and the second one the border in its place. -/
def Divided (given mapped : Text) : Prop :=
  ∃ style ending : Text, style ≠ [] ∧ '\n' ∉ style ∧ ending.IsEnding ∧
    given = "divide-" ++ (style ++ ending) ∧ mapped = "border-" ++ (style ++ ending)

theorem divided_of_width
    (hfound : (Pattern.read? "^divide-(x|y)-(.+)$" false).bind (·.search given) = some found) :
    Divided given (found.before ++ Template.fill found "border-$1-$2" ++ found.after) := by
  obtain ⟨pattern, hpattern, hsearch⟩ := Option.bind_eq_some_iff.mp hfound
  have hshape : pattern.leads? = some (2, [['x'], ['y']].map fun axis : Text =>
      ("divide-" ++ axis ++ "-", [(1, axis)])) ∧ pattern.groupCount = 2 := by
    obtain rfl := Option.some.inj hpattern
    exact ⟨rfl, rfl⟩
  obtain ⟨lead, hlead, key, ending, -, hline, hending, rfl, hbefore, hafter, hcaptures, hcount⟩ :=
    Pattern.match_of_leads? hshape.1 hsearch
  obtain ⟨axis, haxis, rfl⟩ := List.mem_map.mp hlead
  have hfill : Template.fill found "border-$1-$2" =
      "border-" ++ (Template.groupText found '1' ++ '-' :: (Template.groupText found '2' ++ [])) := by
    rfl
  have hfirst : Template.groupText found '1' = axis := by
    simp [Template.groupText, Match.group?, hcount, hshape.2, hcaptures, List.lookup_cons]
  have hsecond : Template.groupText found '2' = key := by
    simp [Template.groupText, Match.group?, hcount, hshape.2, hcaptures]
  refine ⟨axis ++ '-' :: key, ending, by simp, ?_, hending, by simp, ?_⟩
  · rcases List.mem_pair.mp haxis with rfl | rfl <;> simpa using hline
  · rw [hbefore, hafter, hfill, hfirst, hsecond]
    simp

/-- The styles of dividing lines. -/
def dividingStyles : List Text := ["solid", "dashed", "dotted", "double", "none"]

theorem divided_of_style
    (hfound : (Pattern.read? "^divide-(solid|dashed|dotted|double|none)$" false).bind
      (·.search given) = some found) :
    Divided given (found.before ++ Template.fill found "border-$1" ++ found.after) := by
  obtain ⟨pattern, hpattern, hsearch⟩ := Option.bind_eq_some_iff.mp hfound
  have hshape : pattern.texts? = some (dividingStyles.map fun style : Text =>
      ("divide-" ++ style, [(1, style)])) ∧ pattern.groupCount = 1 := by
    obtain rfl := Option.some.inj hpattern
    exact ⟨rfl, rfl⟩
  obtain ⟨text, htext, ending, hending, rfl, hbefore, hafter, hcaptures, hcount⟩ :=
    Pattern.match_of_texts? hshape.1 hsearch
  obtain ⟨style, hstyle, rfl⟩ := List.mem_map.mp htext
  have hfill : Template.fill found "border-$1" =
      ("border-" : Text) ++ (Template.groupText found '1' ++ []) := by
    rfl
  have hfirst : Template.groupText found '1' = style := by
    simp [Template.groupText, Match.group?, hcount, hshape.2, hcaptures]
  have hplain : dividingStyles.all (fun style => style ≠ [] ∧ '\n' ∉ style) = true := by decide
  obtain ⟨hne, hline⟩ := of_decide_eq_true (List.all_eq_true.mp hplain style hstyle)
  refine ⟨style, ending, hne, hline, hending, by simp, ?_⟩
  rw [hbefore, hafter, hfill, hfirst]
  simp

theorem eq_of_mapped?_template {rule : MappingRule} {text : Text}
    (hreplacement : rule.replacement = .template text) (hmapped : rule.mapped? found = some mapped) :
    mapped = found.before ++ Template.fill found text ++ found.after := by
  simp only [MappingRule.mapped?, hreplacement] at hmapped
  split at hmapped
  · cases hmapped
  · exact (Option.some.inj hmapped).symm

/-- Of the names without blanks, only dividing lines are mapped. -/
theorem divided_of_mapped (hgiven : ∀ c ∈ given, Text.isBlank c = false)
    (hmapped : (ruling defaultRules given).mapped = some mapped) : Divided given mapped := by
  rcases ruling_cases defaultRules given with ⟨rule, hdecides⟩ | ⟨warning, -, hkept⟩
  · have hname := not_shadowed_of_decides hdecides
    obtain ⟨before, after, found, hrules, -, hfound, hverdict⟩ := hdecides
    rw [hverdict] at hmapped
    have hrule : rule.mapped? found = some mapped := (Option.filter_eq_some_iff.mp hmapped).1
    have hblankFree {pattern : Pattern} (hsearch : pattern.search given = some found)
        (hblank : pattern.root.readsBlank = true) (hfold : pattern.foldCase = false) : False := by
      obtain ⟨c, hc, hholds⟩ := Pattern.exists_blank_of_search hblank hfold hsearch
      rw [hgiven c hc] at hholds
      cases hholds
    have hmem : rule ∈ keepingRules ++ changeRules := by
      have hall : keepingRules ++ changeRules = defaultRules := rfl
      simp [hall, hrules]
    rcases List.mem_append.mp hmem with hkeeping | hchange
    · have hkeeps := List.all_eq_true.mp keeps_keepingRules rule hkeeping
      rw [(MappingRule.carriesOver_of_keeps hkeeps given found).unmapped] at hmapped
      cases hmapped
    · simp only [changeRules, List.mem_cons, List.not_mem_nil, or_false] at hchange
      rcases hchange with rfl | rfl | rfl | rfl | rfl
      · rw [eq_of_mapped?_template rfl hrule]
        exact divided_of_width hfound
      · rw [eq_of_mapped?_template rfl hrule]
        exact divided_of_style hfound
      · exact absurd List.mem_cons_self hname
      · -- The directive and the group for several names are only found around a blank.
        obtain ⟨pattern, hpattern, hsearch⟩ := Option.bind_eq_some_iff.mp hfound
        obtain rfl := Option.some.inj hpattern
        exact (hblankFree hsearch rfl rfl).elim
      · obtain ⟨pattern, hpattern, hsearch⟩ := Option.bind_eq_some_iff.mp hfound
        obtain rfl := Option.some.inj hpattern
        exact (hblankFree hsearch rfl rfl).elim
  · rw [hkept] at hmapped
    cases hmapped

/-- What a dividing line is mapped to carries over. -/
theorem Divided.carriesOver (hdivided : Divided given mapped) :
    (ruling defaultRules mapped).CarriesOver := by
  obtain ⟨style, ending, hne, hline, hending, -, rfl⟩ := hdivided
  exact carriesOver_of_early (early_of_colors (.inr rfl) hne hline hending)

end

/-- A name without blanks gets a verdict after every history. If it is mapped to another name, then
that name, whenever it is asked for, carries over. -/
theorem mapped_carries_over (engine : Engine) (history later : List Call) {given : Text}
    (hgiven : ∀ c ∈ given, Text.isBlank c = false) :
    ∃ verdict, (engine.perform (.mapClass given []) (engine.after history)).1 = .ok verdict ∧
      ∀ mapped, verdict.mapped = some mapped →
        ∃ next, (engine.perform (.mapClass mapped []) (engine.after later)).1 = .ok next ∧
          next.CarriesOver := by
  refine ⟨_, engine.mapClass_after history given, ?_⟩
  intro mapped hmapped
  exact ⟨_, engine.mapClass_after later mapped, (divided_of_mapped hgiven hmapped).carriesOver⟩

theorem mapped_carries_over_dividing :
    (∀ c ∈ ("divide-x-[3px]" : Text), Text.isBlank c = false) ∧
      ∃ verdict, (bareEngine.perform (.mapClass "divide-x-[3px]" [])
          (bareEngine.after [.category "flex"])).1 = .ok verdict ∧
        verdict.mapped = some "border-x-[3px]" ∧
        ∃ next, (bareEngine.perform (.mapClass "border-x-[3px]" [])
            (bareEngine.after [.clear])).1 = .ok next ∧ next.CarriesOver := by
  have hgiven : ∀ c ∈ ("divide-x-[3px]" : Text), Text.isBlank c = false := by
    have hall : ("divide-x-[3px]" : Text).all (!Text.isBlank ·) = true := by decide
    simpa only [List.all_eq_true, Bool.not_eq_true'] using hall
  obtain ⟨verdict, hverdict, hnext⟩ :=
    mapped_carries_over bareEngine [.category "flex"] [.clear] hgiven
  have hmapped : (ruling defaultRules "divide-x-[3px]").mapped = some ("border-x-[3px]" : Text) := by
    unfold defaultRules boxRules surfaceRules effectRules placeRules changeRules keep
    repeat rw [String.toList_ofList]
    decide +kernel
  have hsame : ruling defaultRules "divide-x-[3px]" = verdict :=
    Except.ok.inj ((bareEngine.mapClass_after _ _).symm.trans hverdict)
  rw [hsame] at hmapped
  exact ⟨hgiven, verdict, hverdict, hmapped, hnext _ hmapped⟩

end Migration

end UtilityCss
