import UtilityCss.Proofs.CatalogComputations
import UtilityCss.Proofs.FirstAnswers
import UtilityCss.Proofs.LiteralPatterns
import UtilityCss.Proofs.SharedLookups

/-!
# Faults of class bodies

The utilities that take numbers have them behind some leads, and a body has a fault if it is
such a lead and a key with a fault. A rule of the catalogue either takes the numbers behind a
lead, and then fails with their faults, or does not match what begins with the lead and a
digit. So the catalogue fails on the bodies with a fault and on no others.
-/

namespace UtilityCss

namespace Catalog

def insetLeads : List Text := insetProperties.keys.map (· ++ ['-'])

def sizeLeads : List Text := sizeProperties.keys.map (· ++ ['-'])

/-- One use of numbers behind each of some leads. -/
def behind (use : NumberUse) (leads : List Text) : List (NumberUse × Text) := leads.map (use, ·)

/-- The leads of the utilities that take numbers, in the order of the rules. -/
def numberLeads : List (NumberUse × Text) :=
  behind .fraction insetLeads ++ behind .count ["grid-cols-", "grid-rows-"] ++
    behind .count ["col-span-", "row-span-"] ++ behind .fraction sizeLeads ++
    behind .count ["opacity-"] ++
    behind .fraction ["translate-", "translate-x-", "translate-y-"] ++
    behind .percentage ["scale-", "scale-x-", "scale-y-"]

/-- The fault of a body. -/
def bodyFault? (body : Text) : Option Error :=
  numberLeads.findSome? fun (use, lead) => (Text.afterLead? lead body).bind use.fault?

theorem exists_lead_of_bodyFault? {body : Text} {error : Error}
    (hfault : bodyFault? body = some error) :
    ∃ use lead key, (use, lead) ∈ numberLeads ∧ body = lead ++ key ∧
      use.fault? key = some error := by
  obtain ⟨⟨use, lead⟩, hmem, hlead⟩ := List.exists_of_findSome?_eq_some hfault
  obtain ⟨key, hkey, hfault⟩ := Option.bind_eq_some_iff.mp hlead
  rw [Text.afterLead?, List.isPrefixOf?_eq_some_iff_append_eq] at hkey
  exact ⟨use, lead, key, hmem, hkey.symm, hfault⟩

theorem bodyFault?_ne_none {use : NumberUse} {lead key : Text} {error : Error}
    (hmem : (use, lead) ∈ numberLeads) (hfault : use.fault? key = some error) :
    bodyFault? (lead ++ key) ≠ none := by
  intro hnone
  have hlead := List.findSome?_eq_none_iff.mp hnone (use, lead) hmem
  have hafter : Text.afterLead? lead (lead ++ key) = some key := by
    rw [Text.afterLead?, List.isPrefixOf?_eq_some_iff_append_eq]
  simp [hafter, hfault] at hlead

end Catalog

/-! ## One rule -/

theorem RulePattern.pattern?_lookup (key : Text) (pattern : RulePattern) :
    (pattern.lookup key).pattern? = (pattern.lookup []).pattern? := by
  cases pattern <;> rfl

namespace Rule

def pattern? (rule : Rule) : Option Pattern := (rule.pattern.lookup []).pattern?

/-- What a rule makes of a body with its own pattern. -/
def answer (theme : Theme) (body : Text) (rule : Rule) : Except Error (Option Properties) :=
  match rule.pattern? with
  | none => .error .invalidPattern
  | some pattern =>
      match pattern.matchWhole body with
      | none => .ok none
      | some found => rule.body.properties found theme

/-- The rule takes the numbers behind some leads. It fails with their faults and with nothing
else, hands a body with a fault on when something follows behind a slash, and leaves the other
leads to other rules. -/
structure Takes (theme : Theme) (rule : Rule) (own : List (NumberUse × Text)) : Prop where
  sound : ∀ {body error}, rule.answer theme body = .error error →
    ∃ use lead key, (use, lead) ∈ own ∧ body = lead ++ key ∧ use.fault? key = some error
  complete : ∀ {use lead}, (use, lead) ∈ own → ∀ {key error}, use.fault? key = some error →
    rule.answer theme (lead ++ key) = .error error
  declines : ∀ {use lead}, (use, lead) ∈ own → ∀ {key error}, use.fault? key = some error →
    ∀ modifier, rule.answer theme (lead ++ (key ++ '/' :: modifier)) = .ok none
  apart : ∀ {use lead}, (use, lead) ∈ Catalog.numberLeads → (use, lead) ∉ own →
    ∀ {c}, Text.isDigit c = true → ∀ rest, rule.answer theme (lead ++ c :: rest) = .ok none

variable {theme : Theme} {rule : Rule} {pattern : Pattern}

theorem answer_of_no_match (hpattern : rule.pattern? = some pattern) {body : Text}
    (hmatch : pattern.matchWhole body = none) : rule.answer theme body = .ok none := by
  simp only [answer, hpattern, hmatch]

theorem answer_of_match (hpattern : rule.pattern? = some pattern) {body : Text} {found : Match}
    (hmatch : pattern.matchWhole body = some found) :
    rule.answer theme body = rule.body.properties found theme := by
  simp only [answer, hpattern, hmatch]

/-- A rule that always succeeds takes no numbers. -/
theorem takes_nothing (hpattern : rule.pattern? = some pattern)
    (hsucceeds : ∀ {body found}, pattern.matchWhole body = some found →
      ∃ properties, rule.body.properties found theme = .ok properties)
    (hapart : ∀ {use lead}, (use, lead) ∈ Catalog.numberLeads → ∀ {c}, Text.isDigit c = true →
      ∀ rest, pattern.matchWhole (lead ++ c :: rest) = none) : rule.Takes theme [] where
  sound {body error} herror := by
    cases hmatch : pattern.matchWhole body with
    | none =>
        rw [answer_of_no_match hpattern hmatch] at herror
        cases herror
    | some found =>
        obtain ⟨properties, hproperties⟩ := hsucceeds hmatch
        rw [answer_of_match hpattern hmatch, hproperties] at herror
        cases herror
  complete hmem := by cases hmem
  declines hmem := by cases hmem
  apart hmem _ _ hc rest := answer_of_no_match hpattern (hapart hmem hc rest)

/-! ### Rules for one text -/

def literal? (rule : Rule) : Option Text :=
  match rule.pattern with
  | .literal text => some text
  | _ => none

def isComputed (rule : Rule) : Bool :=
  match rule.body with
  | .computed _ => true
  | _ => false

theorem pattern_of_literal? {text : Text} (htext : rule.literal? = some text) :
    rule.pattern = .literal text := by
  unfold literal? at htext
  split at htext
  · rename_i hpattern
    rw [hpattern, Option.some.inj htext]
  · cases htext

theorem properties_of_fixed (hfixed : rule.isComputed = false) (found : Match) :
    ∃ properties, rule.body.properties found theme = .ok properties := by
  unfold isComputed at hfixed
  cases hbody : rule.body with
  | computed compute => simp [hbody] at hfixed
  | fixed declarations => exact ⟨_, rfl⟩
  | nested properties => exact ⟨_, rfl⟩

theorem exists_pattern_of_literal? {text : Text} (htext : rule.literal? = some text) :
    ∃ pattern, rule.pattern? = some pattern ∧
      Pattern.read? (Pattern.escape text) false = some pattern := by
  obtain ⟨pattern, hread⟩ : ∃ pattern, Pattern.read? (Pattern.escape text) false = some pattern :=
    ⟨_, by rw [Pattern.read?, PatternReader.read?_escape]; rfl⟩
  have hfold : foldsCase 0 = false := by decide
  refine ⟨pattern, ?_, hread⟩
  rw [pattern?, pattern_of_literal? htext, ← hread, ← hfold]
  rfl

/-- A rule for one text passes over every other text. -/
theorem answer_of_other_text {text body : Text} (htext : rule.literal? = some text)
    (hother : body ≠ text) : rule.answer theme body = .ok none := by
  obtain ⟨pattern, hpattern, hread⟩ := exists_pattern_of_literal? htext
  apply answer_of_no_match hpattern
  rw [Option.eq_none_iff_forall_ne_some]
  intro found hmatch
  exact hother (Pattern.eq_of_matchWhole_escape hread hmatch)

/-- A rule for one text with fixed declarations gives them to that text. -/
theorem answer_of_own_text {text : Text} (htext : rule.literal? = some text)
    {declarations : Declarations} (hbody : rule.body = .fixed declarations) :
    rule.answer theme text = .ok (some (Properties.ofDeclarations declarations)) := by
  obtain ⟨pattern, hpattern, hread⟩ := exists_pattern_of_literal? htext
  obtain ⟨found, hmatch⟩ := Pattern.exists_matchWhole_escape hread
  rw [answer_of_match hpattern hmatch, hbody]
  rfl

/-- The rule is for one text, which is no lead with a digit, and computes nothing. -/
def isFixedApart (rule : Rule) : Bool :=
  !rule.isComputed && rule.literal?.any fun text =>
    Catalog.numberLeads.all fun (_, lead) => diverges true text lead

theorem takes_of_isFixedApart (hrule : rule.isFixedApart = true) : rule.Takes theme [] := by
  rw [isFixedApart, Bool.and_eq_true, Bool.not_eq_true', Option.any_eq_true] at hrule
  obtain ⟨hfixed, text, htext, hleads⟩ := hrule
  obtain ⟨pattern, hpattern, hread⟩ := exists_pattern_of_literal? htext
  apply takes_nothing hpattern
  · intro body found _
    exact properties_of_fixed hfixed found
  · intro use lead hmem c hc rest
    rw [Option.eq_none_iff_forall_ne_some]
    intro found hmatch
    have hdiverges := List.all_eq_true.mp hleads (use, lead) hmem
    exact ne_of_diverges hdiverges hc rest (Pattern.eq_of_matchWhole_escape hread hmatch).symm

/-! ### Computed rules -/

/-- The pattern of the rule provides some groups, and matches no lead but its own. -/
def suits (rule : Rule) (texts names : List Text) (own : List (NumberUse × Text)) : Bool :=
  rule.pattern?.any fun pattern =>
    !pattern.foldCase && texts.all pattern.offers && names.all pattern.knows &&
      Catalog.numberLeads.all fun entry => own.contains entry || pattern.root.avoids entry.2

structure Suits (pattern : Pattern) (texts names : List Text) (own : List (NumberUse × Text)) :
    Prop where
  provides : ∀ {body found}, pattern.matchWhole body = some found → found.Provides texts names
  apart : ∀ {use lead}, (use, lead) ∈ Catalog.numberLeads → (use, lead) ∉ own →
    ∀ {c}, Text.isDigit c = true → ∀ rest, pattern.matchWhole (lead ++ c :: rest) = none

theorem exists_pattern_of_suits {texts names : List Text} {own : List (NumberUse × Text)}
    (hrule : rule.suits texts names own = true) :
    ∃ pattern, rule.pattern? = some pattern ∧ Suits pattern texts names own := by
  obtain ⟨pattern, hpattern, hshape⟩ := (Option.any_eq_true _ _).mp hrule
  simp only [Bool.and_eq_true, Bool.not_eq_true', List.all_eq_true, Bool.or_eq_true,
    List.contains_iff_mem] at hshape
  obtain ⟨⟨⟨hfold, htexts⟩, hnames⟩, hleads⟩ := hshape
  refine ⟨pattern, hpattern, ⟨?_, ?_⟩⟩
  · intro body found hmatch
    exact Pattern.provides_of_matchWhole hmatch htexts hnames
  · intro use lead hmem hother c hc rest
    have havoids := (hleads (use, lead) hmem).resolve_left hother
    exact Pattern.matchWhole_of_avoids hfold havoids hc rest

theorem takes_of_succeeds {compute : Compute} (hbody : rule.body = .computed compute)
    {texts names : List Text} (hcompute : compute.Succeeds texts names)
    (hrule : rule.suits texts names [] = true) : rule.Takes theme [] := by
  obtain ⟨pattern, hpattern, hsuits⟩ := exists_pattern_of_suits hrule
  apply takes_nothing hpattern
  · intro body found hmatch
    rw [hbody]
    exact hcompute found theme (hsuits.provides hmatch)
  · intro use lead hmem c hc rest
    exact hsuits.apart hmem (by simp) hc rest

/-- The rule matches a lead and what follows it up to the end of the line. -/
def hasFront (rule : Rule) (leads : List Text) : Bool :=
  rule.pattern?.any fun pattern => (pattern.front? "value").any fun front =>
    front.words?.any (·.all leads.contains) &&
      leads.all fun lead => front.passes lead = some [] && !lead.contains '\n'

structure Fronts (pattern : Pattern) (leads : List Text) : Prop where
  splits : ∀ {body found}, pattern.matchWhole body = some found → ∃ lead ∈ leads, ∃ key,
    body = lead ++ key ∧ '\n' ∉ body ∧ '\n' ∉ key ∧ found.text "value" = .ok key
  joins : ∀ {lead}, lead ∈ leads → ∀ {c}, Text.isDigit c = true → ∀ {rest}, '\n' ∉ c :: rest →
    ∃ found, pattern.matchWhole (lead ++ c :: rest) = some found ∧
      found.text "value" = .ok (c :: rest)

theorem fronts_of_hasFront {leads : List Text} (hpattern : rule.pattern? = some pattern)
    (hrule : rule.hasFront leads = true) : Fronts pattern leads := by
  obtain ⟨other, hother, hvalue⟩ := (Option.any_eq_true _ _).mp hrule
  obtain rfl : pattern = other := Option.some.inj (hpattern.symm.trans hother)
  obtain ⟨front, hfront, hshape⟩ := (Option.any_eq_true _ _).mp hvalue
  simp only [Bool.and_eq_true, List.all_eq_true, Option.any_eq_true, decide_eq_true_eq,
    Bool.not_eq_true', List.contains_eq_mem, decide_eq_false_iff_not] at hshape
  obtain ⟨⟨words, hwords, hleads⟩, hpasses⟩ := hshape
  constructor
  · intro body found hmatch
    obtain ⟨lead, hlead, key, rfl, hline, hkey⟩ := Pattern.text_of_front? hfront hwords hmatch
    refine ⟨lead, hleads lead hlead, key, rfl, ?_, hline, hkey⟩
    simpa [hline] using (hpasses lead (hleads lead hlead)).2
  · intro lead hlead c hc rest hline
    exact Pattern.exists_match_of_front? hfront (hpasses lead hlead).1 hc hline

section Numbers

variable {compute : Compute} {texts names leads : List Text} {own : List (NumberUse × Text)}
  {use : NumberUse} (hpattern : rule.pattern? = some pattern)
  (hbody : rule.body = .computed compute) (hcompute : compute.TakesNumber texts names use)
  (hsuits : Suits pattern texts names own) (hfronts : Fronts pattern leads)

include hpattern hbody

theorem answer_of_computed {body : Text} {found : Match}
    (hmatch : pattern.matchWhole body = some found) :
    rule.answer theme body = compute found theme := by
  rw [answer_of_match hpattern hmatch, hbody]
  rfl

include hcompute hsuits hfronts

theorem exists_lead_of_error {body : Text} {error : Error}
    (herror : rule.answer theme body = .error error) :
    ∃ lead ∈ leads, ∃ key, body = lead ++ key ∧ use.fault? key = some error := by
  cases hmatch : pattern.matchWhole body with
  | none =>
      rw [answer_of_no_match hpattern hmatch] at herror
      cases herror
  | some found =>
      obtain ⟨lead, hlead, key, rfl, -, hline, hkey⟩ := hfronts.splits hmatch
      have hfault : fault? (compute found theme) = use.fault? key :=
        hcompute.fault (hsuits.provides hmatch) hkey hline
      rw [← answer_of_computed hpattern hbody hmatch, herror] at hfault
      exact ⟨lead, hlead, key, rfl, hfault.symm⟩

theorem answer_of_fault {lead : Text} (hlead : lead ∈ leads) {key : Text} {error : Error}
    (hfault : use.fault? key = some error) : rule.answer theme (lead ++ key) = .error error := by
  obtain ⟨c, rest, rfl, hc, hline⟩ := NumberUse.exists_digit hfault
  obtain ⟨found, hmatch, hkey⟩ := hfronts.joins hlead hc hline
  rw [answer_of_computed hpattern hbody hmatch]
  apply eq_error_of_fault?
  rw [hcompute.fault (hsuits.provides hmatch) hkey hline, hfault]

/-- What follows a number with a fault behind a slash is neither a number nor a key of the
theme. -/
theorem answer_behind (hspacing : theme.lacksSlashes "spacing" = true)
    (hwidth : theme.lacksSlashes "maxWidth" = true) {lead : Text} (hlead : lead ∈ leads)
    {key : Text} {error : Error} (hfault : use.fault? key = some error) (modifier : Text) :
    rule.answer theme (lead ++ (key ++ '/' :: modifier)) = .ok none := by
  obtain ⟨c, rest, rfl, hc, -⟩ := NumberUse.exists_digit hfault
  -- The group for the value ends with the line, so that nothing matches beyond a newline.
  by_cases hline : '\n' ∈ c :: (rest ++ '/' :: modifier)
  · cases hmatch : pattern.matchWhole (lead ++ (c :: rest ++ '/' :: modifier)) with
    | none => exact answer_of_no_match hpattern hmatch
    | some found =>
        obtain ⟨-, -, -, -, hbroken, -⟩ := hfronts.splits hmatch
        exact absurd (List.mem_append_right _ hline) hbroken
  · obtain ⟨found, hmatch, hkey⟩ := hfronts.joins hlead hc hline
    have hnumber := NumberUse.isNumber_append hfault modifier
    have hmisses : use.Misses theme (c :: (rest ++ '/' :: modifier)) :=
      ⟨hline, hc, by simp, hnumber, hspacing, hwidth⟩
    rw [List.cons_append, answer_of_computed hpattern hbody hmatch,
      hcompute.declines (hsuits.provides hmatch) hkey hmisses]

end Numbers

/-- A rule with such a front takes the numbers behind its leads if its computation does. -/
theorem takes_of_takesNumber {compute : Compute} (hbody : rule.body = .computed compute)
    {texts names : List Text} {use : NumberUse} (hcompute : compute.TakesNumber texts names use)
    {leads : List Text} (hrule : rule.suits texts names (Catalog.behind use leads) = true)
    (hfront : rule.hasFront leads = true) (hspacing : theme.lacksSlashes "spacing" = true)
    (hwidth : theme.lacksSlashes "maxWidth" = true) :
    rule.Takes theme (Catalog.behind use leads) := by
  obtain ⟨pattern, hpattern, hsuits⟩ := exists_pattern_of_suits hrule
  have hfronts := fronts_of_hasFront hpattern hfront
  have hleads {other lead} (hmem : (other, lead) ∈ Catalog.behind use leads) :
      other = use ∧ lead ∈ leads := by
    simpa [Catalog.behind, and_comm, eq_comm] using hmem
  refine ⟨?_, ?_, ?_, ?_⟩
  · intro body error herror
    obtain ⟨lead, hlead, key, rfl, hkey⟩ :=
      exists_lead_of_error hpattern hbody hcompute hsuits hfronts herror
    exact ⟨use, lead, key, List.mem_map_of_mem hlead, rfl, hkey⟩
  · intro other lead hmem key error hfault
    obtain ⟨rfl, hlead⟩ := hleads hmem
    exact answer_of_fault hpattern hbody hcompute hsuits hfronts hlead hfault
  · intro other lead hmem key error hfault
    obtain ⟨rfl, hlead⟩ := hleads hmem
    exact answer_behind hpattern hbody hcompute hsuits hfronts hspacing hwidth hlead hfault
  · intro other lead hmem hother c hc rest
    exact answer_of_no_match hpattern (hsuits.apart hmem hother hc rest)

end Rule

/-! ## Lists of rules -/

/-- Each rule takes the numbers behind some of the leads, and every lead is taken by one. -/
structure Fits (theme : Theme) (rules : List Rule) (taken : List (NumberUse × Text)) : Prop where
  each : ∀ rule ∈ rules, ∃ own, own ⊆ taken ∧ rule.Takes theme own
  all : ∀ entry ∈ taken, ∃ rule ∈ rules, ∃ own, entry ∈ own ∧ rule.Takes theme own

namespace Fits

variable {theme : Theme}

theorem append {first second : List Rule} {early late : List (NumberUse × Text)}
    (hfirst : Fits theme first early) (hsecond : Fits theme second late) :
    Fits theme (first ++ second) (early ++ late) := by
  constructor
  · intro rule hrule
    rcases List.mem_append.mp hrule with hmem | hmem
    · obtain ⟨own, hown, htakes⟩ := hfirst.each rule hmem
      exact ⟨own, List.subset_append_of_subset_left late hown, htakes⟩
    · obtain ⟨own, hown, htakes⟩ := hsecond.each rule hmem
      exact ⟨own, List.subset_append_of_subset_right early hown, htakes⟩
  · intro entry hentry
    rcases List.mem_append.mp hentry with hmem | hmem
    · obtain ⟨rule, hrule, htakes⟩ := hfirst.all entry hmem
      exact ⟨rule, List.mem_append_left _ hrule, htakes⟩
    · obtain ⟨rule, hrule, htakes⟩ := hsecond.all entry hmem
      exact ⟨rule, List.mem_append_right _ hrule, htakes⟩

theorem single {rule : Rule} {own : List (NumberUse × Text)} (hrule : rule.Takes theme own) :
    Fits theme [rule] own := by
  constructor
  · rintro other hother
    rw [List.mem_singleton.mp hother]
    exact ⟨own, List.Subset.refl own, hrule⟩
  · intro entry hentry
    exact ⟨rule, List.mem_singleton_self rule, own, hentry, hrule⟩

theorem fixed {rules : List Rule} (hrules : rules.all Rule.isFixedApart = true) :
    Fits theme rules [] := by
  constructor
  · intro rule hrule
    have hfixed := List.all_eq_true.mp hrules rule hrule
    exact ⟨[], List.Subset.refl [], Rule.takes_of_isFixedApart hfixed⟩
  · intro entry hentry
    cases hentry

variable {rules : List Rule}

/-- The rules fail on a body exactly with its fault. -/
theorem fault?_firstAnswer (hfits : Fits theme rules Catalog.numberLeads) (body : Text) :
    fault? (firstAnswer (Rule.answer theme body) rules) = Catalog.bodyFault? body := by
  cases hfault : Catalog.bodyFault? body with
  | none =>
      cases hanswer : firstAnswer (Rule.answer theme body) rules with
      | ok found => rfl
      | error error =>
          obtain ⟨rule, hrule, hfails⟩ := exists_error_of_firstAnswer hanswer
          obtain ⟨own, hown, htakes⟩ := hfits.each rule hrule
          obtain ⟨use, lead, key, hmem, rfl, hkey⟩ := htakes.sound hfails
          exact absurd hfault (Catalog.bodyFault?_ne_none (hown hmem) hkey)
  | some error =>
      obtain ⟨use, lead, key, hmem, rfl, hkey⟩ := Catalog.exists_lead_of_bodyFault? hfault
      -- Rules that take the lead fail alike, the others do not match, and one takes it.
      have hfails : firstAnswer (Rule.answer theme (lead ++ key)) rules = .error error := by
        apply firstAnswer_eq_error
        · intro rule hrule
          obtain ⟨own, -, htakes⟩ := hfits.each rule hrule
          by_cases hmine : (use, lead) ∈ own
          · exact .inr (htakes.complete hmine hkey)
          · obtain ⟨c, rest, rfl, hc, -⟩ := NumberUse.exists_digit hkey
            exact .inl (htakes.apart hmem hmine hc rest)
        · obtain ⟨rule, hrule, own, hmine, htakes⟩ := hfits.all _ hmem
          exact ⟨rule, hrule, htakes.complete hmine hkey⟩
      rw [hfails]
      rfl

/-- With something behind a slash, a body with a fault is not resolved. -/
theorem firstAnswer_behind (hfits : Fits theme rules Catalog.numberLeads) {body : Text}
    {error : Error} (hfault : Catalog.bodyFault? body = some error) (modifier : Text) :
    firstAnswer (Rule.answer theme (body ++ '/' :: modifier)) rules = .ok none := by
  obtain ⟨use, lead, key, hmem, rfl, hkey⟩ := Catalog.exists_lead_of_bodyFault? hfault
  apply firstAnswer_eq_none
  intro rule hrule
  obtain ⟨own, -, htakes⟩ := hfits.each rule hrule
  rw [List.append_assoc]
  by_cases hmine : (use, lead) ∈ own
  · exact htakes.declines hmine hkey modifier
  · obtain ⟨c, rest, rfl, hc, -⟩ := NumberUse.exists_digit hkey
    exact htakes.apart hmem hmine hc _

end Fits

end UtilityCss
