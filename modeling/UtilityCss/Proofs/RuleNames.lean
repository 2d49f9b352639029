import Mathlib.Data.List.Induction
import Mathlib.Data.List.Nodup
import UtilityCss.Proofs.RegistryRuns
import UtilityCss.Proofs.SharedLookups
import UtilityCss.Resolution

/-!
# Names of registered rules

The registry takes the name that a rule brings, if it is new. For a rule without one it
makes a name from the plug-in and the pattern or the index, and puts the index behind the
made name if that is taken. Nobody asks whether the name with the index is taken as well.

Whatever steps are taken, names are therefore distinct exactly if no rule meets both of its
made names among the rules before it. A name with the index of a rule can only be taken by
a rule that brought it, or by a literal pattern: the names that the registry makes with an
index are apart, because the indices are.
-/

namespace UtilityCss

namespace RegisteredRule

/-- The name that the registry makes for a rule: from the plug-in and a literal pattern, or
from the plug-in and the index. -/
def madeName (entry : RegisteredRule) : Text :=
  match entry.rule.pattern with
  | .literal text => entry.plugin ++ ":" ++ text
  | _ => entry.plugin ++ "#" ++ Text.ofNat entry.index

/-- The made name with the index behind it. -/
def indexedName (entry : RegisteredRule) : Text :=
  entry.madeName ++ "#" ++ Text.ofNat entry.index

/-- The entry is what the registry makes of its rule after the given rules. -/
structure Follows (entry : RegisteredRule) (rules : List RegisteredRule) : Prop where
  index : entry.index = rules.length
  given : entry.rule.name ≠ [] → entry.name = entry.rule.name ∧ entry.name ∉ rules.map (·.name)
  made : entry.rule.name = [] → entry.name =
    if entry.madeName ∈ rules.map (·.name) then entry.indexedName else entry.madeName

end RegisteredRule

namespace Registry

theorem hasRule_iff (registry : Registry) (name : Text) :
    registry.hasRule name = true ↔ name ∈ registry.rules.map (·.name) := by
  simp [hasRule]

theorem follows_of_ruleName {registry : Registry} {rule : Rule} {name : Text}
    (hname : registry.ruleName rule = .ok name) :
    RegisteredRule.Follows ⟨rule, name, registry.rules.length, registry.currentPlugin⟩
      registry.rules := by
  unfold ruleName at hname
  split at hname
  next hgiven =>
    split at hname
    next => cases hname
    next htaken =>
      cases hname
      rw [hasRule_iff] at htaken
      exact ⟨rfl, fun _ => ⟨rfl, htaken⟩, fun hempty => absurd hempty hgiven⟩
  next hempty =>
    simp only [hasRule_iff] at hname
    refine ⟨rfl, fun hgiven => absurd hgiven hempty, fun _ => ?_⟩
    rw [← Except.ok.inj hname]
    cases hpattern : rule.pattern <;>
      simp [RegisteredRule.madeName, RegisteredRule.indexedName, hpattern]

/-! ## Runs -/

/-- Rules are added at the end, one after the other. -/
inductive Additions (rules : List RegisteredRule) : List RegisteredRule → Prop
  | nothing : Additions rules rules
  | entry {later : List RegisteredRule} {entry : RegisteredRule} :
      Additions rules later → entry.Follows later → Additions rules (later ++ [entry])

theorem Additions.trans {first second third : List RegisteredRule}
    (hfirst : Additions first second) (hsecond : Additions second third) :
    Additions first third := by
  induction hsecond with
  | nothing => exact hfirst
  | entry _ hentry ih => exact .entry ih hentry

/-- A run adds rules at the end, also if it meets errors. -/
theorem Runs.additions {registry next : Registry} (hruns : Runs registry next) :
    Additions registry.rules next.rules := by
  induction hruns with
  | stay => exact .nothing
  | change hchange =>
      cases hchange with
      | rule _ hname => exact .entry .nothing (follows_of_ruleName hname)
      | variant => exact .nothing
      | computed => exact .nothing
      | theme => exact .nothing
      | freeze => exact .nothing
  | andThen _ _ hfirst hsecond => exact hfirst.trans hsecond
  | install _ _ ih => exact ih
  | abandon _ _ ih => exact ih

/-- Rules that were added to none follow those before them. -/
theorem Additions.follows {rules : List RegisteredRule} (hadditions : Additions [] rules)
    {before later : List RegisteredRule} {entry : RegisteredRule}
    (hrules : rules = before ++ entry :: later) : entry.Follows before := by
  induction hadditions generalizing later with
  | nothing => simp at hrules
  | @entry earlier last _ hlast ih =>
      rcases List.eq_nil_or_concat later with rfl | ⟨others, final, rfl⟩
      · obtain ⟨rfl, hsame⟩ := List.append_inj' hrules rfl
        cases hsame
        exact hlast
      · rw [List.concat_eq_append, ← List.cons_append, ← List.append_assoc] at hrules
        exact ih (List.append_inj' hrules rfl).1

theorem additions_after (steps : List Step) : Additions [] (after steps).rules :=
  (runs_after steps).additions

end Registry

/-! ## Distinct names -/

namespace RegisteredRule

/-- Names are distinct if none occurs before it. -/
theorem nodup_names_iff (rules : List RegisteredRule) :
    (rules.map (·.name)).Nodup ↔ ∀ before entry later, rules = before ++ entry :: later →
      entry.name ∉ before.map (·.name) := by
  constructor
  · rintro hnodup before entry later rfl hmem
    rw [List.map_append, List.map_cons, List.nodup_append] at hnodup
    exact hnodup.2.2 entry.name hmem entry.name List.mem_cons_self rfl
  · intro hnew
    induction rules using List.reverseRecOn with
    | nil => exact List.nodup_nil
    | append_singleton rules last ih =>
        have hlast := hnew rules last [] rfl
        have hearlier := ih fun before entry later hrules =>
          hnew before entry (later ++ [last]) (by simp [hrules])
        rw [List.map_append, List.map_singleton]
        exact List.Nodup.append hearlier (List.nodup_singleton _) (by simpa using hlast)

/-- A rule repeats a name exactly if both of its made names are taken. -/
theorem Follows.name_mem_iff {entry : RegisteredRule} {rules : List RegisteredRule}
    (hentry : entry.Follows rules) : entry.name ∈ rules.map (·.name) ↔
      entry.rule.name = [] ∧ entry.madeName ∈ rules.map (·.name) ∧
        entry.indexedName ∈ rules.map (·.name) := by
  by_cases hgiven : entry.rule.name = []
  · have hname := hentry.made hgiven
    by_cases hmade : entry.madeName ∈ rules.map (·.name)
    · rw [if_pos hmade] at hname
      simp [hgiven, hmade, hname]
    · rw [if_neg hmade] at hname
      rw [hname]
      exact ⟨fun hmem => absurd hmem hmade, fun hmem => absurd hmem.2.1 hmade⟩
  · have hnew := (hentry.given hgiven).2
    exact ⟨fun hmem => absurd hmem hnew, fun hmem => absurd hmem.1 hgiven⟩

end RegisteredRule

/-! ## Names that end with an index -/

namespace Text

theorem isDigit_of_mem_ofNat {n : Nat} {c : Char} (hc : c ∈ ofNat n) : c.isDigit = true :=
  Nat.isDigit_of_mem_toDigits (b := 10) (by decide) (by decide) hc

theorem not_mem_ofNat {c : Char} (hc : c.isDigit = false) (n : Nat) : c ∉ ofNat n := by
  intro hmem
  rw [isDigit_of_mem_ofNat hmem] at hc
  cases hc

theorem ofNat_injective {m n : Nat} (h : ofNat m = ofNat n) : m = n := by
  have hvalue := congrArg (Nat.ofDigitChars 10 · 0) h
  simpa [ofNat, Nat.ofDigitChars_ten_toDigits] using hvalue

/-- The text ends with a hash sign and a numeral. -/
def IsIndexed (t : Text) : Prop := ∃ front n, t = front ++ "#" ++ ofNat n

theorem not_isIndexed_of_not_mem {t : Text} (ht : '#' ∉ t) : ¬ IsIndexed t := by
  rintro ⟨front, n, rfl⟩
  exact ht (by simp)

/-- The numeral behind the last hash sign can be read off the text. -/
theorem index_eq_of_append_eq {first second : Text} {m n : Nat}
    (h : first ++ "#" ++ ofNat m = second ++ "#" ++ ofNat n) : m = n := by
  have hcut (front : Text) (k : Nat) :
      (front ++ "#" ++ ofNat k).reverse.takeWhile (· ≠ '#') = (ofNat k).reverse := by
    have hdigits : ∀ c ∈ (ofNat k).reverse, decide (c ≠ '#') = true := by
      intro c hc
      rw [decide_eq_true_eq]
      rintro rfl
      exact not_mem_ofNat (by decide) k (List.mem_reverse.mp hc)
    rw [List.append_assoc, List.reverse_append, List.reverse_append, List.append_assoc,
      List.takeWhile_append_of_pos hdigits]
    simp
  have hreverse := congrArg (fun t => t.reverse.takeWhile (· ≠ '#')) h
  simp only [hcut] at hreverse
  exact ofNat_injective (List.reverse_injective hreverse)

/-- Behind a colon, only what follows the colon can end with an index. -/
theorem isIndexed_of_colon {front t : Text} (h : IsIndexed (front ++ ":" ++ t)) :
    IsIndexed t := by
  obtain ⟨other, n, heq⟩ := h
  have hindex : '#' :: ofNat n <:+ front ++ (':' :: t) := ⟨other, by simpa using heq.symm⟩
  rcases List.suffix_or_suffix_of_suffix hindex ⟨front, rfl⟩ with hshort | hlong
  · -- The index does not begin at the colon, so it is part of the text behind it.
    rcases List.suffix_cons_iff.mp hshort with hsame | ⟨rest, hrest⟩
    · exact absurd (List.cons.inj hsame).1 (by decide)
    · exact ⟨rest, n, by simpa using hrest.symm⟩
  · have hcolon : ':' ∈ '#' :: ofNat n := hlong.subset List.mem_cons_self
    rcases List.mem_cons.mp hcolon with hhash | hdigit
    · exact absurd hhash (by decide)
    · exact absurd hdigit (not_mem_ofNat (by decide) n)

end Text

/-- No hash sign is in the name that the rule brings, or in its literal pattern. -/
def Rule.isHashFree (rule : Rule) : Bool :=
  !rule.name.contains '#' && match rule.pattern with
    | .literal text => !text.contains '#'
    | _ => true

namespace RegisteredRule

/-- Neither the name that the rule brings nor its literal pattern ends with an index. -/
def Unindexed (entry : RegisteredRule) : Prop :=
  ¬ entry.rule.name.IsIndexed ∧ ∀ text, entry.rule.pattern = .literal text → ¬ text.IsIndexed

theorem unindexed_of_isHashFree {entry : RegisteredRule} (hfree : entry.rule.isHashFree = true) :
    entry.Unindexed := by
  rw [Rule.isHashFree, Bool.and_eq_true] at hfree
  constructor
  · exact Text.not_isIndexed_of_not_mem (by simpa using hfree.1)
  · intro text htext
    rw [htext] at hfree
    exact Text.not_isIndexed_of_not_mem (by simpa using hfree.2)

/-- A name that ends with an index ends with that of its own rule. -/
theorem Follows.index_eq {entry : RegisteredRule} {rules : List RegisteredRule}
    (hentry : entry.Follows rules) (hplain : entry.Unindexed) {front : Text} {n : Nat}
    (hname : entry.name = front ++ "#" ++ Text.ofNat n) : n = rules.length := by
  by_cases hgiven : entry.rule.name = []
  · rw [hentry.made hgiven] at hname
    split at hname
    · rw [← hentry.index]
      exact (Text.index_eq_of_append_eq hname).symm
    · unfold madeName at hname
      split at hname
      next text hpattern =>
        exact absurd (Text.isIndexed_of_colon ⟨front, n, hname⟩) (hplain.2 text hpattern)
      next =>
        rw [← hentry.index]
        exact (Text.index_eq_of_append_eq hname).symm
  · rw [(hentry.given hgiven).1] at hname
    exact absurd ⟨front, n, hname⟩ hplain.1

end RegisteredRule

namespace Registry

/-- Names are distinct if none that a rule brings and no literal pattern ends with an index. -/
theorem nodup_names_of_unindexed {rules : List RegisteredRule} (hadditions : Additions [] rules)
    (hplain : ∀ entry ∈ rules, entry.Unindexed) : (rules.map (·.name)).Nodup := by
  rw [RegisteredRule.nodup_names_iff]
  intro before entry later hrules hname
  have hentry := hadditions.follows hrules
  obtain ⟨-, -, hindexed⟩ := hentry.name_mem_iff.mp hname
  obtain ⟨other, hother, hsame⟩ := List.mem_map.mp hindexed
  obtain ⟨first, second, rfl⟩ := List.append_of_mem hother
  have hfollows := @Additions.follows rules hadditions first (second ++ entry :: later) other
    (by simp [hrules])
  have hindex := hfollows.index_eq (hplain other (by simp [hrules])) hsame
  rw [hentry.index, List.length_append, List.length_cons] at hindex
  omega

/-- After any steps, whether they failed or not, the names of the rules are distinct exactly if
no rule without a name finds the name made for it and this name with its index both taken.
They are distinct if no name that a rule brings and no literal pattern ends with an index;
plug-ins may have any names. Distinct names are distinct keys of the cache. -/
theorem nodup_ruleNames_iff (steps : List Step) :
    (((after steps).rules.map (·.name)).Nodup ↔
      ∀ before entry later, (after steps).rules = before ++ entry :: later →
        entry.rule.name = [] → entry.madeName ∈ before.map (·.name) →
          entry.indexedName ∉ before.map (·.name)) ∧
    ((∀ entry ∈ (after steps).rules, entry.Unindexed) →
      ((after steps).rules.map (·.name)).Nodup) ∧
    (((after steps).rules.map (·.name)).Nodup ↔
      ((after steps).rules.map (·.lookup.name)).Nodup) := by
  refine ⟨?_, ?_, ?_⟩
  · rw [RegisteredRule.nodup_names_iff]
    constructor
    · intro hnew before entry later hrules hgiven hmade hindexed
      have hentry := (additions_after steps).follows hrules
      have hname := hentry.name_mem_iff.mpr ⟨hgiven, hmade, hindexed⟩
      exact hnew before entry later hrules hname
    · intro hfree before entry later hrules hname
      have hentry := (additions_after steps).follows hrules
      obtain ⟨hgiven, hmade, hindexed⟩ := hentry.name_mem_iff.mp hname
      exact hfree before entry later hrules hgiven hmade hindexed
  · exact nodup_names_of_unindexed (additions_after steps)
  · have hkeys : (after steps).rules.map (·.lookup.name) =
        ((after steps).rules.map (·.name)).map ("rule:".toList ++ ·) := by
      simp [RegisteredRule.lookup]
    rw [hkeys, List.nodup_map_iff (List.append_right_injective _)]

/-- A rule that declares nothing. -/
def silent (pattern : RulePattern) (name : Text := []) : Offered Rule :=
  .proper { pattern, body := .fixed [], name }

/-- Rules without a name, two of which find the name made for them taken, and a step that
fails. -/
def sharing : List Step :=
  [.addRules [silent (.literal "x") "<direct>:b", silent (.literal "b"), silent (.literal "b")],
    .install { name := "q#7", steps := [.addRule (silent (.written "b")), .addRule (.foreign "int")] }]

theorem nodup_ruleNames_sharing :
    (∀ entry ∈ (after sharing).rules, entry.Unindexed) ∧
      (after sharing).rules.map (·.name) =
        [("<direct>:b" : Text), "<direct>:b#1", "<direct>:b#2", "q#7#3"] ∧
      ((after sharing).rules.map (·.name)).Nodup := by
  have hfree : (after sharing).rules.all (·.rule.isHashFree) = true := rfl
  have hplain : ∀ entry ∈ (after sharing).rules, entry.Unindexed := fun entry hentry =>
    RegisteredRule.unindexed_of_isHashFree (List.all_eq_true.mp hfree entry hentry)
  exact ⟨hplain, rfl, (nodup_ruleNames_iff sharing).2.1 hplain⟩

/-- Rules that bring both names made for a third one, which is the only rule for `b`. -/
def repeating : List Step :=
  [.install { name := "p", steps := [
    .addRule (.proper { pattern := .literal "x", body := .fixed [], name := "p#2" }),
    .addRule (.proper { pattern := .literal "y", body := .fixed [], name := "p#2#2" }),
    .addRule (.proper { pattern := .written "b", body := .fixed [("color", "red")] })] }]

/-- The third rule repeats the name of the second one. It is tried with the pattern of that
rule, so that nothing resolves a body that its own pattern matches. -/
theorem ruleNames_repeating :
    (after repeating).rules.map (·.name) = [("p#2" : Text), "p#2#2", "p#2#2"] ∧
      ¬ ((after repeating).rules.map (·.name)).Nodup ∧
      ((after repeating).rules.getLast?.bind fun entry =>
        entry.lookup.pattern?.bind (·.matchWhole "b")).isSome = true ∧
      ((after repeating).resolution "b" {}).1.toOption.map Option.isSome = some false := by
  refine ⟨rfl, by decide, rfl, rfl⟩

end Registry

end UtilityCss
