import Mathlib.Data.List.TakeDrop
import UtilityCss.Proofs.BracketPatterns
import UtilityCss.Proofs.CatalogComputations
import UtilityCss.Proofs.TextSplitting

/-!
# Values in brackets

A utility that takes a value in brackets takes any value, or only one that can be a length, a
colour or a font size. A body may also be a declaration in brackets. What is taken has brackets
at both ends, something between them that is not blank, and no newline; whether the brackets
between them are balanced is not asked.
-/

namespace UtilityCss

/-- What a utility takes in brackets. -/
inductive BracketUse where
  | nothing
  | any
  | length
  | color
  | fontSize
  | declaration
  deriving DecidableEq

/-- Whether a key is taken. -/
def BracketUse.accepts : BracketUse → Text → Bool
  | .nothing, _ => false
  | .any, key => (Css.bracketed? key).isSome
  | .length, key =>
      (Css.bracketed? key [some "length"]).isSome ||
        (Css.bracketed? key).any fun value => !Css.looksLikeColor value
  | .color, key =>
      (Css.bracketed? key [some "color"]).isSome || (Css.bracketed? key).any Css.looksLikeColor
  | .fontSize, key =>
      ((Css.bracketed? key [some "length"]).or (Css.bracketed? key)).any Css.looksLikeLength
  | .declaration, key =>
      (Payload.declaration? key).any fun (_, value) => Text.trim (Payload.normalize value) ≠ []

/-! ## What is taken -/

theorem Payload.eq_of_isBracketed {key : Text} (hkey : Payload.isBracketed key = true) :
    ∃ inner, key = '[' :: (inner ++ [']']) := by
  rw [isBracketed, Bool.and_eq_true] at hkey
  obtain ⟨rest, rfl⟩ := List.isPrefixOf_iff_prefix.mp hkey.1
  obtain ⟨front, hfront⟩ := List.isSuffixOf_iff_suffix.mp hkey.2
  cases front with
  | nil => cases hfront
  | cons c inner =>
      obtain ⟨rfl, rfl⟩ := List.cons.inj hfront
      exact ⟨inner, rfl⟩

theorem Payload.bracket_mem_of_isBracketed {key : Text} (hkey : Payload.isBracketed key = true) :
    '[' ∈ key := by
  obtain ⟨inner, rfl⟩ := eq_of_isBracketed hkey
  exact List.mem_cons_self

theorem Payload.of_beforeClosing? {inner value : Text}
    (hvalue : Payload.beforeClosing? (inner ++ [']']) = some value) :
    value = inner ∧ inner ≠ [] ∧ '\n' ∉ inner := by
  have hline : Text.beforeTail? ['\n'] (inner ++ [']']) = none := by
    rw [Text.beforeTail?, Option.eq_none_iff_forall_ne_some]
    intro front hfront
    rw [List.isSuffixOf?_eq_some_iff_append_eq] at hfront
    have hlast := congrArg List.getLast? hfront
    simp at hlast
  have htail : Text.beforeTail? [']'] (inner ++ [']']) = some inner := by
    rw [Text.beforeTail?, List.isSuffixOf?_eq_some_iff_append_eq]
  rw [beforeClosing?, hline, Option.getD_none, htail] at hvalue
  simp only [Option.bind_eq_bind, Option.bind_some] at hvalue
  split at hvalue
  · cases hvalue
  · rename_i hshape
    simp only [Bool.or_eq_true, not_or, decide_eq_true_eq, List.contains_iff_mem] at hshape
    exact ⟨(Option.some.inj hvalue).symm, hshape⟩

/-- What is read behind a hint, or without one. -/
theorem Payload.of_read? {inner value : Text} {hint : Option Text}
    (hread : Payload.read? ('[' :: (inner ++ [']'])) = some (hint, value)) :
    ∃ front text, inner = front ++ text ∧ value = Payload.normalize text ∧ '\n' ∉ inner ∧
      text ≠ [] ∧ (front = [] ∨ ':' ∈ front) := by
  obtain ⟨⟨kind, text⟩, hfound, hpair⟩ := Option.map_eq_some_iff.mp hread
  obtain rfl := (Prod.mk.inj hpair).2
  rw [Option.orElse_eq_or, Option.or_eq_some_iff] at hfound
  rcases hfound with hhinted | ⟨-, hplain⟩
  · rw [List.span_eq_takeWhile_dropWhile] at hhinted
    split at hhinted
    · rename_i letters rest hspan
      obtain ⟨hletters, hrest⟩ := Prod.mk.inj hspan
      have hsplit : letters ++ ':' :: rest = inner ++ [']'] := by
        rw [← hletters, ← hrest, List.takeWhile_append_dropWhile]
      have hline : '\n' ∉ letters := by
        intro hmem
        rw [← hletters] at hmem
        have hhint := List.mem_takeWhile_imp hmem
        revert hhint
        decide
      split at hhinted
      · cases hhinted
      · obtain ⟨other, hclosing, hsame⟩ := Option.map_eq_some_iff.mp hhinted
        obtain ⟨-, rfl⟩ := Prod.mk.inj hsame
        -- The last character is the closing bracket, so it is not the colon.
        rcases List.eq_nil_or_concat rest with rfl | ⟨behind, last, rfl⟩
        · have hlast := congrArg List.getLast? hsplit
          simp at hlast
        · rw [List.concat_eq_append, ← List.cons_append, ← List.append_assoc] at hsplit
          obtain ⟨rfl, hlast⟩ := List.append_inj' hsplit rfl
          obtain rfl : last = ']' := by simpa using hlast
          rw [List.concat_eq_append] at hclosing
          obtain ⟨rfl, hne, hbehind⟩ := of_beforeClosing? hclosing
          refine ⟨letters ++ [':'], other, by simp, rfl, ?_, hne, .inr (by simp)⟩
          simp [hline, hbehind]
    · cases hhinted
  · obtain ⟨other, hclosing, hsame⟩ := Option.map_eq_some_iff.mp hplain
    obtain ⟨-, rfl⟩ := Prod.mk.inj hsame
    obtain ⟨rfl, hne, hline⟩ := of_beforeClosing? hclosing
    exact ⟨[], _, rfl, rfl, hline, hne, .inl rfl⟩

theorem Payload.normalize_of_plain {t : Text} (ht : ∀ c ∈ t, c ≠ '_' ∧ c ≠ '\\') :
    Payload.normalize t = t := by
  induction t using Payload.normalize.induct with
  | case1 rest _ => exact absurd rfl (ht '\\' (by simp)).2
  | case2 c rest hplain ih =>
      have hc := (ht c List.mem_cons_self).1
      have hrest := ih fun d hd => ht d (List.mem_cons_of_mem c hd)
      rw [normalize.eq_2 _ _ hplain, if_neg hc, hrest]
  | case3 => rfl

/-- The key has brackets at its ends, and between them no newline and something that is not
blank. -/
def IsEnclosed (key : Text) : Prop :=
  ∃ inner, key = '[' :: (inner ++ [']']) ∧ '\n' ∉ inner ∧ ∃ c ∈ inner, Text.isBlank c = false

theorem isEnclosed_of_bracketed? {key value : Text} {hints : List (Option Text)}
    (hvalue : Css.bracketed? key hints = some value) : IsEnclosed key := by
  unfold Css.bracketed? at hvalue
  split at hvalue
  · cases hvalue
  · rename_i hkey
    obtain ⟨inner, rfl⟩ := Payload.eq_of_isBracketed (by simpa using hkey)
    obtain ⟨⟨hint, raw⟩, hread, htaken⟩ := Option.bind_eq_some_iff.mp hvalue
    obtain ⟨front, text, rfl, rfl, hline, hne, hfront⟩ := Payload.of_read? hread
    refine ⟨front ++ text, rfl, hline, ?_⟩
    rcases hfront with rfl | hcolon
    · -- If all is blank, nothing is left of the value.
      by_contra hblank
      have hall : ∀ c ∈ text, Text.isBlank c = true := by
        intro c hc
        by_contra hne
        exact hblank ⟨c, hc, by simpa using hne⟩
      have hplain : ∀ c ∈ text, c ≠ '_' ∧ c ≠ '\\' := by
        intro c hc
        constructor
        · rintro rfl
          cases hall _ hc
        · rintro rfl
          cases hall _ hc
      rw [Payload.normalize_of_plain hplain] at htaken
      simp [Text.trim_eq_nil_iff.mpr hall] at htaken
    · exact ⟨':', List.mem_append_left _ hcolon, by decide⟩

theorem BracketUse.isEnclosed {use : BracketUse} {key : Text} (hkey : use.accepts key = true) :
    IsEnclosed key := by
  have hsome {hints : List (Option Text)} (hvalue : (Css.bracketed? key hints).isSome = true) :
      IsEnclosed key := by
    obtain ⟨value, hvalue⟩ := Option.isSome_iff_exists.mp hvalue
    exact isEnclosed_of_bracketed? hvalue
  have hany {hints : List (Option Text)} {test : Text → Bool}
      (hvalue : (Css.bracketed? key hints).any test = true) : IsEnclosed key := by
    obtain ⟨value, hvalue, -⟩ := (Option.any_eq_true _ _).mp hvalue
    exact isEnclosed_of_bracketed? hvalue
  cases use with
  | nothing => cases hkey
  | any => exact hsome hkey
  | length => exact (Bool.or_eq_true_iff.mp hkey).elim hsome hany
  | color => exact (Bool.or_eq_true_iff.mp hkey).elim hsome hany
  | fontSize =>
      obtain ⟨value, hvalue, -⟩ := (Option.any_eq_true _ _).mp hkey
      rcases Option.or_eq_some_iff.mp hvalue with hvalue | ⟨-, hvalue⟩
      · exact isEnclosed_of_bracketed? hvalue
      · exact isEnclosed_of_bracketed? hvalue
  | declaration =>
      obtain ⟨⟨property, value⟩, hvalue, -⟩ := (Option.any_eq_true _ _).mp hkey
      obtain ⟨rfl, hproperty, -, hline⟩ := Payload.declaration?_eq_some.mp hvalue
      refine ⟨property ++ ':' :: value, by simp, ?_, ':', by simp, by decide⟩
      have hname : '\n' ∉ property := by
        intro hmem
        cases Payload.isNameChar_of_mem hproperty hmem
      simp [hname, hline]

end UtilityCss
