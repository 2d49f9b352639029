import Mathlib.Order.Lattice
import UtilityCss.Sorting

/-!
# What stable sorting does

A stable sort by a key is fixed by two facts: the keys rise, and the items of each key
are those of the given list in the given order.
-/

namespace UtilityCss

variable {α κ : Type} [LinearOrder κ] {key : α → κ}

/-- `sorted` is `given` in the order of its keys, items of one key in the order given. -/
structure StablySorted (key : α → κ) (given sorted : List α) : Prop where
  rising : sorted.Pairwise fun a b => key a ≤ key b
  stable : ∀ k, sorted.filter (key · = k) = given.filter (key · = k)

theorem StablySorted.mem_iff {given sorted : List α} (hsorted : StablySorted key given sorted)
    {a : α} : a ∈ sorted ↔ a ∈ given := by
  have hfilter : a ∈ sorted.filter (key · = key a) ↔ a ∈ given.filter (key · = key a) := by
    rw [hsorted.stable]
  simpa using hfilter

theorem mem_insertSorted {before : α → α → Bool} {item a : α} {items : List α} :
    a ∈ insertSorted before item items ↔ a = item ∨ a ∈ items := by
  induction items with
  | nil => simp [insertSorted]
  | cons other rest ih =>
    simp only [insertSorted]
    split
    · simp
    · simp only [List.mem_cons, ih, or_left_comm]

theorem rising_insertSorted {item : α} {items : List α}
    (hrising : items.Pairwise fun a b => key a ≤ key b) :
    (insertSorted (fun a b => decide (key a ≤ key b)) item items).Pairwise
      fun a b => key a ≤ key b := by
  induction items with
  | nil => simp [insertSorted]
  | cons other rest ih =>
    obtain ⟨hother, hrest⟩ := List.pairwise_cons.mp hrising
    simp only [insertSorted, decide_eq_true_eq]
    split
    case isTrue hle =>
      apply List.pairwise_cons.mpr
      refine ⟨?_, hrising⟩
      intro a ha
      rcases List.mem_cons.mp ha with rfl | ha
      · exact hle
      · exact hle.trans (hother a ha)
    case isFalse hlt =>
      apply List.pairwise_cons.mpr
      refine ⟨?_, ih hrest⟩
      intro a ha
      rcases mem_insertSorted.mp ha with rfl | ha
      · exact (not_le.mp hlt).le
      · exact hother a ha

-- An item is put in front of the first item whose key is not smaller, so it passes items
-- of smaller keys only.
theorem filter_insertSorted (item : α) (items : List α) (k : κ) :
    (insertSorted (fun a b => decide (key a ≤ key b)) item items).filter (key · = k) =
      (item :: items).filter (key · = k) := by
  induction items with
  | nil => rfl
  | cons other rest ih =>
    simp only [insertSorted, decide_eq_true_eq]
    split
    · rfl
    · rename_i hlt
      have hne : ¬ (key item = k ∧ key other = k) := by
        rintro ⟨hitem, hother⟩
        exact hlt (hitem.trans hother.symm).le
      rw [List.filter_cons, ih]
      by_cases hitem : key item = k <;> by_cases hother : key other = k <;>
        simp_all

theorem stablySorted_stableSort (items : List α) :
    StablySorted key items (stableSort (fun a b => decide (key a ≤ key b)) items) := by
  induction items with
  | nil => exact ⟨List.Pairwise.nil, fun _ => rfl⟩
  | cons item rest ih =>
    refine ⟨rising_insertSorted ih.rising, ?_⟩
    intro k
    rw [stableSort, filter_insertSorted, List.filter_cons, List.filter_cons, ih.stable]

end UtilityCss
