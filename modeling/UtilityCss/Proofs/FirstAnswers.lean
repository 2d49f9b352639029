import UtilityCss.Proofs.CacheOwnership

/-!
# First answers

Items are tried in order, and the first that gives an answer or fails decides. A sweep over
lookups with distinct keys tries every item with the pattern that the item itself brings.
-/

namespace UtilityCss

section

variable {α β : Type} {answer : α → Except Error (Option β)} {items : List α}

/-- What the first of some items answers that does not pass. -/
def firstAnswer {α β : Type} (answer : α → Except Error (Option β)) :
    List α → Except Error (Option β)
  | [] => .ok none
  | item :: rest => do
      match ← answer item with
      | some b => .ok (some b)
      | none => firstAnswer answer rest

theorem exists_error_of_firstAnswer {error : Error}
    (herror : firstAnswer answer items = .error error) :
    ∃ item ∈ items, answer item = .error error := by
  induction items with
  | nil => cases herror
  | cons item rest ih =>
      rw [firstAnswer] at herror
      cases hanswer : answer item with
      | error other =>
          rw [hanswer] at herror
          obtain rfl := Except.error.inj herror
          exact ⟨item, List.mem_cons_self, hanswer⟩
      | ok found =>
          rw [hanswer, ok_bind] at herror
          cases found with
          | some b => cases herror
          | none =>
              obtain ⟨other, hother, hfails⟩ := ih herror
              exact ⟨other, List.mem_cons_of_mem _ hother, hfails⟩

/-- The first answer is an error if some item fails and all that do not fail alike pass. -/
theorem firstAnswer_eq_error {error : Error}
    (hitems : ∀ item ∈ items, answer item = .ok none ∨ answer item = .error error)
    (hsome : ∃ item ∈ items, answer item = .error error) :
    firstAnswer answer items = .error error := by
  induction items with
  | nil =>
      obtain ⟨item, hitem, -⟩ := hsome
      cases hitem
  | cons item rest ih =>
      rw [firstAnswer]
      rcases hitems item List.mem_cons_self with hpass | hfail
      · -- This item passes, so the one that fails comes later.
        rw [hpass, ok_bind]
        apply ih fun other hother => hitems other (List.mem_cons_of_mem _ hother)
        obtain ⟨other, hother, hfails⟩ := hsome
        rcases List.mem_cons.mp hother with rfl | hrest
        · rw [hpass] at hfails
          cases hfails
        · exact ⟨other, hrest, hfails⟩
      · rw [hfail]
        rfl

/-- Items that pass are passed over. -/
theorem firstAnswer_append {before : List α} (hbefore : ∀ item ∈ before, answer item = .ok none)
    (items : List α) : firstAnswer answer (before ++ items) = firstAnswer answer items := by
  induction before with
  | nil => rfl
  | cons item rest ih =>
      rw [List.cons_append, firstAnswer, hbefore item List.mem_cons_self, ok_bind]
      exact ih fun later hlater => hbefore later (List.mem_cons_of_mem _ hlater)

theorem firstAnswer_append_congr {late other : List α}
    (hsame : firstAnswer answer late = firstAnswer answer other) (before : List α) :
    firstAnswer answer (before ++ late) = firstAnswer answer (before ++ other) := by
  induction before with
  | nil => exact hsame
  | cons item rest ih => rw [List.cons_append, List.cons_append, firstAnswer, firstAnswer, ih]

/-- Items can change places with others if the ones or the others all pass. -/
theorem firstAnswer_swap {first second : List α}
    (hpass : (∀ item ∈ first, answer item = .ok none) ∨ ∀ item ∈ second, answer item = .ok none)
    (items : List α) :
    firstAnswer answer (first ++ (second ++ items)) =
      firstAnswer answer (second ++ (first ++ items)) := by
  rcases hpass with hfirst | hsecond
  · rw [firstAnswer_append hfirst]
    exact firstAnswer_append_congr (firstAnswer_append hfirst items).symm second
  · rw [firstAnswer_append hsecond]
    exact firstAnswer_append_congr (firstAnswer_append hsecond items) first

theorem firstAnswer_eq_none (hitems : ∀ item ∈ items, answer item = .ok none) :
    firstAnswer answer items = .ok none := by
  rw [← List.append_nil items, firstAnswer_append hitems]
  rfl

/-- Items that pass can be left out. -/
theorem firstAnswer_filter {test : α → Bool}
    (hitems : ∀ item ∈ items, test item = false → answer item = .ok none) :
    firstAnswer answer items = firstAnswer answer (items.filter test) := by
  induction items with
  | nil => rfl
  | cons item rest ih =>
      have hrest := ih fun later hlater => hitems later (List.mem_cons_of_mem _ hlater)
      cases htest : test item with
      | true => rw [List.filter_cons_of_pos htest, firstAnswer, firstAnswer, hrest]
      | false =>
          rw [List.filter_cons_of_neg (by simp [htest]), firstAnswer,
            hitems item List.mem_cons_self htest, ok_bind]
          exact hrest

/-- If no item fails, the first answer is the first that is given. -/
theorem firstAnswer_eq_findSome? {given? : α → Option β}
    (hitems : ∀ item ∈ items, answer item = .ok (given? item)) :
    firstAnswer answer items = .ok (items.findSome? given?) := by
  induction items with
  | nil => rfl
  | cons item rest ih =>
      rw [firstAnswer, hitems item List.mem_cons_self, ok_bind, List.findSome?_cons]
      cases given? item with
      | some b => rfl
      | none => exact ih fun later hlater => hitems later (List.mem_cons_of_mem _ hlater)

theorem firstAnswer_map {ι : Type} (f : ι → α) (items : List ι) :
    firstAnswer answer (items.map f) = firstAnswer (fun item => answer (f item)) items := by
  induction items with
  | nil => rfl
  | cons item rest ih => rw [List.map_cons, firstAnswer, firstAnswer, ih]

theorem map_firstAnswer {γ : Type} (f : β → γ) (items : List α) :
    (firstAnswer answer items).map (Option.map f) =
      firstAnswer (fun item => (answer item).map (Option.map f)) items := by
  induction items with
  | nil => rfl
  | cons item rest ih =>
      rw [firstAnswer, firstAnswer, ← ih]
      cases answer item with
      | error error => rfl
      | ok found => cases found <;> rfl

/-- A change of the answers that are given is a change of the first one. -/
theorem firstAnswer_mapped {γ : Type} {other : α → Except Error (Option γ)} (f : α → β → γ)
    (hother : ∀ item ∈ items, other item = (answer item).map (Option.map (f item))) :
    (firstAnswer other items).map Option.isSome = (firstAnswer answer items).map Option.isSome := by
  induction items with
  | nil => rfl
  | cons item rest ih =>
      rw [firstAnswer, firstAnswer, hother item List.mem_cons_self]
      cases answer item with
      | error error => rfl
      | ok found =>
          cases found with
          | some b => rfl
          | none => exact ih fun later hlater => hother later (List.mem_cons_of_mem _ hlater)

end

/-! ## Sweeps over distinct keys -/

/-- The pattern that a lookup brings. -/
def Lookup.own (lookup : Lookup) : Except Error Pattern :=
  match lookup.pattern? with
  | some pattern => .ok pattern
  | none => .error .invalidPattern

theorem ne_of_nodup_map {α β : Type} {f : α → β} {before after : List α} {a : α}
    (hnodup : ((before ++ a :: after).map f).Nodup) : ∀ other ∈ before, f other ≠ f a := by
  intro other hother
  rw [List.map_append, List.nodup_append] at hnodup
  exact hnodup.2.2 _ (List.mem_map_of_mem hother) _ (by simp)

/-- If every item owns its key, a sweep tries the items with their own patterns. -/
theorem sweepOwned_eq_firstAnswer {ι α : Type} {lookups : List Lookup} {toLookup : ι → Lookup}
    (verdict : ι → Pattern → Except Error (Option α)) {items : List ι}
    (howned : ∀ item ∈ items, owned lookups (toLookup item).key = (toLookup item).own) :
    sweepOwned lookups toLookup verdict items =
      firstAnswer (fun item => (toLookup item).own >>= verdict item) items := by
  induction items with
  | nil => rfl
  | cons item rest ih =>
      rw [sweepOwned, firstAnswer, howned item List.mem_cons_self]
      cases (toLookup item).own with
      | error error => rfl
      | ok pattern =>
          rw [ok_bind, ok_bind]
          cases verdict item pattern with
          | error error => rfl
          | ok found =>
              cases found with
              | some answer => rfl
              | none => exact ih fun later hlater => howned later (List.mem_cons_of_mem _ hlater)

end UtilityCss
