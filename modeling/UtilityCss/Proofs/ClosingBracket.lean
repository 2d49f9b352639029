import UtilityCss.Proofs.PayloadExtraction

/-!
# The bracket that closes another one

The closing bracket is looked for by keeping a balance from the opening bracket on. What is found
is the first position up to which as many square brackets are closed as are opened, counting both
ends. Before it more of them are open than closed at every position, so that the character found
is a closing bracket. Nothing is found exactly if the counts are equal at no position.
-/

namespace UtilityCss

namespace Brackets

/-- The text from one position to another, both ends included. -/
def stretch (t : Text) (start last : Nat) : Text := (t.drop start).take (last + 1 - start)

/-- From one position of a text to another, as many square brackets are closed as are opened. -/
structure EvensOut (t : Text) (start last : Nat) : Prop where
  le : start ≤ last
  lt : last < t.length
  counts : (stretch t start last).count ']' = (stretch t start last).count '['

/-! ## Stretches of a text -/

section Stretches

variable {t : Text} {start last : Nat}

theorem length_stretch (hlt : last < t.length) :
    (stretch t start last).length = last + 1 - start := by
  rw [stretch, List.length_take, List.length_drop]
  omega

theorem stretch_prefix_stretch {later : Nat} (hle : last ≤ later) :
    stretch t start last <+: stretch t start later :=
  List.take_prefix_take_left (by omega)

/-- A stretch that begins with an opening bracket goes on with text that follows it. -/
theorem stretch_of_open {front rest : Text} (hle : front.length ≤ last) :
    stretch (front ++ '[' :: rest) front.length last = '[' :: rest.take (last - front.length) := by
  rw [stretch, List.drop_left, Nat.sub_add_comm hle, List.take_succ_cons]

end Stretches

/-! ## Looking for the closing bracket -/

/-- No bracket is found if the open ones are nowhere all closed. -/
theorem closingFrom_eq_none_iff {opened position : Nat} {t : Text} :
    closingFrom (opened + 1) position t = none ↔
      ∀ front, front <+: t → front.count ']' ≤ front.count '[' + opened := by
  induction t generalizing opened position with
  | nil => simp [closingFrom]
  | cons c rest ih =>
      rw [prefixes_cons, closingFrom]
      by_cases hopen : c = '['
      · subst hopen
        rw [if_pos rfl]
        simpa [Nat.add_right_comm, Nat.add_assoc] using @ih (opened + 1) (position + 1)
      · rw [if_neg hopen]
        by_cases hclose : c = ']'
        · subst hclose
          rw [if_pos rfl]
          cases opened with
          | zero =>
              -- This bracket closes the last one that is open.
              refine iff_of_false (by simp) ?_
              rintro ⟨-, hall⟩
              simpa using hall [] List.nil_prefix
          | succ opened =>
              have hmore : ¬ ((opened + 1 : Nat) : Int) + 1 = 1 := by omega
              rw [if_neg hmore]
              simpa [← Nat.add_assoc] using @ih opened (position + 1)
        · rw [if_neg hclose, ih]
          simp [hopen, hclose]

/-- Before the bracket that closes the first one, more are open than closed. -/
theorem count_lt_of_balanced {inner part : Text} (hinner : Balanced inner)
    (hpart : part <+: '[' :: (inner ++ [']'])) (hne : part ≠ [])
    (hproper : part ≠ '[' :: (inner ++ [']'])) : part.count ']' < part.count '[' := by
  cases part with
  | nil => exact absurd rfl hne
  | cons c others =>
      obtain ⟨rfl, hothers⟩ := List.cons_prefix_cons.mp hpart
      have hbefore : others <+: inner := by
        rcases List.prefix_concat_iff.mp hothers with hall | hbefore
        · exact absurd (congrArg _ hall) hproper
        · exact hbefore
      have hcount := hinner.2 others hbefore
      simp only [List.count_cons_self, List.count_cons_of_ne (by decide : '[' ≠ ']')]
      omega

section Found

variable {t : Text} {start close : Nat}

theorem exists_open (hopen : t[start]? = some '[') :
    ∃ front rest, t = front ++ '[' :: rest ∧ front.length = start := by
  obtain ⟨hlt, hget⟩ := List.getElem?_eq_some_iff.mp hopen
  refine ⟨t.take start, t.drop (start + 1), ?_, List.length_take_of_le (Nat.le_of_lt hlt)⟩
  rw [← hget, List.getElem_cons_drop, List.take_append_drop]

/-- The stretch up to the bracket that is found has balanced text between its ends. -/
theorem stretch_of_closingBracket? (hopen : t[start]? = some '[')
    (hclose : closingBracket? t start = some close) :
    start ≤ close ∧ t[close]? = some ']' ∧
      ∃ inner, stretch t start close = '[' :: (inner ++ [']']) ∧ Balanced inner := by
  obtain ⟨front, rest, rfl, rfl⟩ := exists_open hopen
  obtain ⟨inner, behind, rfl, hinner, rfl⟩ := closingBracket?_eq_some_iff.mp hclose
  have hle : front.length ≤ front.length + 1 + inner.length := by omega
  refine ⟨hle, ?_, inner, ?_, hinner⟩
  · rw [List.getElem?_append_right hle]
    simp [Nat.add_assoc, Nat.add_comm 1]
  · have hdistance : front.length + 1 + inner.length - front.length = inner.length + 1 := by omega
    rw [stretch_of_open hle, hdistance, List.append_cons, List.take_left' (by simp)]

theorem evensOut_of_closingBracket? (hopen : t[start]? = some '[')
    (hclose : closingBracket? t start = some close) : EvensOut t start close := by
  obtain ⟨hle, hget, inner, hstretch, hinner⟩ := stretch_of_closingBracket? hopen hclose
  refine ⟨hle, (List.getElem?_eq_some_iff.mp hget).1, ?_⟩
  simp [hstretch, hinner.1]

theorem count_lt_of_closingBracket? {part : Text} (hopen : t[start]? = some '[')
    (hclose : closingBracket? t start = some close)
    (hpart : part <+: stretch t start close) (hne : part ≠ [])
    (hproper : part ≠ stretch t start close) : part.count ']' < part.count '[' := by
  obtain ⟨-, -, inner, hstretch, hinner⟩ := stretch_of_closingBracket? hopen hclose
  rw [hstretch] at hpart hproper
  exact count_lt_of_balanced hinner hpart hne hproper

/-- Where the brackets even out, the closing one has been found before or is found there. -/
theorem le_of_evensOut {last : Nat} (hopen : t[start]? = some '[')
    (hclose : closingBracket? t start = some close) (heven : EvensOut t start last) :
    close ≤ last := by
  by_contra hbefore
  have hend := (evensOut_of_closingBracket? hopen hclose).lt
  have hlast := @length_stretch t start last heven.lt
  have hlength := @length_stretch t start close hend
  have hle := heven.le
  -- The stretch that ends before the closing bracket is a proper part of the one up to it.
  have hne : stretch t start last ≠ [] := List.ne_nil_of_length_pos (by omega)
  have hproper : stretch t start last ≠ stretch t start close := by
    intro hsame
    rw [hsame] at hlast
    omega
  have hcount := count_lt_of_closingBracket? hopen hclose
    (stretch_prefix_stretch (by omega)) hne hproper
  exact Nat.ne_of_lt hcount heven.counts

theorem not_evensOut_of_closingBracket? (hopen : t[start]? = some '[')
    (hnone : closingBracket? t start = none) (last : Nat) : ¬ EvensOut t start last := by
  obtain ⟨front, rest, rfl, rfl⟩ := exists_open hopen
  intro heven
  rw [closingBracket?, List.drop_left, closingFrom, if_pos rfl] at hnone
  have hcount := (@closingFrom_eq_none_iff 0 (front.length + 1) rest).mp hnone _
    (List.take_prefix (last - front.length) rest)
  have hcounts := heven.counts
  rw [stretch_of_open heven.le] at hcounts
  simp only [List.count_cons_self, List.count_cons_of_ne (by decide : '[' ≠ ']')] at hcounts
  omega

end Found

/-- The bracket that closes the one at a position is at the first later position up to which the
brackets even out. It is a closing bracket, and before it more are open than closed at every
position. None is found exactly if the brackets even out nowhere. -/
theorem closing_first {t : Text} {start : Nat} (hopen : t[start]? = some '[') :
    (∀ close, closingBracket? t start = some close ↔
      EvensOut t start close ∧ ∀ last, EvensOut t start last → close ≤ last) ∧
    (∀ close, closingBracket? t start = some close →
      t[close]? = some ']' ∧ ∀ part, part <+: stretch t start close → part ≠ [] →
        part ≠ stretch t start close → part.count ']' < part.count '[') ∧
    (closingBracket? t start = none ↔ ∀ last, ¬ EvensOut t start last) := by
  refine ⟨?_, ?_, ?_⟩
  · intro close
    constructor
    · intro hclose
      exact ⟨evensOut_of_closingBracket? hopen hclose, fun _ => le_of_evensOut hopen hclose⟩
    · rintro ⟨heven, hleast⟩
      cases hfound : closingBracket? t start with
      | none => exact absurd heven (not_evensOut_of_closingBracket? hopen hfound close)
      | some found =>
          have hle := le_of_evensOut hopen hfound heven
          have hge := hleast found (evensOut_of_closingBracket? hopen hfound)
          rw [Nat.le_antisymm hle hge]
  · intro close hclose
    refine ⟨(stretch_of_closingBracket? hopen hclose).2.1, ?_⟩
    intro part hpart hne hproper
    exact count_lt_of_closingBracket? hopen hclose hpart hne hproper
  · constructor
    · exact not_evensOut_of_closingBracket? hopen
    · intro hnowhere
      cases hfound : closingBracket? t start with
      | none => rfl
      | some found => exact absurd (evensOut_of_closingBracket? hopen hfound) (hnowhere found)

/-- Brackets that are closed before the opening one, or inside it, do not count. -/
theorem closing_first_nested :
    ("]-[b[c]d]]" : Text)[2]? = some '[' ∧ closingBracket? "]-[b[c]d]]" 2 = some 8 ∧
      EvensOut "]-[b[c]d]]" 2 8 ∧ (∀ last, EvensOut "]-[b[c]d]]" 2 last → 8 ≤ last) ∧
      ("]-[b[c]d]]" : Text)[8]? = some ']' ∧
      ("[b[c]" : Text).count ']' < ("[b[c]" : Text).count '[' := by
  have hopen : ("]-[b[c]d]]" : Text)[2]? = some '[' := rfl
  have hclose : closingBracket? "]-[b[c]d]]" 2 = some 8 := by decide
  obtain ⟨hfirst, hends, -⟩ := closing_first hopen
  obtain ⟨heven, hleast⟩ := (hfirst 8).mp hclose
  obtain ⟨hget, hbefore⟩ := hends 8 hclose
  refine ⟨hopen, hclose, heven, hleast, hget, hbefore "[b[c]" ?_ ?_ ?_⟩
  · exact ⟨"d]", rfl⟩
  · decide
  · decide

end Brackets

end UtilityCss
