import UtilityCss.Pattern.Match

/-!
# What a pattern reads

The matcher tries the ways to match a pattern one after the other. Here a pattern is a
relation between the cursor before and the cursor after it, without the order of trying,
and every match that is found is an instance of that relation. A pattern reads on: the
cursor after it stands behind some of the text before it.
-/

namespace UtilityCss

/-- So many rounds of a relation between cursors. -/
inductive Rounds (step : Cursor → Cursor → Prop) : Nat → Cursor → Cursor → Prop
  | zero (cursor : Cursor) : Rounds step 0 cursor cursor
  | succ {count : Nat} {first second third : Cursor} :
      step first second → Rounds step count second third → Rounds step (count + 1) first third

theorem Rounds.trans {step : Cursor → Cursor → Prop} {count more : Nat}
    {first second third : Cursor} (hfirst : Rounds step count first second)
    (hsecond : Rounds step more second third) : Rounds step (count + more) first third := by
  induction hfirst with
  | zero cursor => simpa using hsecond
  | succ hstep _ ih =>
      have hrest := Rounds.succ hstep (ih hsecond)
      rwa [Nat.add_right_comm] at hrest

namespace PatternNode

/-- A pattern leads from a cursor to another one. -/
def Reads (foldCase : Bool) : PatternNode → Cursor → Cursor → Prop
  | .empty, cursor, next => next = cursor
  | .oneOf set, cursor, next => ∃ c rest, cursor.rest = c :: rest ∧
      set.holds foldCase c = true ∧ next = { cursor with position := cursor.position + 1, rest }
  | .any, cursor, next => ∃ c rest, cursor.rest = c :: rest ∧ c ≠ '\n' ∧
      next = { cursor with position := cursor.position + 1, rest }
  | .start, cursor, next => cursor.position = 0 ∧ next = cursor
  | .finish, cursor, next => cursor.atFinish = true ∧ next = cursor
  | .seq first second, cursor, next =>
      ∃ middle, first.Reads foldCase cursor middle ∧ second.Reads foldCase middle next
  | .alt first second, cursor, next =>
      first.Reads foldCase cursor next ∨ second.Reads foldCase cursor next
  | .group index body, cursor, next => ∃ inner, body.Reads foldCase cursor inner ∧
      next = { inner with
        captures := (index, cursor.rest.take (inner.position - cursor.position)) ::
          inner.captures }
  | .ahead negated body, cursor, next =>
      if negated then next = cursor
      else ∃ found, body.Reads foldCase cursor found ∧
        next = { cursor with captures := found.captures }
  | .repeated least most _ body, cursor, next =>
      ∃ count, least ≤ count ∧ (∀ bound ∈ most, count ≤ max least bound) ∧
        Rounds (fun before after => body.Reads foldCase before after) count cursor next

/-- What a computation with a continuation accepts, it accepts after a step. -/
def Sound (step : Cursor → Cursor → Prop) (body : Cursor → Continuation → Option Cursor) : Prop :=
  ∀ (cursor : Cursor) (accept : Continuation) (final : Cursor), body cursor accept = some final →
    ∃ next, step cursor next ∧ accept next = some final

theorem read_eq_some {cursor final : Cursor} {test : Char → Bool} {accept : Continuation}
    (hread : cursor.read test accept = some final) :
    ∃ c rest, cursor.rest = c :: rest ∧ test c = true ∧
      accept { cursor with position := cursor.position + 1, rest } = some final := by
  rw [Cursor.read] at hread
  split at hread
  next c rest hrest =>
    split at hread
    next hc => exact ⟨c, rest, hrest, hc, hread⟩
    next => cases hread
  next => cases hread

theorem sound_requiredRounds {step : Cursor → Cursor → Prop}
    {body : Cursor → Continuation → Option Cursor} (hbody : Sound step body) (count : Nat) :
    Sound (Rounds step count) (requiredRounds body count) := by
  induction count with
  | zero =>
      intro cursor accept final hrun
      exact ⟨cursor, Rounds.zero cursor, hrun⟩
  | succ count ih =>
      intro cursor accept final hrun
      obtain ⟨middle, hmiddle, hrest⟩ := hbody _ _ _ hrun
      obtain ⟨next, hnext, haccept⟩ := ih _ _ _ hrest
      exact ⟨next, Rounds.succ hmiddle hnext, haccept⟩

theorem sound_optionalRounds {step : Cursor → Cursor → Prop}
    {body : Cursor → Continuation → Option Cursor} (hbody : Sound step body) (greedy : Bool)
    (limit : Nat) (last : Option Nat) :
    Sound (fun cursor next => ∃ count ≤ limit, Rounds step count cursor next)
      (optionalRounds greedy body limit last) := by
  induction limit generalizing last with
  | zero =>
      intro cursor accept final hrun
      exact ⟨cursor, ⟨0, Nat.le_refl 0, Rounds.zero cursor⟩, hrun⟩
  | succ limit ih =>
      intro cursor accept final hrun
      have hstop (haccept : accept cursor = some final) :
          ∃ next, (∃ count ≤ limit + 1, Rounds step count cursor next) ∧ accept next = some final :=
        ⟨cursor, ⟨0, Nat.zero_le _, Rounds.zero cursor⟩, haccept⟩
      have hanother (hagain : (body cursor fun next => optionalRounds greedy body limit
            (some cursor.position) next accept) = some final) :
          ∃ next, (∃ count ≤ limit + 1, Rounds step count cursor next) ∧
            accept next = some final := by
        obtain ⟨middle, hmiddle, hrest⟩ := hbody _ _ _ hagain
        obtain ⟨next, ⟨count, hlimit, hcount⟩, haccept⟩ := ih _ _ _ _ hrest
        exact ⟨next, ⟨count + 1, Nat.succ_le_succ hlimit, Rounds.succ hmiddle hcount⟩, haccept⟩
      rw [optionalRounds] at hrun
      split at hrun
      · exact hstop hrun
      · -- Either order of trying leaves the same two ways.
        split at hrun <;>
          rw [Option.orElse_eq_or, Option.or_eq_some_iff] at hrun <;>
          rcases hrun with hfirst | ⟨-, hsecond⟩
        · exact hanother hfirst
        · exact hstop hsecond
        · exact hstop hfirst
        · exact hanother hsecond

/-- Every match that the matcher finds is one that the pattern reads. -/
theorem sound_run (foldCase : Bool) (node : PatternNode) :
    Sound (node.Reads foldCase) (node.run foldCase) := by
  induction node with
  | empty =>
      intro cursor accept final hrun
      exact ⟨cursor, rfl, hrun⟩
  | oneOf set =>
      intro cursor accept final hrun
      obtain ⟨c, rest, hrest, hc, haccept⟩ := read_eq_some hrun
      exact ⟨_, ⟨c, rest, hrest, hc, rfl⟩, haccept⟩
  | any =>
      intro cursor accept final hrun
      obtain ⟨c, rest, hrest, hc, haccept⟩ := read_eq_some hrun
      exact ⟨_, ⟨c, rest, hrest, by simpa using hc, rfl⟩, haccept⟩
  | start =>
      intro cursor accept final hrun
      simp only [run] at hrun
      split at hrun
      next hposition => exact ⟨cursor, ⟨hposition, rfl⟩, hrun⟩
      next => cases hrun
  | finish =>
      intro cursor accept final hrun
      simp only [run] at hrun
      split at hrun
      next hfinish => exact ⟨cursor, ⟨hfinish, rfl⟩, hrun⟩
      next => cases hrun
  | seq first second ihfirst ihsecond =>
      intro cursor accept final hrun
      obtain ⟨middle, hmiddle, hrest⟩ := ihfirst _ _ _ hrun
      obtain ⟨next, hnext, haccept⟩ := ihsecond _ _ _ hrest
      exact ⟨next, ⟨middle, hmiddle, hnext⟩, haccept⟩
  | alt first second ihfirst ihsecond =>
      intro cursor accept final hrun
      rw [run, Option.orElse_eq_or, Option.or_eq_some_iff] at hrun
      rcases hrun with hfirst | ⟨-, hsecond⟩
      · obtain ⟨next, hnext, haccept⟩ := ihfirst _ _ _ hfirst
        exact ⟨next, .inl hnext, haccept⟩
      · obtain ⟨next, hnext, haccept⟩ := ihsecond _ _ _ hsecond
        exact ⟨next, .inr hnext, haccept⟩
  | group index body ih =>
      intro cursor accept final hrun
      obtain ⟨inner, hinner, haccept⟩ := ih _ _ _ hrun
      exact ⟨_, ⟨inner, hinner, rfl⟩, haccept⟩
  | ahead negated body ih =>
      intro cursor accept final hrun
      simp only [run] at hrun
      cases hbody : body.run foldCase cursor some with
      | none =>
          rw [hbody] at hrun
          cases negated with
          | true => exact ⟨cursor, rfl, hrun⟩
          | false => cases hrun
      | some found =>
          rw [hbody] at hrun
          cases negated with
          | true => cases hrun
          | false =>
              obtain ⟨inner, hinner, hsame⟩ := ih _ _ _ hbody
              cases hsame
              exact ⟨_, ⟨found, hinner, rfl⟩, hrun⟩
  | repeated least most greedy body ih =>
      intro cursor accept final hrun
      obtain ⟨middle, hmiddle, hrest⟩ := sound_requiredRounds ih least _ _ _ hrun
      obtain ⟨next, ⟨count, hlimit, hcount⟩, haccept⟩ :=
        sound_optionalRounds ih greedy _ none _ _ _ hrest
      refine ⟨next, ⟨least + count, Nat.le_add_right _ _, ?_, hmiddle.trans hcount⟩, haccept⟩
      rintro bound rfl
      simp only [roundLimit] at hlimit
      omega

end PatternNode

/-! ## The text behind a cursor -/

/-- The cursor has moved behind a word. -/
structure Cursor.Advances (cursor : Cursor) (word : Text) (next : Cursor) : Prop where
  rest : cursor.rest = word ++ next.rest
  position : next.position = cursor.position + word.length

namespace Cursor

theorem Advances.refl (cursor : Cursor) : cursor.Advances [] cursor := ⟨rfl, rfl⟩

theorem Advances.trans {first second third : Cursor} {word more : Text}
    (hfirst : first.Advances word second) (hsecond : second.Advances more third) :
    first.Advances (word ++ more) third := by
  constructor
  · rw [hfirst.rest, hsecond.rest, List.append_assoc]
  · rw [hsecond.position, hfirst.position, List.length_append, Nat.add_assoc]

/-- What a group remembers is the word that the cursor has moved behind. -/
theorem Advances.take_eq {cursor next : Cursor} {word : Text} (hword : cursor.Advances word next) :
    cursor.rest.take (next.position - cursor.position) = word := by
  rw [hword.position, hword.rest, Nat.add_sub_cancel_left, List.take_left]

end Cursor

/-- A step that reads one character of a kind and remembers nothing. -/
def ReadsChar (test : Char → Prop) (step : Cursor → Cursor → Prop) : Prop :=
  ∀ cursor next, step cursor next →
    ∃ c, test c ∧ cursor.Advances [c] next ∧ next.captures = cursor.captures

/-- Rounds of such steps read a word of that kind. -/
theorem Rounds.reads_word {test : Char → Prop} {step : Cursor → Cursor → Prop}
    (hstep : ReadsChar test step) {count : Nat} {cursor next : Cursor}
    (hrounds : Rounds step count cursor next) :
    ∃ word : Text, word.length = count ∧ (∀ c ∈ word, test c) ∧ cursor.Advances word next ∧
      next.captures = cursor.captures := by
  induction hrounds with
  | zero cursor => exact ⟨[], rfl, by simp, Cursor.Advances.refl cursor, rfl⟩
  | succ hfirst _ ih =>
      obtain ⟨c, hc, hadvance, hcaptures⟩ := hstep _ _ hfirst
      obtain ⟨word, hlength, htest, hword, hkept⟩ := ih
      refine ⟨c :: word, by rw [List.length_cons, hlength], ?_, hadvance.trans hword,
        hkept.trans hcaptures⟩
      intro d hd
      rcases List.mem_cons.mp hd with rfl | hlater
      · exact hc
      · exact htest d hlater

namespace PatternNode

theorem readsChar_oneOf (foldCase : Bool) (set : CharSet) :
    ReadsChar (fun c => set.holds foldCase c = true) ((PatternNode.oneOf set).Reads foldCase) := by
  rintro cursor next ⟨c, rest, hrest, hc, rfl⟩
  exact ⟨c, hc, ⟨hrest, rfl⟩, rfl⟩

theorem readsChar_any (foldCase : Bool) :
    ReadsChar (fun c => c ≠ '\n') (PatternNode.any.Reads foldCase) := by
  rintro cursor next ⟨c, rest, hrest, hc, rfl⟩
  exact ⟨c, hc, ⟨hrest, rfl⟩, rfl⟩

/-- A given character is read as itself. -/
theorem reads_literal {c : Char} {cursor next : Cursor}
    (hreads : (PatternReader.literal c).Reads false cursor next) :
    cursor.Advances [c] next ∧ next.captures = cursor.captures := by
  obtain ⟨d, hd, hadvance, hcaptures⟩ := readsChar_oneOf false _ cursor next hreads
  have hsame : d = c := by simpa [CharSet.holds, SetItem.holds] using hd
  exact ⟨hsame ▸ hadvance, hcaptures⟩

end PatternNode

/-- A match at the start of a text is one that the pattern reads from there. -/
theorem Pattern.reads_of_matchStart {pattern : Pattern} {t : Text} {found : Match}
    (hmatch : pattern.matchStart t = some found) :
    ∃ next, pattern.root.Reads pattern.foldCase { position := 0, rest := t } next ∧
      found.captures = next.captures ∧ found.groupNames = pattern.groupNames := by
  obtain ⟨final, hrun, rfl⟩ := Option.map_eq_some_iff.mp hmatch
  obtain ⟨next, hreads, haccept⟩ := PatternNode.sound_run _ _ _ _ _ hrun
  cases haccept
  exact ⟨final, hreads, rfl, rfl⟩

end UtilityCss
