import UtilityCss.Proofs.TokenReading

/-!
# What a body is taken apart into

Reading a body finds a payload and a modifier in the text alone; the class name, the
variants and the mark of importance pass through. Nothing of the text is lost: the full
body behind its minus sign is the text that was read.
-/

namespace UtilityCss

namespace Token

/-- A text that a minus sign may stand before. -/
def signed (negative : Bool) (t : Text) : Text := if negative then '-' :: t else t

theorem suffix_signed (negative : Bool) (t : Text) : t <:+ signed negative t := by
  cases negative
  · exact List.suffix_refl t
  · exact List.suffix_cons '-' t

theorem signed_splitNegative (t : Text) : signed (splitNegative t).1 (splitNegative t).2 = t := by
  unfold splitNegative
  split
  · split <;> rfl
  · rfl

/-- The last slash found is a slash at or after the position where the search begins. -/
theorem lastSlash?_spec {depth position slash : Nat} {t : Text}
    (hslash : lastSlash? depth position t = some slash) :
    position ≤ slash ∧ t[slash - position]? = some '/' := by
  induction t generalizing depth position with
  | nil => cases hslash
  | cons c rest ih =>
      simp only [lastSlash?, Option.orElse_eq_or, Option.or_eq_some_iff] at hslash
      rcases hslash with hlater | ⟨-, hhere⟩
      · obtain ⟨hle, hget⟩ := ih hlater
        obtain ⟨distance, rfl⟩ := Nat.exists_eq_add_of_le hle
        refine ⟨by omega, ?_⟩
        have hdistance : position + 1 + distance - position = distance + 1 := by omega
        rw [Nat.add_sub_cancel_left] at hget
        rw [hdistance, List.getElem?_cons_succ, hget]
      · split at hhere
        next hc =>
          cases hhere
          simp only [Bool.and_eq_true, decide_eq_true_eq] at hc
          simp [hc.1]
        next => cases hhere

/-- A modifier that was found stands behind a slash of the body, at or after the position where
the search begins. -/
def FoundIn (body : Text) (start : Nat) (found : Option (Nat × Opacity)) : Prop :=
  ∀ place ∈ found, start ≤ place.1 ∧ body[place.1]? = some '/'

theorem foundIn_of_readModifier {body : Text} {start : Nat} {cache : PatternCache}
    {found : Option (Nat × Opacity)} (hrun : (readModifier body start cache).1 = .ok found) :
    FoundIn body start found := by
  unfold readModifier at hrun
  cases hslash : modifierSlash? body start with
  | none =>
      rw [hslash] at hrun
      cases hrun
      simp [FoundIn]
  | some slash =>
      simp only [hslash] at hrun
      obtain ⟨opacity, after, -, hfound⟩ := run_bind_eq_ok hrun
      cases hfound
      intro place hplace
      obtain ⟨_, _, rfl⟩ := Option.map_eq_some_iff.mp hplace
      obtain ⟨hlast, -⟩ := Option.filter_eq_some_iff.mp hslash
      obtain ⟨hle, hget⟩ := lastSlash?_spec hlast
      rw [List.getElem?_drop, Nat.add_sub_cancel' hle] at hget
      exact ⟨hle, hget⟩

/-- Splitting a modifier off a body loses the slash between them only. -/
theorem fullBody_ofParts (raw : Text) (variants : List Text) (important negative : Bool)
    {body : Text} (payload : Option PayloadReading) {start : Nat}
    {found : Option (Nat × Opacity)} (hfound : FoundIn body start found) :
    (ofParts raw variants important negative body payload found).fullBody = body := by
  cases found with
  | none => rfl
  | some place =>
      obtain ⟨hlength, hget⟩ := List.getElem?_eq_some_iff.mp (hfound place rfl).2
      have hdrop := List.drop_eq_getElem_cons hlength
      rw [hget] at hdrop
      change body.take place.1 ++ '/' :: body.drop (place.1 + 1) = body
      rw [← hdrop, List.take_append_drop]

/-- Where brackets of a payload are found, a payload is read. -/
theorem payloadSpan?_of_readPayload {body : Text} {cache : PatternCache}
    (hrun : (readPayload body cache).1 = .ok none) : payloadSpan? body = none := by
  unfold readPayload at hrun
  cases hspan : payloadSpan? body with
  | none => rfl
  | some span =>
      rw [hspan] at hrun
      obtain ⟨pattern, after, -, hrun⟩ := run_bind_eq_ok hrun
      cases hmatch : pattern.matchStart ((body.take span.2).drop (span.1 + 1)) with
      | none =>
          simp only [hmatch] at hrun
          cases hrun
      | some found =>
          simp only [hmatch] at hrun
          split at hrun
          · cases hrun
          · obtain ⟨value, _, -, hrun⟩ := run_bind_eq_ok hrun
            obtain ⟨hint, _, -, hrun⟩ := run_bind_eq_ok hrun
            cases hrun

/-- A body that can be read is read with the same parts under every class name, behind all
variants and with or without a mark of importance. -/
theorem exists_ofParts_of_bodyAnswer {raw t : Text} {variants : List Text} {important : Bool}
    {token : Token} (hanswer : bodyAnswer raw variants important t = .ok token) :
    ∃ payload found, FoundIn (splitNegative t).2 (payload.elim 0 (·.close + 1)) found ∧
      (readPayload (splitNegative t).2 {}).1 = .ok payload ∧
      ∀ raw variants important, bodyAnswer raw variants important t =
        .ok (ofParts raw variants important (splitNegative t).1 (splitNegative t).2 payload
          found) := by
  cases hgroup : isGroup t with
  | true =>
      rw [bodyAnswer, readBody, if_pos hgroup] at hanswer
      cases hanswer
  | false =>
      have hsteps (raw variants important) : readBody raw variants important t = (do
          let payload ← readPayload (splitNegative t).2
          let found ← readModifier (splitNegative t).2 (payload.elim 0 (·.close + 1))
          return ofParts raw variants important (splitNegative t).1 (splitNegative t).2 payload
            found) := by
        rw [readBody, hgroup]
        rfl
      rw [bodyAnswer, hsteps] at hanswer
      obtain ⟨payload, cache, hpayload, hafter⟩ := run_bind_eq_ok hanswer
      obtain ⟨found, after, hmodifier, -⟩ := run_bind_eq_ok hafter
      refine ⟨payload, found, foundIn_of_readModifier (congrArg Prod.fst hmodifier),
        congrArg Prod.fst hpayload, ?_⟩
      intro raw variants important
      rw [bodyAnswer, hsteps, run_bind, hpayload]
      dsimp only
      rw [run_bind, hmodifier]
      rfl

/-- What a reading of a body passes through, and the text put together again, whatever the
cache holds. -/
theorem parts_of_readBody {raw t : Text} {variants : List Text} {important : Bool}
    {cache : PatternCache} {token : Token}
    (hrun : (readBody raw variants important t cache).1 = .ok token) :
    token.raw = raw ∧ token.variants = variants ∧ token.important = important ∧
      signed token.negative token.fullBody = t := by
  unfold readBody at hrun
  split at hrun
  · cases hrun
  · obtain ⟨payload, _, -, hrun⟩ := run_bind_eq_ok hrun
    obtain ⟨found, _, hmodifier, hrun⟩ := run_bind_eq_ok hrun
    have hfound := foundIn_of_readModifier (congrArg Prod.fst hmodifier)
    cases hrun
    refine ⟨rfl, rfl, rfl, ?_⟩
    rw [fullBody_ofParts _ _ _ _ _ hfound]
    exact signed_splitNegative t

theorem parts_of_bodyAnswer {raw t : Text} {variants : List Text} {important : Bool}
    {token : Token} (hanswer : bodyAnswer raw variants important t = .ok token) :
    token.raw = raw ∧ token.variants = variants ∧ token.important = important ∧
      signed token.negative token.fullBody = t :=
  parts_of_readBody hanswer

/-- A token keeps the class name that it was read from. -/
theorem raw_of_readAnswer {accepts : Text → Except Error Bool} {raw : Text} {token : Token}
    (hread : readAnswer accepts raw = .ok token) : token.raw = raw := by
  obtain ⟨split, -, hbody⟩ := bind_eq_ok hread
  exact (parts_of_bodyAnswer hbody).1

/-- A token without a payload has no brackets of one. -/
theorem payloadSpan?_of_readAnswer {accepts : Text → Except Error Bool} {raw : Text} {token : Token}
    (hread : readAnswer accepts raw = .ok token) (hpayload : token.payload = none) :
    payloadSpan? token.fullBody = none := by
  obtain ⟨split, -, hbody⟩ := bind_eq_ok hread
  obtain ⟨payload, found, hfound, hrun, hall⟩ := exists_ofParts_of_bodyAnswer hbody
  rw [hall] at hbody
  cases hbody
  rw [fullBody_ofParts _ _ _ _ _ hfound]
  rw [Option.map_eq_none_iff.mp hpayload] at hrun
  exact payloadSpan?_of_readPayload hrun

/-- A body reads the same under another class name. -/
theorem bodyAnswer_rename {raw t : Text} {variants : List Text} {important : Bool} {token : Token}
    (hanswer : bodyAnswer raw variants important t = .ok token) (name : Text) :
    bodyAnswer name variants important t = .ok { token with raw := name } := by
  obtain ⟨payload, found, -, -, hall⟩ := exists_ofParts_of_bodyAnswer hanswer
  rw [hall] at hanswer
  cases hanswer
  exact hall name variants important

end Token

end UtilityCss
