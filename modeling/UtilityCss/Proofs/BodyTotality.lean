import UtilityCss.Proofs.BodyParts
import UtilityCss.Proofs.PatternSemantics

/-!
# Every body that is no group can be read

The reader takes numbers and hints out of the groups of its two patterns. Whatever they
match, the groups that it asks for have taken part, and the number of an opacity is a
numeral. Reading a body therefore fails on variant groups only.
-/

namespace UtilityCss

namespace Token

open PatternNode

/-! ## Opacities -/

/-- A numeral with at most one point, and a digit at its end. -/
def IsNumeral (t : Text) : Prop :=
  ∃ whole last : Text, last ≠ [] ∧ (∀ c ∈ whole ++ last, Text.isDecimal c = true) ∧
    (t = whole ++ last ∨ t = whole ++ '.' :: last)

theorem reads_digitsNode {cursor next : Cursor} (hreads : digitsNode.Reads false cursor next) :
    ∃ word, word ≠ [] ∧ (∀ c ∈ word, Text.isDecimal c = true) ∧ cursor.Advances word next ∧
      next.captures = cursor.captures := by
  obtain ⟨count, hcount, -, hrounds⟩ := hreads
  obtain ⟨word, hlength, htest, hadvance, hcaptures⟩ :=
    hrounds.reads_word (readsChar_oneOf false _)
  refine ⟨word, ?_, ?_, hadvance, hcaptures⟩
  · rintro rfl
    simp only [List.length_nil] at hlength
    omega
  · intro c hc
    simpa [CharSet.holds, SetItem.holds, CharKind.holds] using htest c hc

theorem reads_placesNode {cursor next : Cursor} (hreads : placesNode.Reads false cursor next) :
    ∃ word, word ≠ [] ∧ (∀ c ∈ word, Text.isDecimal c = true) ∧
      cursor.Advances ('.' :: word) next ∧ next.captures = cursor.captures := by
  obtain ⟨middle, hpoint, hdigits⟩ := hreads
  obtain ⟨hmiddle, hkept⟩ := reads_literal hpoint
  obtain ⟨word, hword, hdecimal, hadvance, hcaptures⟩ := reads_digitsNode hdigits
  exact ⟨word, hword, hdecimal, hmiddle.trans hadvance, hcaptures.trans hkept⟩

theorem reads_numberNode {cursor next : Cursor} (hreads : numberNode.Reads false cursor next) :
    ∃ numeral, IsNumeral numeral ∧ cursor.Advances numeral next ∧
      next.captures = cursor.captures := by
  rcases hreads with ⟨middle, hdigits, count, -, hbound, hrounds⟩ | hplaces
  · obtain ⟨whole, hwhole, hdecimal, hadvance, hkept⟩ := reads_digitsNode hdigits
    have hatMost : count ≤ 1 := hbound 1 rfl
    cases hrounds with
    | zero =>
        exact ⟨whole, ⟨[], whole, hwhole, hdecimal, .inl rfl⟩, hadvance, hkept⟩
    | succ hplaces hmore =>
        -- There is at most one round, so nothing follows the places.
        obtain rfl : _ = 0 := Nat.le_zero.mp (Nat.le_of_succ_le_succ hatMost)
        cases hmore
        obtain ⟨places, hne, hall, hpoint, hcaptures⟩ := reads_placesNode hplaces
        refine ⟨whole ++ '.' :: places, ⟨whole, places, hne, ?_, .inr rfl⟩,
          hadvance.trans hpoint, hcaptures.trans hkept⟩
        intro c hc
        rcases List.mem_append.mp hc with hc | hc
        · exact hdecimal c hc
        · exact hall c hc
  · obtain ⟨places, hne, hall, hpoint, hcaptures⟩ := reads_placesNode hplaces
    exact ⟨'.' :: places, ⟨[], places, hne, hall, .inr rfl⟩, hpoint, hcaptures⟩

/-- A match has a value in brackets, or none of it and a numeral. -/
theorem captures_of_opacityPattern {t : Text} {found : Match}
    (hmatch : opacityPattern.matchStart t = some found) :
    found.groupNames = opacityPattern.groupNames ∧
      ((∃ value, found.captures.lookup 3 = some value) ∨
        found.captures.lookup 3 = none ∧
          ∃ numeral, found.captures.lookup 1 = some numeral ∧ IsNumeral numeral) := by
  obtain ⟨next, hreads, hcaptures, hnames⟩ := Pattern.reads_of_matchStart hmatch
  refine ⟨hnames, ?_⟩
  rw [hcaptures]
  obtain ⟨last, ⟨first, ⟨-, rfl⟩, hchoice⟩, -, rfl⟩ := hreads
  rcases hchoice with ⟨middle, ⟨inner, hnumber, rfl⟩, count, -, hbound, hpercent⟩ |
    ⟨middle, ⟨opened, hopened, inner, hinner, rfl⟩, hclosed⟩
  · right
    obtain ⟨numeral, hnumeral, hadvance, hkept⟩ := reads_numberNode hnumber
    rw [hadvance.take_eq, hkept] at hpercent
    have hatMost : count ≤ 1 := hbound 1 rfl
    cases hpercent with
    | zero => exact ⟨rfl, numeral, rfl, hnumeral⟩
    | succ hsign hmore =>
        obtain rfl : _ = 0 := Nat.le_zero.mp (Nat.le_of_succ_le_succ hatMost)
        cases hmore
        obtain ⟨sign, hsign, rfl⟩ := hsign
        obtain ⟨-, hsignKept⟩ := reads_literal hsign
        rw [hsignKept]
        exact ⟨rfl, numeral, rfl, hnumeral⟩
  · left
    obtain ⟨-, hclosedKept⟩ := reads_literal hclosed
    rw [hclosedKept]
    exact ⟨_, rfl⟩

theorem cutFirst?_of_not_mem {c : Char} {t : Text} (hc : c ∉ t) : Text.cutFirst? c t = none := by
  induction t with
  | nil => rfl
  | cons d rest ih =>
      simp only [List.mem_cons, not_or] at hc
      simp [Text.cutFirst?, Ne.symm hc.1, ih hc.2]

theorem cutFirst?_append {c : Char} {before : Text} (hc : c ∉ before) (after : Text) :
    Text.cutFirst? c (before ++ c :: after) = some (before, after) := by
  induction before with
  | nil => simp [Text.cutFirst?]
  | cons d rest ih =>
      simp only [List.mem_cons, not_or] at hc
      simp [Text.cutFirst?, Ne.symm hc.1, ih hc.2]

theorem digitValues?_isSome {t : Text} (ht : ∀ c ∈ t, Text.isDecimal c = true) :
    ∃ values, Text.digitValues? t = some values := by
  induction t with
  | nil => exact ⟨[], rfl⟩
  | cons c rest ih =>
      obtain ⟨value, hvalue⟩ := Option.isSome_iff_exists.mp (ht c List.mem_cons_self)
      obtain ⟨values, hvalues⟩ := ih fun d hd => ht d (List.mem_cons_of_mem c hd)
      exact ⟨value :: values, by simp_all [Text.digitValues?]⟩

/-- A numeral denotes a decimal. -/
theorem decimal?_of_isNumeral {t : Text} (ht : IsNumeral t) :
    ∃ number, decimal? t = some number := by
  obtain ⟨whole, last, hlast, hdecimal, hshape⟩ := ht
  have hpoint : '.' ∉ whole ++ last := by
    intro hmem
    exact absurd (hdecimal '.' hmem) (by decide +kernel)
  obtain ⟨values, hvalues⟩ := digitValues?_isSome hdecimal
  rcases hshape with rfl | rfl
  · simp [decimal?, cutFirst?_of_not_mem hpoint, hvalues, hlast]
  · have hwhole : '.' ∉ whole := fun hmem => hpoint (List.mem_append_left last hmem)
    simp [decimal?, cutFirst?_append hwhole, hvalues, hlast]

theorem readShare_of_isNumeral {numeral : Text} (hnumeral : IsNumeral numeral) (percent : Bool) :
    ∃ share, readShare numeral percent = .ok share := by
  obtain ⟨⟨digits, places⟩, hdecimal⟩ := decimal?_of_isNumeral hnumeral
  rw [readShare, hdecimal]
  exact ⟨_, rfl⟩

section Settled

variable (more : List Lookup)

/-- Every text that the pattern matches is an opacity, or has a blank value. -/
theorem settles_readOpacity (modifier : Text) :
    ∃ opacity, Settles (PatternCache.Faithful (lookups ++ more)) (readOpacity modifier)
      (.ok opacity) := by
  have hfetch := settles_opacityPattern more
  cases hmatch : opacityPattern.matchStart modifier with
  | none =>
      refine ⟨none, hfetch.bind_ok ?_⟩
      simp only [hmatch]
      exact Settles.pure none
  | some found =>
      obtain ⟨hnames, hgroups⟩ := captures_of_opacityPattern hmatch
      have hnamed (name : Text) (index : Nat)
          (hindex : opacityPattern.groupNames.get? name = some (index + 1)) :
          found.named name = .ok (found.captures.lookup (index + 1)) := by
        simp [Match.named, hnames, hindex, Match.group?]
      have harbitrary := hnamed "arbitrary" 2 rfl
      rcases hgroups with ⟨value, hvalue⟩ | ⟨hnone, numeral, hnumber, hnumeral⟩
      · rw [hvalue] at harbitrary
        refine ⟨if Text.trim value = [] then none else some (.verbatim value),
          hfetch.bind_ok ?_⟩
        simp only [hmatch, harbitrary]
        exact (Settles.lift _).bind_ok (Settles.pure _)
      · rw [hnone] at harbitrary
        have htext : found.text "number" = .ok numeral := by
          rw [Match.text, hnamed "number" 0 rfl, hnumber]
          rfl
        have hpercent := hnamed "percent" 1 rfl
        obtain ⟨share, hshare⟩ :=
          readShare_of_isNumeral hnumeral ((found.captures.lookup 2).any (· ≠ []))
        refine ⟨some (.share share), hfetch.bind_ok ?_⟩
        simp only [hmatch, harbitrary, htext, hpercent]
        refine (Settles.lift _).bind_ok ((Settles.lift _).bind_ok ((Settles.lift _).bind_ok ?_))
        simp only [hshare]
        exact (Settles.lift _).bind_ok (Settles.pure _)

theorem settles_readModifier (body : Text) (start : Nat) :
    ∃ found, Settles (PatternCache.Faithful (lookups ++ more)) (readModifier body start)
      (.ok found) := by
  unfold readModifier
  cases modifierSlash? body start with
  | none => exact ⟨none, Settles.pure none⟩
  | some slash =>
      obtain ⟨opacity, hopacity⟩ := settles_readOpacity more (body.drop (slash + 1))
      exact ⟨_, hopacity.bind_ok (Settles.pure _)⟩

end Settled

/-! ## Type hints -/

/-- A match is a hint, a colon and a value, behind which a newline may stand. -/
theorem captures_of_hintPattern {t : Text} {found : Match}
    (hmatch : hintPattern.matchStart t = some found) :
    found.groupNames = hintPattern.groupNames ∧
      ∃ hint value finish, found.captures.lookup 1 = some hint ∧
        found.captures.lookup 2 = some value ∧ t = hint ++ ':' :: (value ++ finish) ∧
        (finish = [] ∨ finish = ['\n']) := by
  obtain ⟨next, hreads, hcaptures, hnames⟩ := Pattern.reads_of_matchStart hmatch
  refine ⟨hnames, ?_⟩
  rw [hcaptures]
  obtain ⟨last, ⟨behindColon, ⟨behindHint, ⟨first, ⟨-, rfl⟩, hintEnd,
    ⟨behindLetter, hletter, letters, -, -, hletters⟩, rfl⟩, hcolon⟩,
    ⟨inner, ⟨ahead, hahead, count, -, -, hrounds⟩, rfl⟩⟩, hfinish, rfl⟩ := hreads
  obtain ⟨c, -, hfirst, -⟩ := readsChar_oneOf false _ _ _ hletter
  obtain ⟨word, -, -, hword, -⟩ := hletters.reads_word (readsChar_oneOf false _)
  obtain ⟨hcolonRead, hcolonKept⟩ := reads_literal hcolon
  obtain ⟨value, -, -, hvalue, hvalueKept⟩ := hrounds.reads_word (readsChar_any false)
  have hsame : ahead = behindColon := hahead
  subst hsame
  have hhint := hfirst.trans hword
  refine ⟨[c] ++ word, value, inner.rest, ?_, ?_, ?_, by simpa [Cursor.atFinish] using hfinish⟩
  · dsimp only
    rw [hvalueKept, hcolonKept, hhint.take_eq]
    rfl
  · dsimp only
    rw [hvalue.take_eq]
    rfl
  · have hrest := hhint.rest
    have hbehind := hcolonRead.rest
    dsimp only at hrest hbehind
    rw [hrest, hbehind, hvalue.rest]
    rfl

/-- The reading of a payload is what stands between the brackets. Behind a dash, it may be what
follows a hint and a colon there, without a newline at the end. -/
def PayloadReading.IsOf (reading : PayloadReading) (start : Nat) (inner : Text) : Prop :=
  match reading.typeHint with
  | none => inner = reading.payload
  | some hint => start ≠ 0 ∧ ∃ finish, inner = hint ++ ':' :: (reading.payload ++ finish) ∧
      (finish = [] ∨ finish = ['\n'])

/-- A payload is read where brackets of one are found. -/
def PayloadOf (body : Text) : Option PayloadReading → Prop
  | none => payloadSpan? body = none
  | some reading => ∃ start, payloadSpan? body = some (start, reading.close) ∧
      reading.IsOf start ((body.take reading.close).drop (start + 1))

theorem settles_readPayload (more : List Lookup) (body : Text) :
    ∃ payload, PayloadOf body payload ∧
      Settles (PatternCache.Faithful (lookups ++ more)) (readPayload body) (.ok payload) := by
  unfold readPayload
  cases hspan : payloadSpan? body with
  | none => exact ⟨none, hspan, Settles.pure none⟩
  | some span =>
      obtain ⟨start, close⟩ := span
      have hfetch := settles_hintPattern more
      let inner := (body.take close).drop (start + 1)
      have hplain : PayloadOf body (some ⟨inner, none, close⟩) := ⟨start, hspan, rfl⟩
      cases hmatch : hintPattern.matchStart inner with
      | none =>
          refine ⟨some ⟨inner, none, close⟩, hplain, hfetch.bind_ok ?_⟩
          simp only [inner] at hmatch ⊢
          simp only [hmatch]
          exact Settles.pure _
      | some found =>
          obtain ⟨hnames, hint, value, finish, hhint, hvalue, hinner, hfinish⟩ :=
            captures_of_hintPattern hmatch
          have htext (name : Text) (index : Nat) (text : Text)
              (hindex : hintPattern.groupNames.get? name = some (index + 1))
              (hgroup : found.captures.lookup (index + 1) = some text) :
              found.text name = .ok text := by
            simp [Match.text, Match.named, hnames, hindex, Match.group?, hgroup, ok_bind]
          by_cases hstart : start = 0
          · refine ⟨some ⟨inner, none, close⟩, hplain, hfetch.bind_ok ?_⟩
            simp only [inner] at hmatch ⊢
            simp only [hmatch, if_pos hstart]
            exact Settles.pure _
          · refine ⟨some ⟨value, some hint, close⟩,
              ⟨start, hspan, hstart, finish, hinner, hfinish⟩, hfetch.bind_ok ?_⟩
            simp only [inner] at hmatch
            simp only [hmatch, if_neg hstart, htext "value" 1 value rfl hvalue,
              htext "hint" 0 hint rfl hhint]
            exact (Settles.lift _).bind_ok ((Settles.lift _).bind_ok (Settles.pure _))

/-! ## Bodies -/

/-- A body that is no variant group can be read. -/
theorem exists_bodyAnswer (raw : Text) (variants : List Text) (important : Bool) {t : Text}
    (hgroup : isGroup t = false) : ∃ token, bodyAnswer raw variants important t = .ok token := by
  obtain ⟨payload, -, hpayload⟩ := settles_readPayload [] (splitNegative t).2
  obtain ⟨found, hfound⟩ :=
    settles_readModifier [] (splitNegative t).2 (payload.elim 0 (·.close + 1))
  refine ⟨ofParts raw variants important (splitNegative t).1 (splitNegative t).2 payload found, ?_⟩
  have hbody : Settles (PatternCache.Faithful (lookups ++ []))
      (readBody raw variants important t)
      (.ok (ofParts raw variants important (splitNegative t).1 (splitNegative t).2 payload
        found)) := by
    rw [readBody, hgroup]
    exact hpayload.bind_ok (hfound.bind_ok (Settles.pure _))
  exact (hbody {} (PatternCache.faithful_empty _)).1

end Token

end UtilityCss
