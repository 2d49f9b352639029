import UtilityCss.Proofs.AssembledNames
import UtilityCss.Proofs.BodyTotality

/-!
# Which payload a body has

The payload of a body stands between a bracket and the one that closes it, which is found by
counting: the text between the two opens as many brackets as it closes, and nowhere closes one
that it has not opened. The first bracket begins the body or follows the first dash that has a
bracket behind it. A body has at most one such pair of brackets, and a payload is read exactly if
it has one. Behind a dash a type hint is taken off; a modifier is looked for behind the brackets.
-/

namespace UtilityCss

namespace Text

/-- The place that is found is the first one at which the part stands. -/
theorem find?_eq_some_iff {part t : Text} {place : Nat} :
    find? part t = some place ↔
      ∃ before after, t = before ++ (part ++ after) ∧ before.length = place ∧
        ∀ other rest, t = other ++ (part ++ rest) → place ≤ other.length := by
  induction t generalizing place with
  | nil =>
      rw [find?]
      split
      next hpart =>
        subst hpart
        constructor
        · intro hplace
          cases hplace
          exact ⟨[], [], rfl, rfl, fun _ _ _ => Nat.zero_le _⟩
        · rintro ⟨before, after, ht, rfl, -⟩
          rw [(List.append_eq_nil_iff.mp ht.symm).1]
          rfl
      next hpart =>
        constructor
        · intro hplace
          cases hplace
        · rintro ⟨before, after, ht, -, -⟩
          exact absurd (List.append_eq_nil_iff.mp (List.append_eq_nil_iff.mp ht.symm).2).1 hpart
  | cons c rest ih =>
      rw [find?]
      split
      next hprefix =>
        obtain ⟨after, hafter⟩ := List.isPrefixOf_iff_prefix.mp hprefix
        constructor
        · intro hplace
          cases hplace
          exact ⟨[], after, hafter.symm, rfl, fun _ _ _ => Nat.zero_le _⟩
        · rintro ⟨-, -, -, -, hfirst⟩
          rw [Nat.le_zero.mp (hfirst [] after hafter.symm)]
      next hprefix =>
        -- The part does not stand at the start, so every text before it begins with `c`.
        have hlater {before after : Text} (ht : c :: rest = before ++ (part ++ after)) :
            ∃ others, before = c :: others ∧ rest = others ++ (part ++ after) := by
          cases before with
          | nil => exact absurd (List.isPrefixOf_iff_prefix.mpr ⟨after, ht.symm⟩) hprefix
          | cons d others =>
              obtain ⟨rfl, hrest⟩ := List.cons.inj ht
              exact ⟨others, rfl, hrest⟩
        rw [Option.map_eq_some_iff]
        constructor
        · rintro ⟨place, hplace, rfl⟩
          obtain ⟨before, after, rfl, rfl, hfirst⟩ := ih.mp hplace
          refine ⟨c :: before, after, rfl, rfl, ?_⟩
          intro other others ht
          obtain ⟨other, rfl, hrest⟩ := hlater ht
          exact Nat.succ_le_succ (hfirst other others hrest)
        · rintro ⟨before, after, ht, rfl, hfirst⟩
          obtain ⟨before, rfl, hrest⟩ := hlater ht
          refine ⟨before.length, ih.mpr ⟨before, after, hrest, rfl, ?_⟩, rfl⟩
          rintro other others rfl
          exact Nat.le_of_succ_le_succ (hfirst (c :: other) others rfl)

end Text

/-! ## Balanced brackets -/

namespace Brackets

/-- A text read behind a number of open brackets closes all of them and those it opens, and at
no place more than are open. -/
def Closes (opened : Nat) (t : Text) : Prop :=
  t.count ']' = t.count '[' + opened ∧
    ∀ front, front <+: t → front.count ']' ≤ front.count '[' + opened

/-- A text has the closing bracket of each bracket that it opens, and no other ones. -/
def Balanced (t : Text) : Prop :=
  t.count '[' = t.count ']' ∧ ∀ front, front <+: t → front.count ']' ≤ front.count '['

theorem closes_zero {t : Text} : Closes 0 t ↔ Balanced t := by
  rw [Closes, Balanced, Nat.add_zero, eq_comm]
  rfl

theorem closes_nil {opened : Nat} : Closes opened [] ↔ opened = 0 := by
  simp [Closes, eq_comm]

theorem prefixes_cons {c : Char} {t : Text} {p : Text → Prop} :
    (∀ front, front <+: c :: t → p front) ↔ p [] ∧ ∀ front, front <+: t → p (c :: front) := by
  constructor
  · intro hall
    refine ⟨hall [] List.nil_prefix, ?_⟩
    intro front hfront
    exact hall _ (List.cons_prefix_cons.mpr ⟨rfl, hfront⟩)
  · rintro ⟨hnil, hcons⟩ front hfront
    cases front with
    | nil => exact hnil
    | cons d front =>
        obtain ⟨rfl, hrest⟩ := List.cons_prefix_cons.mp hfront
        exact hcons front hrest

theorem closes_open {opened : Nat} {t : Text} :
    Closes opened ('[' :: t) ↔ Closes (opened + 1) t := by
  simp only [Closes, prefixes_cons]
  simp [Nat.add_right_comm, Nat.add_assoc]

theorem closes_close {opened : Nat} {t : Text} :
    Closes (opened + 1) (']' :: t) ↔ Closes opened t := by
  simp only [Closes, prefixes_cons]
  simp [← Nat.add_assoc]

theorem not_closes_close {t : Text} : ¬ Closes 0 (']' :: t) := by
  intro hcloses
  have hfirst := hcloses.2 [']'] (List.prefix_append [']'] t)
  simp at hfirst

theorem closes_cons {opened : Nat} {c : Char} (hopen : c ≠ '[') (hclose : c ≠ ']') {t : Text} :
    Closes opened (c :: t) ↔ Closes opened t := by
  simp only [Closes, prefixes_cons]
  simp [hopen, hclose]

/-- A bracket that stands behind some text is the first character, or stands behind it. -/
theorem exists_before_cons {c d : Char} {t : Text} {p : Text → Prop} :
    (∃ inner behind, c :: t = inner ++ d :: behind ∧ p inner) ↔
      c = d ∧ p [] ∨ ∃ inner behind, t = inner ++ d :: behind ∧ p (c :: inner) := by
  constructor
  · rintro ⟨inner, behind, ht, hp⟩
    cases inner with
    | nil => exact .inl ⟨(List.cons.inj ht).1, hp⟩
    | cons e inner =>
        obtain ⟨rfl, hrest⟩ := List.cons.inj ht
        exact .inr ⟨inner, behind, hrest, hp⟩
  · rintro (⟨rfl, hp⟩ | ⟨inner, behind, rfl, hp⟩)
    · exact ⟨[], t, rfl, hp⟩
    · exact ⟨c :: inner, behind, rfl, hp⟩

/-- The bracket that is found closes the outermost of the open ones. -/
theorem closingFrom_eq_some_iff {opened position close : Nat} {t : Text} :
    closingFrom (opened + 1) position t = some close ↔
      ∃ inner behind, t = inner ++ ']' :: behind ∧ Closes opened inner ∧
        position + inner.length = close := by
  induction t generalizing opened position with
  | nil => simp [closingFrom]
  | cons c rest ih =>
      rw [exists_before_cons, closingFrom]
      have hmoved (inner : Text) :
          position + (c :: inner).length = position + 1 + inner.length := by
        rw [List.length_cons, Nat.add_assoc, Nat.add_comm 1]
      simp only [hmoved]
      by_cases hopen : c = '['
      · subst hopen
        rw [if_pos rfl]
        simpa [closes_open] using @ih (opened + 1) (position + 1)
      · rw [if_neg hopen]
        by_cases hclose : c = ']'
        · subst hclose
          rw [if_pos rfl]
          cases opened with
          | zero => simp [not_closes_close, closes_nil]
          | succ opened =>
              have hmore : ¬ ((opened + 1 : Nat) : Int) + 1 = 1 := by omega
              rw [if_neg hmore]
              simpa [closes_close, closes_nil] using @ih opened (position + 1)
        · rw [if_neg hclose, ih]
          simp [closes_cons hopen hclose, hclose]

theorem closingBracket?_eq_some_iff {front rest : Text} {close : Nat} :
    closingBracket? (front ++ '[' :: rest) front.length = some close ↔
      ∃ inner behind, rest = inner ++ ']' :: behind ∧ Balanced inner ∧
        front.length + 1 + inner.length = close := by
  rw [closingBracket?, List.drop_left, closingFrom, if_pos rfl]
  simpa [closes_zero] using @closingFrom_eq_some_iff 0 (front.length + 1) close rest

end Brackets

/-! ## The brackets of a payload -/

namespace Token

/-- The text before the brackets of a payload: there is none, or it ends with the first dash of
the body that is followed by a bracket, and the body does not begin with one. -/
def IsLead (body front : Text) : Prop :=
  front = [] ∨ body.head? ≠ some '[' ∧ ∃ before, front = before ++ ['-'] ∧
    ∀ other rest, body = other ++ '-' :: '[' :: rest → before.length ≤ other.length

/-- A body has brackets with a payload between them: they close as they should, something
between them is not blank, and nothing but a slash follows. -/
structure Bracketed (body front inner behind : Text) : Prop where
  eq : body = front ++ '[' :: (inner ++ ']' :: behind)
  lead : IsLead body front
  balanced : Brackets.Balanced inner
  filled : ∃ c ∈ inner, Text.isBlank c = false
  ends : behind = [] ∨ behind.head? = some '/'

theorem payloadStart?_eq_some_iff {body : Text} {start : Nat} :
    payloadStart? body = some start ↔
      ∃ front rest, body = front ++ '[' :: rest ∧ IsLead body front ∧ front.length = start := by
  have hbegins : Text.startsWith body "[" = true ↔ ∃ rest, body = '[' :: rest := by
    rw [Text.startsWith, List.isPrefixOf_iff_prefix]
    exact ⟨fun ⟨rest, hrest⟩ => ⟨rest, hrest.symm⟩, fun ⟨rest, hrest⟩ => ⟨rest, hrest.symm⟩⟩
  rw [payloadStart?]
  split
  next hbegin =>
    obtain ⟨rest, rfl⟩ := hbegins.mp hbegin
    constructor
    · intro hstart
      cases hstart
      exact ⟨[], rest, rfl, .inl rfl, rfl⟩
    · rintro ⟨front, others, -, rfl | ⟨hhead, -⟩, rfl⟩
      · rfl
      · exact absurd rfl hhead
  next hbegin =>
    rw [Option.map_eq_some_iff]
    constructor
    · rintro ⟨place, hplace, rfl⟩
      obtain ⟨before, rest, hbody, rfl, hfirst⟩ := Text.find?_eq_some_iff.mp hplace
      refine ⟨before ++ ['-'], rest, ?_, .inr ⟨?_, before, rfl, hfirst⟩, ?_⟩
      · rw [hbody, List.append_assoc]
        rfl
      · intro hhead
        obtain ⟨others, hothers⟩ := List.head?_eq_some_iff.mp hhead
        exact hbegin (hbegins.mpr ⟨others, hothers⟩)
      · rw [List.length_append]
        rfl
    · rintro ⟨front, rest, hbody, rfl | ⟨-, before, rfl, hfirst⟩, rfl⟩
      · exact absurd (hbegins.mpr ⟨rest, hbody⟩) hbegin
      · refine ⟨before.length, Text.find?_eq_some_iff.mpr ⟨before, rest, ?_, rfl, hfirst⟩, ?_⟩
        · rw [hbody, List.append_assoc]
          rfl
        · rw [List.length_append]
          rfl

/-- The text between two brackets, and the text behind them. -/
theorem between_brackets (front inner behind : Text) :
    ((front ++ '[' :: (inner ++ ']' :: behind)).take (front.length + 1 + inner.length)).drop
        (front.length + 1) = inner ∧
      (front ++ '[' :: (inner ++ ']' :: behind)).drop (front.length + 1 + inner.length + 1) =
        behind := by
  have hopen : (front ++ '[' :: (inner ++ ']' :: behind)).drop (front.length + 1) =
      inner ++ ']' :: behind := by
    rw [List.append_cons]
    exact List.drop_left' (by simp)
  constructor
  · rw [List.drop_take, hopen, Nat.add_sub_cancel_left]
    exact List.take_left' rfl
  · rw [Nat.add_assoc, ← List.drop_drop, hopen, List.append_cons]
    exact List.drop_left' (by simp)

/-- What is asked of brackets that close. -/
theorem payloadSpan?_of_closing {front inner behind : Text}
    (hstart : payloadStart? (front ++ '[' :: (inner ++ ']' :: behind)) = some front.length)
    (hclose : Brackets.closingBracket? (front ++ '[' :: (inner ++ ']' :: behind)) front.length =
      some (front.length + 1 + inner.length)) (span : Nat × Nat) :
    payloadSpan? (front ++ '[' :: (inner ++ ']' :: behind)) = some span ↔
      (behind = [] ∨ behind.head? = some '/') ∧ (∃ c ∈ inner, Text.isBlank c = false) ∧
        span = (front.length, front.length + 1 + inner.length) := by
  obtain ⟨hbetween, hbehind⟩ := between_brackets front inner behind
  have hends : (decide (behind ≠ []) && !Text.startsWith behind "/") = true ↔
      ¬ (behind = [] ∨ behind.head? = some '/') := by
    cases behind with
    | nil => simp
    | cons c behind =>
        rw [List.head?_cons, Option.some_inj, @eq_comm _ c]
        simp [Text.startsWith, List.isPrefixOf]
  have hblank : Text.trim inner = [] ↔ ¬ ∃ c ∈ inner, Text.isBlank c = false := by
    simp [Text.trim_eq_nil_iff]
  rw [payloadSpan?, hstart]
  simp only [Option.bind_eq_bind, Option.bind_some, hclose, hbetween, hbehind, hends, hblank]
  split
  next hother => simp [hother]
  next hends =>
    split
    next hother => simp [hother]
    next hfilled =>
      simp only [not_not] at hends hfilled
      rw [Option.some_inj, @eq_comm _ _ span]
      simp [hends, hfilled]

/-- The brackets that are found are those of a payload. -/
theorem payloadSpan?_eq_some_iff {body : Text} {start close : Nat} :
    payloadSpan? body = some (start, close) ↔
      ∃ front inner behind, Bracketed body front inner behind ∧ front.length = start ∧
        front.length + 1 + inner.length = close := by
  constructor
  · intro hspan
    obtain ⟨place, hstart, hrest⟩ := Option.bind_eq_some_iff.mp hspan
    obtain ⟨closing, hclose, -⟩ := Option.bind_eq_some_iff.mp hrest
    obtain ⟨front, rest, rfl, hlead, rfl⟩ := payloadStart?_eq_some_iff.mp hstart
    obtain ⟨inner, behind, rfl, hinner, rfl⟩ := Brackets.closingBracket?_eq_some_iff.mp hclose
    obtain ⟨hends, hfilled, hplaces⟩ := (payloadSpan?_of_closing hstart hclose _).mp hspan
    cases hplaces
    exact ⟨front, inner, behind, ⟨rfl, hlead, hinner, hfilled, hends⟩, rfl, rfl⟩
  · rintro ⟨front, inner, behind, ⟨rfl, hlead, hinner, hfilled, hends⟩, rfl, rfl⟩
    have hstart := payloadStart?_eq_some_iff.mpr ⟨front, _, rfl, hlead, rfl⟩
    apply (payloadSpan?_of_closing hstart _ _).mpr ⟨hends, hfilled, rfl⟩
    exact Brackets.closingBracket?_eq_some_iff.mpr ⟨inner, behind, rfl, hinner, rfl⟩

/-! ## Reading -/

/-- A payload is read exactly from a body that has brackets of one. -/
theorem PayloadOf.isSome_iff {body : Text} {payload : Option PayloadReading}
    (hpayload : PayloadOf body payload) :
    payload.isSome ↔ ∃ front inner behind, Bracketed body front inner behind := by
  cases payload with
  | none =>
      have hnone : payloadSpan? body = none := hpayload
      constructor
      · intro hsome
        cases hsome
      · rintro ⟨front, inner, behind, hbrackets⟩
        rw [payloadSpan?_eq_some_iff.mpr ⟨front, inner, behind, hbrackets, rfl, rfl⟩] at hnone
        cases hnone
  | some reading =>
      obtain ⟨start, hspan, -⟩ := hpayload
      obtain ⟨front, inner, behind, hbrackets, -, -⟩ := payloadSpan?_eq_some_iff.mp hspan
      exact ⟨fun _ => ⟨front, inner, behind, hbrackets⟩, fun _ => rfl⟩

/-- The reading is of the text between the brackets, and stops behind them. -/
theorem PayloadOf.isOf_of_bracketed {body front inner behind : Text} {reading : PayloadReading}
    (hpayload : PayloadOf body (some reading)) (hbrackets : Bracketed body front inner behind) :
    reading.IsOf front.length inner ∧ body.drop (reading.close + 1) = behind := by
  obtain ⟨start, hspan, hreading⟩ := hpayload
  rw [payloadSpan?_eq_some_iff.mpr ⟨front, inner, behind, hbrackets, rfl, rfl⟩] at hspan
  obtain ⟨rfl, hclose⟩ := Prod.mk.inj (Option.some.inj hspan)
  obtain ⟨hbetween, hbehind⟩ := between_brackets front inner behind
  rw [← hbrackets.eq, hclose] at hbetween hbehind
  rw [hbetween] at hreading
  exact ⟨hreading, hbehind⟩

/-- Without a newline, a hint, a colon and the payload are all of the text. -/
theorem PayloadReading.IsOf.hinted {reading : PayloadReading} {start : Nat} {inner hint : Text}
    (hreading : reading.IsOf start inner) (hline : '\n' ∉ inner)
    (hhint : reading.typeHint = some hint) :
    start ≠ 0 ∧ inner = hint ++ ':' :: reading.payload := by
  unfold IsOf at hreading
  rw [hhint] at hreading
  obtain ⟨hstart, finish, rfl, rfl | rfl⟩ := hreading
  · rw [List.append_nil]
    exact ⟨hstart, rfl⟩
  · simp at hline

/-- What was read of a body is found in the full body: the payload, and a slash behind it that
the modifier follows. -/
theorem exists_payloadOf_of_bodyAnswer {raw t : Text} {variants : List Text} {important : Bool}
    {token : Token} (hanswer : bodyAnswer raw variants important t = .ok token) :
    ∃ payload, PayloadOf token.fullBody payload ∧ token.payload = payload.map (·.payload) ∧
      token.typeHint = payload.bind (·.typeHint) ∧
      ∀ modifier, token.modifier = some modifier →
        '/' :: modifier <:+ token.fullBody.drop (payload.elim 0 (·.close + 1)) := by
  obtain ⟨payload, found, hfound, hrun, hall⟩ := exists_ofParts_of_bodyAnswer hanswer
  rw [hall] at hanswer
  cases hanswer
  rw [fullBody_ofParts _ _ _ _ _ hfound]
  obtain ⟨settled, hpayload, hsettles⟩ := settles_readPayload [] (splitNegative t).2
  obtain rfl := Except.ok.inj (hsettles.eq_of_run (PatternCache.faithful_empty _) hrun)
  refine ⟨settled, hpayload, rfl, rfl, ?_⟩
  intro modifier hmodifier
  cases found with
  | none => cases hmodifier
  | some place =>
      cases hmodifier
      obtain ⟨hle, hslash⟩ := hfound place rfl
      obtain ⟨hlength, hget⟩ := List.getElem?_eq_some_iff.mp hslash
      have hdrop := List.drop_eq_getElem_cons hlength
      rw [hget] at hdrop
      rw [← hdrop]
      exact List.drop_suffix_drop_left _ hle

/-- The full body is a part of the class name. -/
theorem mem_of_mem_fullBody {accepts : Text → Except Error Bool} {raw : Text} {token : Token}
    (hread : readAnswer accepts raw = .ok token) {c : Char} (hc : c ∈ token.fullBody) :
    c ∈ raw := by
  obtain ⟨outer, inner, body, hparts, -, hbody⟩ := exists_assembled_of_readAnswer hread
  obtain ⟨-, -, -, rfl⟩ := parts_of_bodyAnswer hbody
  have hsuffix : token.fullBody <:+ Text.trim raw := by
    rw [hparts.eq]
    exact (((suffix_signed _ _).trans (suffix_marked inner _)).trans
      (ClassName.suffix_withVariants _ _)).trans (suffix_marked outer _)
  exact Text.mem_of_mem_trim (hsuffix.subset hc)

/-- A class name without a newline is read with a payload exactly if its full body has brackets
of one. The payload is then all that stands between them or, behind a dash, what follows a hint
and a colon there; and the slash of a modifier stands behind the brackets. -/
theorem payload_iff_bracketed {more : List Lookup} {known : Text → Cached Bool}
    {accepts : Text → Except Error Bool}
    (hknown : ∀ name, Settles (PatternCache.Faithful (lookups ++ more)) (known name)
      (accepts name))
    {cache : PatternCache} (hcache : PatternCache.Faithful (lookups ++ more) cache) {raw : Text}
    (hline : '\n' ∉ raw) {token : Token} (hread : (read known raw cache).1 = .ok token) :
    (token.payload.isSome ↔ ∃ front inner behind, Bracketed token.fullBody front inner behind) ∧
    ∀ front inner behind, Bracketed token.fullBody front inner behind →
      (token.typeHint = none ∧ token.payload = some inner ∨
        ∃ hint payload, token.typeHint = some hint ∧ token.payload = some payload ∧
          front ≠ [] ∧ inner = hint ++ ':' :: payload) ∧
      ∀ modifier, token.modifier = some modifier → '/' :: modifier <:+ behind := by
  have hanswer := (settles_read hknown raw).eq_of_run hcache hread
  obtain ⟨-, -, body, -, -, hbody⟩ := exists_assembled_of_readAnswer hanswer
  obtain ⟨payload, hpayload, hvalue, hhint, hmodifier⟩ := exists_payloadOf_of_bodyAnswer hbody
  have hsome := hpayload.isSome_iff
  refine ⟨by rw [hvalue, Option.isSome_map, hsome], ?_⟩
  intro front inner behind hbrackets
  obtain ⟨reading, rfl⟩ := Option.isSome_iff_exists.mp (hsome.mpr ⟨front, inner, behind, hbrackets⟩)
  obtain ⟨hreading, hbehind⟩ := hpayload.isOf_of_bracketed hbrackets
  have hinner : '\n' ∉ inner := by
    intro hmem
    apply hline (mem_of_mem_fullBody hanswer _)
    rw [hbrackets.eq]
    simp [hmem]
  refine ⟨?_, fun modifier hsplit => hbehind ▸ hmodifier modifier hsplit⟩
  cases hfound : reading.typeHint with
  | none =>
      unfold PayloadReading.IsOf at hreading
      rw [hfound] at hreading
      exact .inl ⟨hhint.trans hfound, by rw [hvalue, hreading]; rfl⟩
  | some hint =>
      obtain ⟨hstart, hparts⟩ := hreading.hinted hinner hfound
      exact .inr ⟨hint, reading.payload, hhint.trans hfound, hvalue,
        fun hnil => hstart (congrArg List.length hnil), hparts⟩

/-- A token with a hint, brackets in its payload and a slash in it, and more brackets behind. -/
def hinted : Token where
  raw := "hover:!bg-[color:a[b]/c:d]/[e]/50"
  utility := "bg"
  variants := ["hover"]
  opacity := some (.share (Binary64.ofDecimal 5 1))
  payload := some "a[b]/c:d"
  typeHint := some "color"
  important := true
  body := "bg-[color:a[b]/c:d]/[e]"
  modifier := some "50"

theorem payload_iff_bracketed_hinted :
    (read (fun name => pure (name == "hover")) hinted.raw {}).1 = .ok hinted ∧
      ∃ front behind, Bracketed hinted.fullBody front "color:a[b]/c:d" behind ∧ front ≠ [] ∧
        "/50" <:+ behind := by
  have hread : (read (fun name => pure (name == "hover")) hinted.raw {}).1 = .ok hinted :=
    eq_ok_of_toOption (by decide +kernel)
  obtain ⟨hsome, hparts⟩ := @payload_iff_bracketed [] (fun name => pure (name == "hover"))
    (fun name => .ok (name == "hover")) (fun name => Settles.pure _) {}
    (PatternCache.faithful_empty _) hinted.raw (by decide) hinted hread
  obtain ⟨front, inner, behind, hbrackets⟩ := hsome.mp rfl
  obtain ⟨⟨hplain, -⟩ | ⟨hint, payload, hhint, hpayload, hfront, rfl⟩, hmodifier⟩ :=
    hparts front inner behind hbrackets
  · cases hplain
  · cases hhint
    cases hpayload
    exact ⟨hread, front, behind, hbrackets, hfront, hmodifier "50" rfl⟩

end Token

end UtilityCss
