import UtilityCss.Proofs.CacheOwnership
import UtilityCss.Token.Reader

/-!
# How a class name is read, whatever the cache holds

The reader looks two patterns up and asks a test about segments. If the test settles
under faithful caches, so does the reader, and its answer is made of two parts: the
split of the segments into variants and the rest, which only the test decides, and the
reading of the body, which only the text decides.
-/

namespace UtilityCss

namespace Token

/-- The lookups of the reader. -/
def lookups : List Lookup :=
  [⟨opacityKey, .text opacitySource, 0⟩, ⟨hintKey, .text hintSource, 0⟩]

/-! ## The patterns of the reader -/

section Patterns

open PatternReader

/-- One digit or more. -/
def digitsNode : PatternNode := .repeated 1 none true (.oneOf ⟨false, [.named .digit false]⟩)

/-- A point and the digits after it. -/
def placesNode : PatternNode := .seq (literal '.') digitsNode

def numberNode : PatternNode :=
  .alt (.seq digitsNode (.repeated 0 (some 1) true placesNode)) placesNode

/-- The pattern for opacities. -/
def opacityPattern : Pattern where
  source := opacitySource
  foldCase := false
  root := .seq (.seq .start (.alt
    (.seq (.group 1 numberNode) (.repeated 0 (some 1) true (.group 2 (literal '%'))))
    (.seq (.seq (literal '[') (.group 3 (.repeated 1 none true .any))) (literal ']')))) .finish
  groupCount := 3
  groupNames := [("number", 1), ("percent", 2), ("arbitrary", 3)]

theorem read?_opacitySource : Pattern.read? opacitySource false = some opacityPattern := by
  rfl

/-- The pattern for type hints. -/
def hintPattern : Pattern where
  source := hintSource
  foldCase := false
  root := .seq (.seq (.seq (.seq .start
    (.group 1 (.seq (.oneOf ⟨false, [.range 'a' 'z']⟩)
      (.repeated 0 none true (.oneOf ⟨false, [.range 'a' 'z', .single '-']⟩)))))
    (literal ':'))
    (.group 2 (.seq (.ahead true (.seq (literal '/') (literal '/')))
      (.repeated 1 none true .any))))
    .finish
  groupCount := 2
  groupNames := [("hint", 1), ("value", 2)]

theorem read?_hintSource : Pattern.read? hintSource false = some hintPattern := by
  rfl

end Patterns

section Body

variable (more : List Lookup)

theorem settles_opacityPattern :
    Settles (PatternCache.Faithful (lookups ++ more))
      (PatternCache.fetch opacityKey (.text opacitySource)) (.ok opacityPattern) := by
  have hpattern : Lookup.pattern? ⟨opacityKey, .text opacitySource, 0⟩ = some opacityPattern :=
    read?_opacitySource
  exact @PatternCache.settles_fetch_pattern [] _ _ _ (by simp) hpattern

theorem settles_hintPattern :
    Settles (PatternCache.Faithful (lookups ++ more))
      (PatternCache.fetch hintKey (.text hintSource)) (.ok hintPattern) := by
  have hpattern : Lookup.pattern? ⟨hintKey, .text hintSource, 0⟩ = some hintPattern :=
    read?_hintSource
  refine @PatternCache.settles_fetch_pattern [⟨opacityKey, .text opacitySource, 0⟩] _ _ _ ?_
    hpattern
  intro earlier hearlier
  rw [List.mem_singleton.mp hearlier]
  decide

theorem steady_readPayload (body : Text) :
    Steady (PatternCache.Faithful (lookups ++ more)) (readPayload body) := by
  unfold readPayload
  split
  · exact Steady.pure none
  next start close _ =>
    refine (settles_hintPattern more).steady.bind fun pattern => ?_
    split
    · split
      · exact Steady.pure _
      · exact (Steady.lift _).bind fun _ => (Steady.lift _).bind fun _ => Steady.pure _
    · exact Steady.pure _

theorem steady_readOpacity (modifier : Text) :
    Steady (PatternCache.Faithful (lookups ++ more)) (readOpacity modifier) := by
  unfold readOpacity
  refine (settles_opacityPattern more).steady.bind fun pattern => ?_
  split
  · exact Steady.pure none
  next found _ =>
    refine (Steady.lift (found.named "arbitrary")).bind fun arbitrary => ?_
    split
    · exact Steady.pure _
    · refine (Steady.lift _).bind fun numeral => (Steady.lift _).bind fun percent => ?_
      exact (Steady.lift _).bind fun share => Steady.pure _

theorem steady_readModifier (body : Text) (start : Nat) :
    Steady (PatternCache.Faithful (lookups ++ more)) (readModifier body start) := by
  unfold readModifier
  split
  · exact Steady.pure none
  · exact (steady_readOpacity more _).bind fun _ => Steady.pure _

theorem steady_readBody (raw : Text) (variants : List Text) (important : Bool) (t : Text) :
    Steady (PatternCache.Faithful (lookups ++ more)) (readBody raw variants important t) := by
  unfold readBody
  split
  · exact Steady.throw _
  · refine (steady_readPayload more _).bind fun payload => ?_
    exact (steady_readModifier more _ _).bind fun _ => Steady.pure _

end Body

/-- What the reading of a body comes to when nothing has been looked up before. -/
def bodyAnswer (raw : Text) (variants : List Text) (important : Bool) (t : Text) :
    Except Error Token :=
  (readBody raw variants important t {}).1

theorem settles_readBody (more : List Lookup) (raw : Text) (variants : List Text)
    (important : Bool) (t : Text) :
    Settles (PatternCache.Faithful (lookups ++ more)) (readBody raw variants important t)
      (bodyAnswer raw variants important t) :=
  (steady_readBody more raw variants important t).settles (PatternCache.faithful_empty _)

/-- The answer about a segment, from a test for segments that are not in brackets. -/
def segmentAnswer (accepts : Text → Except Error Bool) (segment : Text) : Except Error Bool :=
  if segment = [] then .ok false
  else if Payload.isBracketed segment then
    .ok (Brackets.closingBracket? segment 0 == some (segment.length - 1) && 2 < segment.length)
  else accepts segment

/-- The longest run of leading segments that are variants, and the segments after it. -/
def splitVariants (accepts : Text → Except Error Bool) :
    List Text → Except Error (List Text × List Text)
  | [] => .ok ([], [])
  | [segment] => .ok ([], [segment])
  | segment :: next :: rest => do
      if ← segmentAnswer accepts segment then
        let (variants, others) ← splitVariants accepts (next :: rest)
        .ok (segment :: variants, others)
      else .ok ([], segment :: next :: rest)

section Variants

variable {inv : PatternCache → Prop} {known : Text → Cached Bool}
  {accepts : Text → Except Error Bool} (hknown : ∀ name, Settles inv (known name) (accepts name))

include hknown

theorem settles_isVariant (segment : Text) :
    Settles inv (isVariant known segment) (segmentAnswer accepts segment) := by
  unfold isVariant segmentAnswer
  split
  · exact Settles.pure false
  · split
    · exact Settles.pure _
    · exact hknown segment

theorem settles_takeVariants (segments : List Text) :
    Settles inv (takeVariants known segments) (splitVariants accepts segments) := by
  induction segments with
  | nil => exact Settles.pure _
  | cons segment rest ih =>
      cases rest with
      | nil => exact Settles.pure _
      | cons next rest =>
          unfold takeVariants splitVariants
          refine (settles_isVariant hknown segment).bind fun isOne _ => ?_
          cases isOne with
          | true => exact ih.bind fun _ _ => Settles.pure _
          | false => exact Settles.pure _

end Variants

/-- The segments that a test leaves after the variants: the last one is never asked about,
and the first of several is no variant. -/
def Stops (accepts : Text → Except Error Bool) : List Text → Prop
  | segment :: _ :: _ => segmentAnswer accepts segment = .ok false
  | _ => True

/-- A split of segments into variants and the rest is right if it puts the segments together,
calls only variants such, stops where it should and leaves the last segment. -/
theorem splitVariants_of_stops {accepts : Text → Except Error Bool} {variants rest : List Text}
    (hvariants : ∀ name ∈ variants, segmentAnswer accepts name = .ok true) (hrest : rest ≠ [])
    (hstops : Stops accepts rest) :
    splitVariants accepts (variants ++ rest) = .ok (variants, rest) := by
  induction variants with
  | nil =>
      match rest, hrest with
      | [segment], _ => rfl
      | segment :: next :: rest, _ =>
          have hstop : segmentAnswer accepts segment = .ok false := hstops
          rw [List.nil_append, splitVariants, hstop]
          rfl
  | cons name variants ih =>
      have hhead := hvariants name List.mem_cons_self
      have htail := ih fun other hother => hvariants other (List.mem_cons_of_mem name hother)
      obtain ⟨next, others, hsplit⟩ : ∃ next others, variants ++ rest = next :: others :=
        List.exists_cons_of_ne_nil (by simp [hrest])
      rw [List.cons_append, hsplit, splitVariants, hhead, ← hsplit, htail]
      rfl

theorem stops_of_splitVariants {accepts : Text → Except Error Bool}
    {segments variants rest : List Text} (hsegments : segments ≠ [])
    (hsplit : splitVariants accepts segments = .ok (variants, rest)) :
    segments = variants ++ rest ∧ rest ≠ [] ∧ Stops accepts rest ∧
      ∀ name ∈ variants, segmentAnswer accepts name = .ok true := by
  induction segments generalizing variants with
  | nil => exact absurd rfl hsegments
  | cons segment tail ih =>
      cases tail with
      | nil =>
          cases hsplit
          simp [Stops]
      | cons next tail =>
          obtain ⟨isOne, hanswer, hafter⟩ := bind_eq_ok hsplit
          cases isOne with
          | false =>
              cases hafter
              simpa [Stops] using hanswer
          | true =>
              obtain ⟨found, hrest, hfound⟩ := bind_eq_ok hafter
              cases hfound
              obtain ⟨happend, hne, hstops, hall⟩ := ih (by simp) hrest
              refine ⟨by rw [happend]; rfl, hne, hstops, ?_⟩
              intro name hname
              rcases List.mem_cons.mp hname with rfl | hother
              · exact hanswer
              · exact hall name hother

/-- What reading a class name comes to, from the answers of a test for variants. -/
def readAnswer (accepts : Text → Except Error Bool) (raw : Text) : Except Error Token := do
  let split ← splitVariants accepts (ClassName.segments (splitImportant (Text.trim raw)).2)
  bodyAnswer raw split.1
    ((splitImportant (Text.trim raw)).1 || (splitImportant (Text.join ":" split.2)).1)
    (splitImportant (Text.join ":" split.2)).2

/-- A reader whose test settles gives one answer from all faithful caches. -/
theorem settles_read {more : List Lookup} {known : Text → Cached Bool}
    {accepts : Text → Except Error Bool}
    (hknown : ∀ name, Settles (PatternCache.Faithful (lookups ++ more)) (known name)
      (accepts name)) (raw : Text) :
    Settles (PatternCache.Faithful (lookups ++ more)) (read known raw)
      (readAnswer accepts raw) := by
  unfold read readAnswer
  refine (settles_takeVariants hknown _).bind fun found _ => ?_
  exact settles_readBody more _ _ _ _

/-! ## Several class names -/

/-- Reading goes on after a token that is refused as a variant group, and stops at other
errors. -/
theorem readEach_cons (known : Text → Cached Bool) (raw : Text) (rest : List Text) :
    readEach known (raw :: rest) = attempt (read known raw) fun
      | .ok token => do return token :: (← readEach known rest)
      | .error (.variantGroup ..) => readEach known rest
      | .error error => throw error := by
  funext cache
  simp only [readEach, attempt]
  rcases read known raw cache with ⟨error | token, next⟩
  · cases error <;> rfl
  · rfl

/-- The token that a class name is read as; one that cannot be read is left as it is. -/
def reading (accepts : Text → Except Error Bool) (raw : Text) : Token :=
  match readAnswer accepts raw with
  | .ok token => token
  | .error _ => { raw }

theorem readAnswer_eq_reading {accepts : Text → Except Error Bool} {raw : Text}
    (hread : ∃ token, readAnswer accepts raw = .ok token) :
    readAnswer accepts raw = .ok (reading accepts raw) := by
  obtain ⟨token, htoken⟩ := hread
  rw [reading, htoken]

/-- If all names can be read, none is left out. -/
theorem settles_readEach {more : List Lookup} {known : Text → Cached Bool}
    {accepts : Text → Except Error Bool}
    (hknown : ∀ name, Settles (PatternCache.Faithful (lookups ++ more)) (known name)
      (accepts name)) {raws : List Text}
    (hread : ∀ raw ∈ raws, ∃ token, readAnswer accepts raw = .ok token) :
    Settles (PatternCache.Faithful (lookups ++ more)) (readEach known raws)
      (.ok (raws.map (reading accepts))) := by
  induction raws with
  | nil => exact Settles.pure []
  | cons raw rest ih =>
      have hrest := ih fun other hother => hread other (List.mem_cons_of_mem raw hother)
      have hfirst := settles_read hknown raw
      rw [readAnswer_eq_reading (hread raw List.mem_cons_self)] at hfirst
      rw [readEach_cons]
      exact hfirst.attempt (hrest.bind_ok (Settles.pure _))

end Token

end UtilityCss
