import UtilityCss.Proofs.BodyParts
import UtilityCss.Proofs.TextSplitting

/-!
# Class names put together from their parts

A class name has a mark of importance in front or behind its variants, or in both places.
A name that is put together from such parts is read as these parts, and every name that
can be read is put together so.
-/

namespace UtilityCss

namespace Token

theorem splitImportant_cons {c : Char} (hc : c ≠ '!') (t : Text) :
    splitImportant (c :: t) = (false, c :: t) := by
  unfold splitImportant
  split
  next heq => exact absurd (List.cons.inj heq).1 hc
  next => rfl

/-- A text that a mark of importance may stand before. -/
def marked (important : Bool) (t : Text) : Text := if important then '!' :: t else t

theorem splitImportant_marked {important : Bool} {t : Text}
    (ht : important = false → t.head? ≠ some '!') :
    splitImportant (marked important t) = (important, t) := by
  cases important with
  | true => rfl
  | false =>
      cases t with
      | nil => rfl
      | cons c t =>
          refine splitImportant_cons ?_ t
          rintro rfl
          exact ht rfl rfl

theorem getLast?_marked (important : Bool) {t : Text} {c : Char} (hlast : t.getLast? = some c) :
    (marked important t).getLast? = some c := by
  cases important <;> simp [marked, List.getLast?_cons, hlast]

theorem suffix_marked (important : Bool) (t : Text) : t <:+ marked important t := by
  cases important
  · exact List.suffix_refl t
  · exact List.suffix_cons '!' t

/-- Taking a mark off a text is undone by putting it back, and leaves no mark where there was
none. -/
theorem eq_marked_of_splitImportant {t rest : Text} {important : Bool}
    (hsplit : splitImportant t = (important, rest)) :
    t = marked important rest ∧ (important = false → rest.head? ≠ some '!') := by
  unfold splitImportant at hsplit
  split at hsplit
  · obtain ⟨rfl, rfl⟩ := Prod.mk.inj hsplit
    simp [marked]
  next hmark =>
    obtain ⟨rfl, rfl⟩ := Prod.mk.inj hsplit
    refine ⟨rfl, fun _ hhead => ?_⟩
    obtain ⟨others, rfl⟩ := List.head?_eq_some_iff.mp hhead
    exact hmark others rfl

/-- A name without blanks around it is put together from two marks, variants and a body, so
that a reader with this test finds them: each variant is a segment that the test accepts, it
accepts no further one, and a mark that is absent is not there in the text. -/
structure Assembled (accepts : Text → Except Error Bool) (name : Text) (outer inner : Bool)
    (variants : List Text) (body : Text) : Prop where
  eq : name = marked outer (ClassName.withVariants (marked inner body) variants)
  trimmed : name.Trimmed
  segments : ∀ variant ∈ variants, ClassName.IsSegment variant
  accepted : ∀ variant ∈ variants, segmentAnswer accepts variant = .ok true
  stops : Stops accepts (ClassName.segments (marked inner body))
  unmarked : outer = false →
    (ClassName.withVariants (marked inner body) variants).head? ≠ some '!'
  unmarkedBody : inner = false → body.head? ≠ some '!'

/-- The parts are found again. -/
theorem Assembled.readAnswer_eq {accepts : Text → Except Error Bool} {raw body : Text}
    {outer inner : Bool} {variants : List Text}
    (hparts : Assembled accepts (Text.trim raw) outer inner variants body) :
    readAnswer accepts raw = bodyAnswer raw variants (outer || inner) body := by
  have hmark : splitImportant (Text.trim raw) =
      (outer, ClassName.withVariants (marked inner body) variants) := by
    rw [hparts.eq, splitImportant_marked hparts.unmarked]
  have hsplit := splitVariants_of_stops hparts.accepted (ClassName.segments_ne_nil _) hparts.stops
  rw [readAnswer, hmark, ClassName.segments_withVariants hparts.segments, hsplit, ok_bind,
    ClassName.join_segments, splitImportant_marked hparts.unmarkedBody]

/-- Marks and variants that are taken off a name are parts of it. -/
theorem assembled_of_splitVariants {accepts : Text → Except Error Bool} {raw text body : Text}
    {outer inner : Bool} {variants rest : List Text}
    (houter : splitImportant (Text.trim raw) = (outer, text))
    (hsplit : splitVariants accepts (ClassName.segments text) = .ok (variants, rest))
    (hinner : splitImportant (Text.join ":" rest) = (inner, body)) :
    Assembled accepts (Text.trim raw) outer inner variants body := by
  obtain ⟨htrim, hunmarked⟩ := eq_marked_of_splitImportant houter
  obtain ⟨hjoin, hunmarkedBody⟩ := eq_marked_of_splitImportant hinner
  obtain ⟨happend, hrest, hstops, haccepted⟩ :=
    stops_of_splitVariants (ClassName.segments_ne_nil text) hsplit
  obtain ⟨hsegments, hrestSegments, htext⟩ := ClassName.segments_eq_append happend hrest
  rw [hjoin] at hrestSegments htext
  exact {
    eq := by rw [htrim, htext]
    trimmed := Text.trimmed_trim raw
    segments := hsegments
    accepted := haccepted
    stops := hrestSegments ▸ hstops
    unmarked := htext ▸ hunmarked
    unmarkedBody := hunmarkedBody }

/-- A name that can be read has such parts. -/
theorem exists_assembled_of_readAnswer {accepts : Text → Except Error Bool} {raw : Text}
    {token : Token} (hread : readAnswer accepts raw = .ok token) :
    ∃ outer inner body, Assembled accepts (Text.trim raw) outer inner token.variants body ∧
      token.important = (outer || inner) ∧
      bodyAnswer raw token.variants token.important body = .ok token := by
  rcases houter : splitImportant (Text.trim raw) with ⟨outer, text⟩
  rw [readAnswer, houter] at hread
  obtain ⟨⟨variants, rest⟩, hsplit, hbody⟩ := bind_eq_ok hread
  rcases hinner : splitImportant (Text.join ":" rest) with ⟨inner, body⟩
  rw [hinner] at hbody
  obtain ⟨-, rfl, himportant, -⟩ := parts_of_bodyAnswer hbody
  exact ⟨outer, inner, body, assembled_of_splitVariants houter hsplit hinner, himportant,
    himportant ▸ hbody⟩

/-- So has a name that is read with a test that settles, whatever the cache holds besides. -/
theorem exists_assembled_of_read {inv : PatternCache → Prop} {known : Text → Cached Bool}
    {accepts : Text → Except Error Bool}
    (hknown : ∀ name, Settles inv (known name) (accepts name)) {cache : PatternCache}
    (hcache : inv cache) {raw : Text} {token : Token}
    (hread : (read known raw cache).1 = .ok token) :
    ∃ outer inner, token.important = (outer || inner) ∧
      Assembled accepts (Text.trim raw) outer inner token.variants
        (signed token.negative token.fullBody) := by
  rcases houter : splitImportant (Text.trim raw) with ⟨outer, text⟩
  unfold read at hread
  rw [houter] at hread
  obtain ⟨⟨variants, rest⟩, after, htake, hbody⟩ := run_bind_eq_ok hread
  have hsplit := (settles_takeVariants hknown (ClassName.segments text)).eq_of_run hcache
    (congrArg Prod.fst htake)
  rcases hinner : splitImportant (Text.join ":" rest) with ⟨inner, body⟩
  simp only [hinner] at hbody
  obtain ⟨-, rfl, himportant, rfl⟩ := parts_of_readBody hbody
  exact ⟨outer, inner, himportant, assembled_of_splitVariants houter hsplit hinner⟩

/-- Behind variants, the last character of a name is that of the body, or a mark. -/
theorem getLast?_withVariants (utility : Text) {variants : List Text} (hvariants : variants ≠ []) :
    (ClassName.withVariants utility variants).getLast? = (':' :: utility).getLast? := by
  induction variants with
  | nil => exact absurd rfl hvariants
  | cons name variants ih =>
      rw [ClassName.withVariants_cons, List.getLast?_append]
      cases variants with
      | nil => simp [List.getLast?_cons, ClassName.withVariants_nil]
      | cons next variants => simp [List.getLast?_cons, ih (List.cons_ne_nil _ _)]

end Token

end UtilityCss
