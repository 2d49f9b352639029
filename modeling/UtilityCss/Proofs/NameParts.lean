import UtilityCss.Proofs.BodyTotality
import UtilityCss.Proofs.TokenRoundTrip

/-!
# Class names and their parts

Reading takes a class name apart and loses nothing of it: the trimmed name is a mark of
importance, the variants and a last piece, which is the body behind its own mark and its
minus sign. The variants are as many of the leading segments as there can be.

Conversely, parts that are put together are read as these parts. Marks, signs and variants
have to be told apart for this: no variant and no utility begins with a mark or a sign.
-/

namespace UtilityCss

/-- The longest front part of some items that all pass a test. -/
structure LongestRun {α : Type} (passes : α → Prop) (run items : List α) : Prop where
  front : run <+: items
  pass : ∀ item ∈ run, passes item
  longest : ∀ other, other <+: items → (∀ item ∈ other, passes item) → other <+: run

/-- Items that pass are the longest run if the one behind them does not pass. -/
theorem longestRun_append {α : Type} {passes : α → Prop} {run rest : List α}
    (hrun : ∀ item ∈ run, passes item) (hrest : ∀ item, rest.head? = some item → ¬ passes item) :
    LongestRun passes run (run ++ rest) where
  front := List.prefix_append run rest
  pass := hrun
  longest := by
    intro other hother hall
    rcases List.prefix_or_prefix_of_prefix hother (List.prefix_append run rest) with
      hshort | ⟨extra, rfl⟩
    · exact hshort
    · have hextra : extra <+: rest := (List.prefix_append_right_inj run).mp hother
      cases extra with
      | nil => simp
      | cons item extra =>
          have hhead : rest.head? = some item := by
            obtain ⟨more, rfl⟩ := hextra
            rfl
          exact absurd (hall item (by simp)) (hrest item hhead)

namespace Token

/-! ## Reading loses nothing -/

theorem startsWith_marked {outer : Bool} {t : Text} (ht : outer = false → t.head? ≠ some '!') :
    Text.startsWith (marked outer t) "!" = outer := by
  cases outer with
  | true => simp [marked, Text.startsWith]
  | false =>
      have hhead := ht rfl
      cases t with
      | nil => rfl
      | cons c t =>
          have hc : '!' ≠ c := by simpa [eq_comm] using hhead
          simp [marked, Text.startsWith, List.isPrefixOf, hc]

/-- The variants of a name are the longest run of variants among its segments but the last. -/
theorem Assembled.longestRun {accepts : Text → Except Error Bool} {name body : Text}
    {outer inner : Bool} {variants : List Text}
    (hparts : Assembled accepts name outer inner variants body) :
    LongestRun (fun segment => segmentAnswer accepts segment = .ok true) variants
      (ClassName.segments (ClassName.withVariants (marked inner body) variants)).dropLast := by
  rw [ClassName.segments_withVariants hparts.segments,
    List.dropLast_append_of_ne_nil (ClassName.segments_ne_nil _)]
  apply longestRun_append hparts.accepted
  have hstops := hparts.stops
  generalize ClassName.segments (marked inner body) = rest at hstops
  intro segment hsegment haccepted
  cases rest with
  | nil => simp at hsegment
  | cons first others =>
      cases others with
      | nil => simp at hsegment
      | cons next others =>
          -- The first of several segments is where the variants stop.
          obtain rfl : first = segment := by simpa using hsegment
          have hfirst : segmentAnswer accepts first = .ok false := hstops
          rw [hfirst] at haccepted
          cases haccepted

/-- A name that was read is put together from the parts of its token, whatever the cache holds
besides: after blanks at its ends, it is a mark of importance, then the variants and a last piece
between colons. The last piece is the full body behind a second mark and the minus sign, and the
token is important if there is a mark in one of the two places. The variants are the longest run
of variants among the segments behind the first mark; the last segment never is one. -/
theorem parts_of_read {inv : PatternCache → Prop} {known : Text → Cached Bool}
    {accepts : Text → Except Error Bool}
    (hknown : ∀ name, Settles inv (known name) (accepts name)) {cache : PatternCache}
    (hcache : inv cache) {raw : Text} {token : Token}
    (hread : (read known raw cache).1 = .ok token) :
    ∃ (text : Text) (inner : Bool),
      Text.trim raw = marked (Text.startsWith (Text.trim raw) "!") text ∧
      text = Text.join ":"
        (token.variants ++ [marked inner (signed token.negative token.fullBody)]) ∧
      token.important = (Text.startsWith (Text.trim raw) "!" || inner) ∧
      LongestRun (fun segment => segmentAnswer accepts segment = .ok true) token.variants
        (ClassName.segments text).dropLast := by
  obtain ⟨outer, inner, himportant, hparts⟩ := exists_assembled_of_read hknown hcache hread
  have houter : Text.startsWith (Text.trim raw) "!" = outer := by
    rw [hparts.eq]
    exact startsWith_marked hparts.unmarked
  refine ⟨_, inner, ?_, rfl, ?_, hparts.longestRun⟩
  · rw [houter]
    exact hparts.eq
  · rw [houter]
    exact himportant

/-- The test that knows one variant. -/
def isHover (name : Text) : Bool := name == "hover"

/-- A token with marks in both places, a variant in brackets and a colon in its body. -/
def twiceMarked : Token where
  raw := " !hover:[&:a]:!-b:c/[d]"
  utility := "b:c"
  variants := ["hover", "[&:a]"]
  opacity := some (.verbatim "d")
  important := true
  negative := true
  body := "b:c"
  modifier := some "[d]"

theorem parts_of_read_twiceMarked :
    (read (fun name => pure (isHover name)) twiceMarked.raw {}).1 = .ok twiceMarked ∧
      ∃ (text : Text) (inner : Bool), "!hover:[&:a]:!-b:c/[d]" = marked true text ∧
        text = Text.join ":" ["hover", "[&:a]", marked inner "-b:c/[d]"] ∧
        LongestRun
          (fun segment => segmentAnswer (fun name => .ok (isHover name)) segment = .ok true)
          ["hover", "[&:a]"] (ClassName.segments text).dropLast := by
  have hread : (read (fun name => pure (isHover name)) twiceMarked.raw {}).1 = .ok twiceMarked :=
    eq_ok_of_toOption (by decide +kernel)
  have hname : Text.trim twiceMarked.raw = "!hover:[&:a]:!-b:c/[d]" := by decide +kernel
  have hmark : Text.startsWith "!hover:[&:a]:!-b:c/[d]" "!" = true := rfl
  obtain ⟨text, inner, htrim, htext, -, hrun⟩ := @parts_of_read (fun _ => True)
    (fun name => pure (isHover name)) (fun name => .ok (isHover name))
    (fun name => Settles.pure _) {} trivial twiceMarked.raw twiceMarked hread
  rw [hname, hmark] at htrim
  exact ⟨hread, text, inner, htrim, htext, hrun⟩

/-! ## Parts that are put together are found again -/

theorem suffix_assemble (utility : Text) (variants : List Text) (negative important : Bool) :
    utility <:+ ClassName.assemble utility variants negative important :=
  ((suffix_signed negative utility).trans (suffix_marked important _)).trans
    (ClassName.suffix_withVariants _ variants)

/-- A utility that can be told apart from what stands before it: it has no mark, no sign and no
blanks around it, it is no group, and it does not go on with a variant. -/
structure Separable (accepts : Text → Except Error Bool) (utility : Text) : Prop where
  nonempty : utility ≠ []
  trimmed : utility.Trimmed
  unmarked : utility.head? ≠ some '!'
  unsigned : utility.head? ≠ some '-'
  noGroup : isGroup utility = false
  stops : Stops accepts (ClassName.segments utility)

theorem splitNegative_signed {utility : Text} (hne : utility ≠ [])
    (hunsigned : utility.head? ≠ some '-') (negative : Bool) :
    splitNegative (signed negative utility) = (negative, utility) := by
  obtain ⟨c, rest, rfl⟩ := List.exists_cons_of_ne_nil hne
  have hc : c ≠ '-' := by simpa using hunsigned
  cases negative with
  | true => simp [signed, splitNegative, hc]
  | false =>
      unfold splitNegative
      split
      next heq => exact absurd (List.cons.inj heq).1 hc
      next => rfl

namespace Separable

variable {accepts : Text → Except Error Bool} {utility : Text}
  (hutility : Separable accepts utility)

include hutility

theorem head?_signed (negative : Bool) : (signed negative utility).head? ≠ some '!' := by
  cases negative with
  | true => simp [signed]
  | false => exact hutility.unmarked

theorem noGroup_signed (negative : Bool) : isGroup (signed negative utility) = false := by
  cases negative with
  | true => rfl
  | false => exact hutility.noGroup

/-- With a sign and a mark or without them, a utility does not go on with a variant. -/
theorem stops_marked (hplain : PlainStart accepts)
    (hsign : ∀ rest, accepts ('-' :: rest) = .ok false) (negative important : Bool) :
    Stops accepts (ClassName.segments (marked important (signed negative utility))) := by
  cases important with
  | true =>
      apply stops_segments_cons (by decide) (by decide)
      exact fun rest => hplain '!' rest (.inl rfl)
  | false =>
      cases negative with
      | true => exact stops_segments_cons (by decide) (by decide) hsign utility
      | false => exact hutility.stops

/-- A name that ends with a utility has no blanks around it, if it begins with none. -/
theorem trimmed_of_suffix {name : Text} (hname : utility <:+ name)
    (hfirst : ∀ c, name.head? = some c → Text.isBlank c = false) : name.Trimmed := by
  refine ⟨hfirst, ?_⟩
  intro c hc
  obtain ⟨front, rfl⟩ := hname
  have hlast := List.getLast?_eq_some_getLast hutility.nonempty
  rw [List.getLast?_append, hlast, Option.some_or, ← hlast] at hc
  exact hutility.trimmed.last c hc

/-- A name that is put together from variants and a utility has these as its parts. Without
variants, the mark of importance is the one in front. -/
theorem assembled (hplain : PlainStart accepts)
    (hsign : ∀ rest, accepts ('-' :: rest) = .ok false) {variants : List Text}
    (hvariants : ∀ name ∈ variants, segmentAnswer accepts name = .ok true)
    (hsegments : ∀ name ∈ variants, ClassName.IsSegment name) (negative important : Bool) :
    ∃ outer inner, (outer || inner) = important ∧
      Assembled accepts (ClassName.assemble utility variants negative important) outer inner
        variants (signed negative utility) := by
  have hsuffix := suffix_assemble utility variants negative important
  have hstops := hutility.stops_marked hplain hsign negative
  cases variants with
  | nil =>
      refine ⟨important, false, Bool.or_false important, ?_⟩
      have hname : ClassName.assemble utility [] negative important =
          marked important (signed negative utility) := ClassName.withVariants_nil _
      exact {
        eq := by
          rw [hname, ClassName.withVariants_nil]
          rfl
        trimmed := by
          apply hutility.trimmed_of_suffix hsuffix
          intro c hc
          rw [hname] at hc
          cases important with
          | true =>
              cases hc
              decide
          | false =>
              cases negative with
              | true =>
                  cases hc
                  decide
              | false => exact hutility.trimmed.first c hc
        segments := hsegments
        accepted := hvariants
        stops := hstops false
        unmarked := by
          intro _
          rw [ClassName.withVariants_nil]
          exact hutility.head?_signed negative
        unmarkedBody := fun _ => hutility.head?_signed negative }
  | cons variant others =>
      obtain ⟨c, start, rfl, hmark, hblank⟩ :=
        exists_cons_of_segmentAnswer hplain (hvariants variant List.mem_cons_self)
      have hhead : (ClassName.assemble utility ((c :: start) :: others) negative important).head? =
          some c := by
        rw [ClassName.assemble, ClassName.withVariants_cons]
        rfl
      refine ⟨false, important, Bool.false_or important, ?_⟩
      exact {
        eq := rfl
        trimmed := by
          apply hutility.trimmed_of_suffix hsuffix
          intro d hd
          rw [hhead] at hd
          cases hd
          exact hblank
        segments := hsegments
        accepted := hvariants
        stops := hstops important
        unmarked := by
          intro _ hd
          cases hhead.symm.trans hd
          exact hmark rfl
        unmarkedBody := fun _ => hutility.head?_signed negative }

end Separable

/-- A body that is no group is read with its sign and nothing else taken off. -/
theorem exists_bodyAnswer_signed {accepts : Text → Except Error Bool} {utility : Text}
    (hutility : Separable accepts utility) (raw : Text) (variants : List Text)
    (negative important : Bool) :
    ∃ token, bodyAnswer raw variants important (signed negative utility) = .ok token ∧
      token.variants = variants ∧ token.negative = negative ∧ token.important = important ∧
      token.fullBody = utility := by
  obtain ⟨token, htoken⟩ :=
    exists_bodyAnswer raw variants important (hutility.noGroup_signed negative)
  obtain ⟨payload, found, hfound, -, hall⟩ := exists_ofParts_of_bodyAnswer htoken
  rw [splitNegative_signed hutility.nonempty hutility.unsigned] at hfound hall
  exact ⟨_, hall raw variants important, rfl, rfl, rfl, fullBody_ofParts _ _ _ _ payload hfound⟩

/-- A class name that is put together is read as its parts. No variant begins with a mark of
importance, a dash or a blank; each of those in front is accepted and is one segment that closes
its brackets. -/
theorem read_assemble {more : List Lookup} {known : Text → Cached Bool}
    {accepts : Text → Except Error Bool}
    (hknown : ∀ name, Settles (PatternCache.Faithful (lookups ++ more)) (known name)
      (accepts name)) (hplain : PlainStart accepts)
    (hsign : ∀ rest, accepts ('-' :: rest) = .ok false) {variants : List Text}
    (hvariants : ∀ name ∈ variants, segmentAnswer accepts name = .ok true)
    (hsegments : ∀ name ∈ variants, ClassName.IsSegment name) {utility : Text}
    (hutility : Separable accepts utility) (negative important : Bool) {cache : PatternCache}
    (hcache : cache.Faithful (lookups ++ more)) :
    ∃ token, (read known (ClassName.assemble utility variants negative important) cache).1 =
        .ok token ∧
      token.variants = variants ∧ token.negative = negative ∧ token.important = important ∧
      token.fullBody = utility := by
  obtain ⟨outer, inner, himportant, hparts⟩ :=
    hutility.assembled hplain hsign hvariants hsegments negative important
  obtain ⟨token, htoken, hfound⟩ := exists_bodyAnswer_signed hutility
    (ClassName.assemble utility variants negative important) variants negative important
  refine ⟨token, ?_, hfound⟩
  rw [← Text.trim_of_trimmed hparts.trimmed] at hparts
  rw [(settles_read hknown _ cache hcache).1, hparts.readAnswer_eq, himportant]
  exact htoken

theorem plainStart_isHover : PlainStart fun name => .ok (isHover name) := by
  intro c rest hc
  have hother : c :: rest ≠ "hover" := by
    rintro ⟨⟩
    revert hc
    decide
  simpa [isHover] using hother

theorem read_assemble_hover :
    ∃ token, (read (fun name => pure (isHover name)) "hover:[&:a]:!-b:c-[d:e]/50" {}).1 =
        .ok token ∧
      token.variants = (["hover", "[&:a]"] : List Text) ∧ token.negative = true ∧
      token.important = true ∧ token.fullBody = "b:c-[d:e]/50" := by
  have hvariants : ∀ name ∈ (["hover", "[&:a]"] : List Text),
      segmentAnswer (fun name => .ok (isHover name)) name = .ok true ∧
        ClassName.IsSegment name := by
    simp only [List.forall_mem_cons, List.not_mem_nil]
    exact ⟨⟨rfl, rfl, rfl⟩, ⟨rfl, rfl, rfl⟩, nofun⟩
  have hutility : Separable (fun name => .ok (isHover name)) "b:c-[d:e]/50" := {
    nonempty := by decide
    trimmed := by
      constructor <;>
        rintro c ⟨⟩ <;>
          decide
    unmarked := by decide
    unsigned := by decide
    noGroup := rfl
    stops := rfl }
  exact @read_assemble [] (fun name => pure (isHover name)) _ (fun name => Settles.pure _)
    plainStart_isHover (fun rest => rfl) ["hover", "[&:a]"]
    (fun name hname => (hvariants name hname).1) (fun name hname => (hvariants name hname).2)
    "b:c-[d:e]/50" hutility true true {} (PatternCache.faithful_empty _)

end Token

end UtilityCss
