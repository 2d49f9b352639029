import UtilityCss.Proofs.AssembledNames
import UtilityCss.Proofs.BodyTotality
import UtilityCss.Proofs.GroupExpansion

/-!
# What the leaves of variant groups are read as

A leaf stands for its utility under all the variants around it, and it is important if it
or a group around it is marked so. Expansion puts the labels before the leaf, and a class
name has room for a mark at its beginning and before its body only. A leaf is therefore
read as what it stands for exactly if no group around it but the outermost one is marked.
-/

namespace UtilityCss

/-! ## Names that can be read -/

namespace Token

theorem exists_segmentAnswer (accepts : Text → Bool) (segment : Text) :
    ∃ answer, segmentAnswer (fun name => .ok (accepts name)) segment = .ok answer := by
  unfold segmentAnswer
  split
  · exact ⟨_, rfl⟩
  · split
    · exact ⟨_, rfl⟩
    · exact ⟨_, rfl⟩

theorem exists_splitVariants (accepts : Text → Bool) (segments : List Text) :
    ∃ found, splitVariants (fun name => .ok (accepts name)) segments = .ok found := by
  induction segments with
  | nil => exact ⟨_, rfl⟩
  | cons segment rest ih =>
      cases rest with
      | nil => exact ⟨_, rfl⟩
      | cons next rest =>
          obtain ⟨isOne, hsegment⟩ := exists_segmentAnswer accepts segment
          obtain ⟨found, hrest⟩ := ih
          rw [splitVariants, hsegment]
          cases isOne with
          | false => exact ⟨_, rfl⟩
          | true => exact ⟨(segment :: found.1, found.2), by rw [hrest]; rfl⟩

/-- Only a name that ends with a closing parenthesis can be refused. -/
theorem exists_readAnswer (accepts : Text → Bool) {raw : Text}
    (hend : Text.endsWith (Text.trim raw) ")" = false) :
    ∃ token, readAnswer (fun name => .ok (accepts name)) raw = .ok token := by
  rcases houter : splitImportant (Text.trim raw) with ⟨outer, text⟩
  obtain ⟨htrim, -⟩ := eq_marked_of_splitImportant houter
  obtain ⟨⟨variants, rest⟩, hsplit⟩ := exists_splitVariants accepts (ClassName.segments text)
  obtain ⟨happend, hrest, -, -⟩ := stops_of_splitVariants (ClassName.segments_ne_nil text) hsplit
  obtain ⟨-, -, htext⟩ := ClassName.segments_eq_append happend hrest
  rcases hinner : splitImportant (Text.join ":" rest) with ⟨inner, body⟩
  obtain ⟨hjoin, -⟩ := eq_marked_of_splitImportant hinner
  -- The body ends the name, so that it is no group either.
  have hsuffix : body <:+ Text.trim raw := by
    rw [htrim, htext, hjoin]
    exact ((suffix_marked inner body).trans (ClassName.suffix_withVariants _ variants)).trans
      (suffix_marked outer _)
  have hgroup : isGroup body = false := by
    rw [isGroup, Bool.and_eq_false_iff]
    refine .inr (Bool.eq_false_iff.mpr fun hbody => ?_)
    have hname := (List.isSuffixOf_iff_suffix.mp hbody).trans hsuffix
    exact Bool.eq_false_iff.mp hend (List.isSuffixOf_iff_suffix.mpr hname)
  rw [readAnswer, houter, hsplit, ok_bind, hinner]
  exact exists_bodyAnswer raw variants _ hgroup

/-! ## Meanings -/

/-- What a class name says: a utility under variants, outermost first, and whether it is
important. -/
structure Meaning where
  variants : List Text
  utility : Text
  important : Bool
deriving DecidableEq

/-- The utility of a token has its sign and its modifier. -/
def meaning (token : Token) : Meaning where
  variants := token.variants
  utility := signed token.negative token.fullBody
  important := token.important

end Token

namespace Group

/-! ## Leaves and what they stand for -/

/-- A leaf of a forest of class names: a plain utility that a mark may stand before. -/
structure Leaf where
  important : Bool
  utility : Text
  nonempty : utility ≠ []
  plain : ∀ c ∈ utility, isPlain c = true
  colonFree : ':' ∉ utility
  unmarked : utility.head? ≠ some '!'

def Leaf.word (leaf : Leaf) : Word where
  atoms := (if leaf.important then [markAtom] else []) ++ leaf.utility.pmap Atom.char leaf.plain
  nonempty := by simp [leaf.nonempty]

def Label.names (label : Label) : List Text := label.segments.map Segment.text

/-- A leaf is under the variants of all labels around it, and one mark among them is enough. -/
def Placed.meaning (place : Placed Leaf) : Token.Meaning where
  variants := place.labels.flatMap Label.names
  utility := place.content.utility
  important := place.content.important || place.labels.any Label.marked

/-- No group around the leaf is marked, other than the outermost one. -/
def Placed.Clear (place : Placed Leaf) : Prop := ∀ label ∈ place.labels.tail, label.marked = false

instance (place : Placed Leaf) : Decidable place.Clear :=
  inferInstanceAs (Decidable (∀ label ∈ place.labels.tail, label.marked = false))

/-! ## The texts of leaves and labels -/

theorem spell_pmap_char (t : Text) (plain : ∀ c ∈ t, isPlain c = true) :
    spell (t.pmap Atom.char plain) = t := by
  induction t with
  | nil => rfl
  | cons c t ih =>
      have hrest := ih fun d hd => plain d (List.mem_cons_of_mem c hd)
      rw [List.pmap_cons, spell, List.flatMap_cons, ← spell, hrest]
      rfl

theorem Leaf.text_word (leaf : Leaf) :
    leaf.word.text = Token.marked leaf.important leaf.utility := by
  have hplain := spell_pmap_char leaf.utility leaf.plain
  rw [spell] at hplain
  rw [Word.text, Leaf.word, spell, List.flatMap_append, hplain]
  cases leaf.important <;> rfl

theorem Leaf.colonFree_word (leaf : Leaf) : ∀ atom ∈ leaf.word.atoms, atom.text ≠ [':'] := by
  intro atom hatom htext
  rcases List.mem_append.mp hatom with hmark | hchar
  · cases himportant : leaf.important <;> simp [himportant] at hmark
    subst hmark
    exact absurd htext (by decide)
  · obtain ⟨c, hc, rfl⟩ := List.mem_pmap.mp hchar
    cases htext
    exact leaf.colonFree hc

/-- The word of a leaf is one segment of a class name. -/
theorem Leaf.segments_text (leaf : Leaf) :
    ClassName.segments (Token.marked leaf.important leaf.utility) =
      [Token.marked leaf.important leaf.utility] := by
  rw [← leaf.text_word]
  exact (isSegment_spell leaf.colonFree_word).whole

/-- A leaf does not end with a parenthesis, and neither does a name that it ends. -/
theorem Leaf.endsWith_of_suffix (leaf : Leaf) {name : Text} (hname : leaf.utility <:+ name) :
    Text.endsWith name ")" = false := by
  refine Bool.eq_false_iff.mpr fun hend => ?_
  have hparen : ([')'] : Text) <:+ name := List.isSuffixOf_iff_suffix.mp hend
  have hlength : ([')'] : Text).length ≤ leaf.utility.length :=
    List.length_pos_iff.mpr leaf.nonempty
  obtain ⟨front, hfront⟩ := List.suffix_of_suffix_length_le hparen hname hlength
  have hplain : isPlain ')' = true := leaf.plain ')' (by simp [← hfront])
  exact absurd hplain (by decide)

namespace Label

/-- The segments that a label adds to a name: its own, with the mark on the first one. -/
def written (label : Label) : List Text := label.names.modifyHead (Token.marked label.marked)

theorem spell_closedAtoms_append (segments : List Segment) (t : Text) :
    spell (closedAtoms segments) ++ t =
      ClassName.withVariants t (segments.map Segment.text) := by
  induction segments with
  | nil => rw [List.map_nil, ClassName.withVariants_nil]; rfl
  | cons segment rest ih =>
      rw [List.map_cons, ClassName.withVariants_cons, ← ih]
      simp [closedAtoms, spell, Segment.text, colonAtom, Atom.text]

theorem names_ne_nil (label : Label) : label.names ≠ [] := by
  simp [names, label.nonempty]

theorem withVariants_written (label : Label) (t : Text) (more : List Text) :
    ClassName.withVariants t (label.written ++ more) =
      Token.marked label.marked (ClassName.withVariants t (label.names ++ more)) := by
  obtain ⟨first, others, hnames⟩ := List.exists_cons_of_ne_nil label.names_ne_nil
  rw [written, hnames, List.modifyHead_cons, List.cons_append, List.cons_append,
    ClassName.withVariants_cons, ClassName.withVariants_cons]
  cases label.marked <;> rfl

theorem text_append (label : Label) (t : Text) :
    label.text ++ t = ClassName.withVariants t label.written := by
  have hwritten := label.withVariants_written t []
  rw [List.append_nil, List.append_nil] at hwritten
  rw [hwritten, names, ← spell_closedAtoms_append]
  cases hmarked : label.marked <;>
    simp [text, atoms, hmarked, spell, Token.marked, markAtom, Atom.text]

theorem isSegment_names (label : Label) : ∀ name ∈ label.names, ClassName.IsSegment name := by
  intro name hname
  obtain ⟨segment, -, rfl⟩ := List.mem_map.mp hname
  exact isSegment_spell segment.colonFree

theorem isSegment_flatMap_names (labels : List Label) :
    ∀ name ∈ labels.flatMap names, ClassName.IsSegment name := by
  intro name hname
  obtain ⟨label, -, hin⟩ := List.mem_flatMap.mp hname
  exact label.isSegment_names name hin

theorem isSegment_written (label : Label) : ∀ name ∈ label.written, ClassName.IsSegment name := by
  obtain ⟨first, others, hnames⟩ := List.exists_cons_of_ne_nil label.names_ne_nil
  have hsegments := label.isSegment_names
  rw [hnames] at hsegments
  rw [written, hnames, List.modifyHead_cons]
  intro name hname
  rcases List.mem_cons.mp hname with rfl | hother
  · have hfirst := hsegments first List.mem_cons_self
    cases label.marked with
    | false => exact hfirst
    | true =>
        exact (Brackets.Whole.char (c := '!') (by decide) (.inl (by decide))).append hfirst
  · exact hsegments name (List.mem_cons_of_mem first hother)

/-- Without a mark, a label does not begin with an exclamation mark. -/
theorem head?_withVariants (label : Label) (hmarked : label.marked = false) (t : Text)
    (more : List Text) :
    (ClassName.withVariants t (label.names ++ more)).head? ≠ some '!' := by
  obtain ⟨segment, others, hsegments⟩ := List.exists_cons_of_ne_nil label.nonempty
  have hhead := label.unmarked hmarked segment (by simp [hsegments])
  obtain ⟨c, front, htext, -, -⟩ := exists_cons_of_spell segment.nonempty
  rw [Segment.text, htext] at hhead
  rw [names, hsegments, List.map_cons, List.cons_append, ClassName.withVariants_cons,
    Segment.text, htext]
  exact hhead

theorem written_eq_names_iff (label : Label) :
    label.written = label.names ↔ label.marked = false := by
  obtain ⟨first, others, hnames⟩ := List.exists_cons_of_ne_nil label.names_ne_nil
  rw [written, hnames, List.modifyHead_cons]
  cases label.marked <;> simp [Token.marked]

/-- The segments that labels add to a name are those they stand for if none has a mark. -/
theorem flatMap_written_eq_iff (labels : List Label) :
    labels.flatMap written = labels.flatMap names ↔ ∀ label ∈ labels, label.marked = false := by
  induction labels with
  | nil => simp
  | cons label rest ih =>
      have hlength : label.written.length = label.names.length := by simp [written]
      rw [List.flatMap_cons, List.flatMap_cons, List.forall_mem_cons, ← ih,
        ← label.written_eq_names_iff]
      constructor
      · intro heq
        exact List.append_inj heq hlength
      · rintro ⟨hfirst, hothers⟩
        rw [hfirst, hothers]

end Label

theorem flatMap_text_append (labels : List Label) (t : Text) :
    labels.flatMap Label.text ++ t =
      ClassName.withVariants t (labels.flatMap Label.written) := by
  induction labels with
  | nil => rw [List.flatMap_nil, List.flatMap_nil, ClassName.withVariants_nil, List.nil_append]
  | cons label rest ih =>
      rw [List.flatMap_cons, List.append_assoc, ih, Label.text_append,
        ClassName.withVariants_append, List.flatMap_cons]

/-! ## Reading a leaf behind its labels -/

namespace Placed

theorem text_eq (place : Placed Leaf) :
    place.text Leaf.word = ClassName.withVariants
      (Token.marked place.content.important place.content.utility)
      (place.labels.flatMap Label.written) := by
  rw [Placed.text, Leaf.text_word, flatMap_text_append]

theorem text_cons (label : Label) (labels : List Label) (leaf : Leaf) :
    Placed.text Leaf.word ⟨label :: labels, leaf⟩ = Token.marked label.marked
      (ClassName.withVariants (Token.marked leaf.important leaf.utility)
        (label.names ++ labels.flatMap Label.written)) := by
  rw [text_eq, List.flatMap_cons, Label.withVariants_written]

theorem trimmed_text (place : Placed Leaf) : (place.text Leaf.word).Trimmed := by
  have hblank : ∀ c ∈ place.text Leaf.word, Text.isBlank c = false := by
    intro c hc
    rcases List.mem_append.mp hc with hlabels | hword
    · obtain ⟨label, -, hlabel⟩ := List.mem_flatMap.mp hlabels
      exact not_isBlank_of_mem_spell hlabel
    · exact not_isBlank_of_mem_spell hword
  exact ⟨fun c hc => hblank c (List.mem_of_head? hc),
    fun c hc => hblank c (List.mem_of_getLast? hc)⟩

variable {accepts : Text → Except Error Bool}

/-- The variants of all labels around a leaf are recognised. -/
def Recognised (accepts : Text → Except Error Bool) (place : Placed Leaf) : Prop :=
  ∀ label ∈ place.labels, ∀ name ∈ label.names, Token.segmentAnswer accepts name = .ok true

theorem Recognised.accepted {place : Placed Leaf} (hknown : place.Recognised accepts) :
    ∀ name ∈ place.meaning.variants, Token.segmentAnswer accepts name = .ok true := by
  intro name hname
  obtain ⟨label, hlabel, hin⟩ := List.mem_flatMap.mp hname
  exact hknown label hlabel name hin

/-- If no inner label has a mark, the name has the parts that the leaf stands for. -/
theorem assembled_of_clear {place : Placed Leaf} (hknown : place.Recognised accepts)
    (hclear : place.Clear) :
    ∃ outer inner, (outer || inner) = place.meaning.important ∧
      Token.Assembled accepts (place.text Leaf.word) outer inner place.meaning.variants
        place.content.utility := by
  obtain ⟨labels, leaf⟩ := place
  have htrimmed := trimmed_text ⟨labels, leaf⟩
  have haccepted := hknown.accepted
  have hsegments := Label.isSegment_flatMap_names labels
  cases labels with
  | nil =>
      -- The mark of a leaf that stands alone is the one in front of the name.
      have hplain := { leaf with important := false }.segments_text
      refine ⟨leaf.important, false, by simp [meaning], ?_⟩
      exact {
        eq := by simp [text_eq, meaning, ClassName.withVariants_nil, Token.marked]
        trimmed := htrimmed
        segments := hsegments
        accepted := haccepted
        stops := by rw [hplain]; trivial
        unmarked := fun _ => by
          rw [meaning, List.flatMap_nil, ClassName.withVariants_nil]
          exact leaf.unmarked
        unmarkedBody := fun _ => leaf.unmarked }
  | cons label others =>
      have hothers : ∀ other ∈ others, other.marked = false := hclear
      have hany : others.any Label.marked = false := by simpa using hothers
      refine ⟨label.marked, leaf.important, by simp [meaning, hany, Bool.or_comm], ?_⟩
      exact {
        eq := by
          rw [text_cons, (Label.flatMap_written_eq_iff others).mpr hothers]
          rfl
        trimmed := htrimmed
        segments := hsegments
        accepted := haccepted
        stops := by rw [leaf.segments_text]; trivial
        unmarked := fun hmarked => label.head?_withVariants hmarked _ _
        unmarkedBody := fun _ => leaf.unmarked }

/-- A name that has these parts has no mark on an inner label: such a mark would stand before
a segment. -/
theorem clear_of_assembled {place : Placed Leaf} {outer inner : Bool}
    (hparts : Token.Assembled accepts (place.text Leaf.word) outer inner place.meaning.variants
      place.content.utility) : place.Clear := by
  obtain ⟨labels, leaf⟩ := place
  cases labels with
  | nil => simp [Clear]
  | cons label others =>
      have hmark := congrArg Token.splitImportant hparts.eq
      rw [Token.splitImportant_marked hparts.unmarked, text_cons, Token.splitImportant_marked
        fun hmarked => label.head?_withVariants hmarked _ _] at hmark
      have hwritten : ∀ name ∈ label.names ++ others.flatMap Label.written,
          ClassName.IsSegment name := by
        intro name hname
        rcases List.mem_append.mp hname with hfirst | hrest
        · exact label.isSegment_names name hfirst
        · obtain ⟨other, -, hin⟩ := List.mem_flatMap.mp hrest
          exact other.isSegment_written name hin
      have hleaf := { leaf with important := inner }.segments_text
      have hsegments := congrArg ClassName.segments (Prod.mk.inj hmark).2
      rw [ClassName.segments_withVariants hwritten, ClassName.segments_withVariants hparts.segments,
        leaf.segments_text, hleaf, meaning, List.flatMap_cons, List.append_assoc,
        List.append_assoc] at hsegments
      -- Both lists end with the leaf, and what is before it has to agree.
      have hbehind := List.append_cancel_left hsegments
      exact (Label.flatMap_written_eq_iff others).mp (List.append_inj_left' hbehind rfl)

/-- A leaf is read as what it stands for if the only mark of a label is in front. -/
theorem meaning_iff_clear {place : Placed Leaf} (hknown : place.Recognised accepts)
    {token : Token} (hread : Token.readAnswer accepts (place.text Leaf.word) = .ok token) :
    token.meaning = place.meaning ↔ place.Clear := by
  have htrim := Text.trim_of_trimmed place.trimmed_text
  constructor
  · intro hmeaning
    obtain ⟨outer, inner, body, hparts, -, hbody⟩ := Token.exists_assembled_of_readAnswer hread
    obtain ⟨-, -, -, hutility⟩ := Token.parts_of_bodyAnswer hbody
    have hvariants : token.variants = place.meaning.variants :=
      congrArg Token.Meaning.variants hmeaning
    have hsame : body = place.content.utility :=
      hutility.symm.trans (congrArg Token.Meaning.utility hmeaning)
    rw [htrim, hvariants, hsame] at hparts
    exact clear_of_assembled hparts
  · intro hclear
    obtain ⟨outer, inner, himportant, hparts⟩ := assembled_of_clear hknown hclear
    rw [← htrim] at hparts
    rw [hparts.readAnswer_eq] at hread
    obtain ⟨-, hvariants, hmark, hutility⟩ := Token.parts_of_bodyAnswer hread
    rw [Token.meaning, hvariants, hmark, hutility, himportant]
    rfl

theorem exists_readAnswer (place : Placed Leaf) (accepts : Text → Bool) :
    ∃ token, Token.readAnswer (fun name => .ok (accepts name)) (place.text Leaf.word) =
      .ok token := by
  refine Token.exists_readAnswer accepts ?_
  rw [Text.trim_of_trimmed place.trimmed_text, text_eq]
  exact place.content.endsWith_of_suffix
    ((Token.suffix_marked _ _).trans (ClassName.suffix_withVariants _ _))

end Placed

/-! ## Reading a forest -/

/-- Reading the text of a forest gives one token for each leaf in order, from every faithful
cache. The token is what the leaf stands for exactly if no group around the leaf is marked
other than the outermost one. -/
theorem readAll_meaning_iff {more : List Lookup} {known : Text → Cached Bool}
    {accepts : Text → Bool}
    (hsettles : ∀ name, Settles (PatternCache.Faithful (Token.lookups ++ more)) (known name)
      (.ok (accepts name)))
    {forest : Forest Leaf} {t : Text} (hwritten : Written Leaf.word forest t)
    (hknown : ∀ place ∈ forest.leaves [], place.Recognised fun name => .ok (accepts name))
    {cache : PatternCache} (hcache : cache.Faithful (Token.lookups ++ more)) :
    ∃ tokens, (Token.readAll known t cache).1 = .ok tokens ∧
      tokens.length = (forest.leaves []).length ∧
      (∀ (i : Nat) (place : Placed Leaf) (token : Token), (forest.leaves [])[i]? = some place →
        tokens[i]? = some token → (token.meaning = place.meaning ↔ place.Clear)) ∧
      (tokens.map Token.meaning = (forest.leaves []).map Placed.meaning ↔
        ∀ place ∈ forest.leaves [], place.Clear) := by
  let reading (place : Placed Leaf) : Token :=
    Token.reading (fun name => .ok (accepts name)) (place.text Leaf.word)
  have hread : ∀ raw ∈ (forest.leaves []).map (Placed.text Leaf.word),
      ∃ token, Token.readAnswer (fun name => .ok (accepts name)) raw = .ok token := by
    intro raw hraw
    obtain ⟨place, -, rfl⟩ := List.mem_map.mp hraw
    exact place.exists_readAnswer accepts
  have hmeaning : ∀ place ∈ forest.leaves [],
      ((reading place).meaning = place.meaning ↔ place.Clear) := by
    intro place hplace
    exact Placed.meaning_iff_clear (hknown place hplace)
      (Token.readAnswer_eq_reading (place.exists_readAnswer accepts))
  have hanswer := (Token.settles_readEach hsettles hread cache hcache).1
  rw [← expand_written hwritten, ← Token.readAll, expand_written hwritten, List.map_map] at hanswer
  refine ⟨_, hanswer, by simp, ?_, ?_⟩
  · intro i place token hplace htoken
    rw [List.getElem?_map, hplace] at htoken
    cases htoken
    exact hmeaning place (List.mem_of_getElem? hplace)
  · rw [List.map_map, List.map_inj_left]
    exact forall_congr' fun place => forall_congr' fun hplace => hmeaning place hplace

/-- A label of one segment of plain characters. -/
def Label.ofPlain (marked : Bool) (t : Text) (nonempty : t ≠ [])
    (plain : ∀ c ∈ t, isPlain c = true) (colonFree : ':' ∉ t) (unmarked : t.head? ≠ some '!') :
    Label where
  marked
  segments := [{
    atoms := t.pmap Atom.char plain
    nonempty := by simp [nonempty]
    colonFree := by
      intro atom hatom htext
      obtain ⟨c, hc, rfl⟩ := List.mem_pmap.mp hatom
      cases htext
      exact colonFree hc }]
  nonempty := List.cons_ne_nil _ _
  unmarked := by
    rintro - segment hsegment
    cases hsegment
    rwa [Segment.text, spell_pmap_char]

def hoverLabel (marked : Bool) : Label :=
  .ofPlain marked "hover" (by decide) (List.all_eq_true.mp rfl) (by decide) (by decide)

def focusLabel (marked : Bool) : Label :=
  .ofPlain marked "focus" (by decide) (List.all_eq_true.mp rfl) (by decide) (by decide)

/-- The leaf `a`. -/
def plainLeaf : Leaf where
  important := false
  utility := "a"
  nonempty := by decide
  plain := List.all_eq_true.mp rfl
  colonFree := by decide
  unmarked := by decide

/-- The leaf `!-m/50`. -/
def shiftedLeaf : Leaf where
  important := true
  utility := "-m/50"
  nonempty := by decide
  plain := List.all_eq_true.mp rfl
  colonFree := by decide
  unmarked := by decide

/-- The group `focus:(a)`, which may be marked. -/
def focused (marked : Bool) : Forest Leaf := .group (focusLabel marked) (.leaf plainLeaf .nil) .nil

def isKnown (name : Text) : Bool := name == "hover" || name == "focus"

theorem written_focused (marked : Bool) {gap : Text} (hgap : IsGap gap) :
    Written Leaf.word (focused marked) (gap ++ Token.marked marked "focus:(a)") := by
  have hnil : Written Leaf.word .nil [] := .nil (by simp [IsGap])
  have hleaf : Written Leaf.word (.leaf plainLeaf .nil) "a" :=
    @Written.leaf _ _ [] [] _ _ (by simp [IsGap]) hnil (by simp [Apart])
  have hgroup :=
    @Written.group _ _ gap _ _ (focusLabel marked) _ _ hgap hleaf hnil (by simp [Apart])
  cases marked <;> exact hgroup

theorem recognised_of_names {place : Placed Leaf} (hnames : ∀ label ∈ place.labels,
    ∀ name ∈ label.names, name = ("hover" : Text) ∨ name = ("focus" : Text)) :
    place.Recognised fun name => .ok (isKnown name) := by
  intro label hlabel name hname
  rcases hnames label hlabel name hname with rfl | rfl <;> rfl

/-- In `!hover:(!-m/50 focus:(a))` the only mark of a group is in front. -/
theorem readAll_meaning_hover :
    let forest : Forest Leaf := .group (hoverLabel true) (.leaf shiftedLeaf (focused false)) .nil
    let t : Text := "!hover:(!-m/50 focus:(a))"
    Written Leaf.word forest t ∧
      (∀ place ∈ forest.leaves [], place.Recognised fun name => .ok (isKnown name)) ∧
      (∀ place ∈ forest.leaves [], place.Clear) ∧
      (Token.readAll (fun name => pure (isKnown name)) t {}).1.map (·.map Token.meaning) =
        .ok [⟨["hover"], "-m/50", true⟩, ⟨["hover", "focus"], "a", true⟩] := by
  intro forest t
  have hwritten : Written Leaf.word forest t :=
    @Written.group _ _ [] _ _ (hoverLabel true) _ _ (by simp [IsGap])
      (@Written.leaf _ _ [] _ shiftedLeaf _ (by simp [IsGap])
        (@written_focused false [' '] (by simp [IsGap, isGap])) (by simp [Apart, isGap]))
      (.nil (by simp [IsGap])) (by simp [Apart])
  have hknown : ∀ place ∈ forest.leaves [], place.Recognised fun name => .ok (isKnown name) :=
    fun place hplace => recognised_of_names (by revert place; decide)
  have hclear : ∀ place ∈ forest.leaves [], place.Clear := by decide
  obtain ⟨tokens, hread, -, -, hmeanings⟩ := @readAll_meaning_iff []
    (fun name => pure (isKnown name)) isKnown (fun name => Settles.pure _) forest t hwritten
    hknown {} (PatternCache.faithful_empty _)
  refine ⟨hwritten, hknown, hclear, ?_⟩
  rw [hread]
  exact congrArg Except.ok (hmeanings.mpr hclear)

/-- In `hover:(!focus:(a))` the mark of the inner group is behind a variant, so that the second
variant is left in the body. -/
theorem readAll_hover_focus :
    let forest : Forest Leaf := .group (hoverLabel false) (focused true) .nil
    let t : Text := "hover:(!focus:(a))"
    Written Leaf.word forest t ∧
      (∀ place ∈ forest.leaves [], place.Recognised fun name => .ok (isKnown name)) ∧
      (forest.leaves []).map Placed.meaning = [⟨["hover", "focus"], "a", true⟩] ∧
      (Token.readAll (fun name => pure (isKnown name)) t {}).1.map (·.map Token.meaning) =
        .ok [⟨["hover"], "focus:a", true⟩] := by
  intro forest t
  refine ⟨?_, ?_, by decide, eq_ok_of_toOption (by decide +kernel)⟩
  · exact @Written.group _ _ [] _ _ (hoverLabel false) _ _ (by simp [IsGap])
      (@written_focused true [] (by simp [IsGap])) (.nil (by simp [IsGap])) (by simp [Apart])
  · exact fun place hplace => recognised_of_names (by revert place; decide)

end Group

end UtilityCss
