import UtilityCss.Group.Expansion
import UtilityCss.Proofs.TextSplitting

/-!
# The written form of variant groups

Items are words and groups, and a group is a heading with items in parentheses. Items are
written with gaps between them; a gap may also stand at either end, and inside the
parentheses of a group. Words and headings are made of atoms: single characters, and
brackets around a text with balanced parentheses.

Blanks at the top of written items stand between the items only, so that splitting at
blanks outside brackets gives one chunk for each item.

A forest is the same with leaves of another kind than words, and with labels: headings
whose mark can be told from the text.
-/

namespace UtilityCss

namespace Group

/-! ## Atoms, words and labels -/

/-- A text without blanks and square brackets whose parentheses are balanced. -/
inductive Balanced : Text → Prop
  | nil : Balanced []
  | char {c : Char} {t : Text} : isPlain c = true → Balanced t → Balanced (c :: t)
  | parens {inner t : Text} : Balanced inner → Balanced t →
      Balanced ('(' :: inner ++ ')' :: t)

/-- A character that is a piece of its own, or a balanced text in square brackets. -/
inductive Atom where
  | char (c : Char) (plain : isPlain c = true)
  | bracket (inner : Text) (balanced : Balanced inner)

/-- The text of an atom. -/
def Atom.text : Atom → Text
  | .char c _ => [c]
  | .bracket inner _ => '[' :: inner ++ [']']

/-- The text of some atoms. -/
def spell (atoms : List Atom) : Text := atoms.flatMap Atom.text

/-- The exclamation mark in front of a label. -/
def markAtom : Atom := .char '!' (by decide)

/-- The colon behind a segment. -/
def colonAtom : Atom := .char ':' (by decide)

/-- A segment of a label: one atom or more, and none of them a colon. -/
structure Segment where
  atoms : List Atom
  nonempty : atoms ≠ []
  colonFree : ∀ atom ∈ atoms, atom.text ≠ [':']

def Segment.text (segment : Segment) : Text := spell segment.atoms

/-- A label: segments with a colon behind each, and a mark that may stand in front. Without
a mark, it does not begin with an exclamation mark. -/
structure Label where
  marked : Bool
  segments : List Segment
  nonempty : segments ≠ []
  unmarked : marked = false → ∀ segment ∈ segments.head?, segment.text.head? ≠ some '!'

/-- The atoms of segments with a colon behind each. -/
def closedAtoms (segments : List Segment) : List Atom :=
  segments.flatMap fun segment => segment.atoms ++ [colonAtom]

def Label.atoms (label : Label) : List Atom :=
  (if label.marked then [markAtom] else []) ++ closedAtoms label.segments

def Label.text (label : Label) : Text := spell label.atoms

/-- One atom or more. -/
structure Word where
  atoms : List Atom
  nonempty : atoms ≠ []

def Word.text (word : Word) : Text := spell word.atoms

/-- Segments with a colon behind each, and a mark that may stand in front. -/
structure Heading where
  marked : Bool
  segments : List Segment
  nonempty : segments ≠ []

def Heading.atoms (heading : Heading) : List Atom :=
  (if heading.marked then [markAtom] else []) ++ closedAtoms heading.segments

def Heading.text (heading : Heading) : Text := spell heading.atoms

def Label.heading (label : Label) : Heading := ⟨label.marked, label.segments, label.nonempty⟩

/-! ## Items -/

/-- A word, or a group of items behind a heading. -/
inductive Item where
  | leaf (word : Word)
  | group (heading : Heading) (items : List Item)

mutual

/-- The leaves of an item in order, each with the headings of the groups around it,
outermost first, of which `outer` are around the item. -/
def Item.leaves (outer : List Heading) : Item → List (List Heading × Word)
  | .leaf word => [(outer, word)]
  | .group heading items => Item.allLeaves (outer ++ [heading]) items

/-- The leaves of some items. -/
def Item.allLeaves (outer : List Heading) : List Item → List (List Heading × Word)
  | [] => []
  | item :: rest => item.leaves outer ++ Item.allLeaves outer rest

end

/-- The text of a leaf behind the headings around it. -/
def leafText (leaf : List Heading × Word) : Text := leaf.1.flatMap Heading.text ++ leaf.2.text

/-- Characters that may stand between items. -/
def IsGap (t : Text) : Prop := ∀ c ∈ t, isGap c = true

/-- The text is empty or begins with a gap. -/
def Apart (t : Text) : Prop := ∀ c, t.head? = some c → isGap c = true

/-- The texts of some items. -/
inductive Printed : List Item → Text → Prop
  | nil {gap : Text} : IsGap gap → Printed [] gap
  | leaf {gap t : Text} {word : Word} {rest : List Item} : IsGap gap → Printed rest t →
      Apart t → Printed (.leaf word :: rest) (gap ++ (word.text ++ t))
  | group {gap s t : Text} {heading : Heading} {items rest : List Item} : IsGap gap →
      Printed items s → Printed rest t → Apart t →
      Printed (.group heading items :: rest) (gap ++ ((heading.text ++ ('(' :: s ++ [')'])) ++ t))

/-! ## Forests -/

/-- Items in order; each is a leaf, or a group of items behind a label. -/
inductive Forest (ω : Type) where
  | nil
  | leaf (content : ω) (rest : Forest ω)
  | group (label : Label) (inner rest : Forest ω)

/-- A leaf and the labels of the groups around it, outermost first. -/
structure Placed (ω : Type) where
  labels : List Label
  content : ω

/-- The leaves of a forest in order, inside groups with the given labels. -/
def Forest.leaves {ω : Type} : List Label → Forest ω → List (Placed ω)
  | _, .nil => []
  | outer, .leaf content rest => ⟨outer, content⟩ :: rest.leaves outer
  | outer, .group label inner rest => inner.leaves (outer ++ [label]) ++ rest.leaves outer

/-- The text of a forest whose leaves are written as words. -/
inductive Written {ω : Type} (write : ω → Word) : Forest ω → Text → Prop
  | nil {gap : Text} : IsGap gap → Written write .nil gap
  | leaf {gap t : Text} {content : ω} {rest : Forest ω} : IsGap gap → Written write rest t →
      Apart t → Written write (.leaf content rest) (gap ++ ((write content).text ++ t))
  | group {gap s t : Text} {label : Label} {inner rest : Forest ω} : IsGap gap →
      Written write inner s → Written write rest t → Apart t →
      Written write (.group label inner rest) (gap ++ ((label.text ++ ('(' :: s ++ [')'])) ++ t))

/-! ## Whole texts -/

theorem isBlank_of_isGap {c : Char} (hc : isGap c = true) : Text.isBlank c = true := by
  simp only [isGap, Bool.or_eq_true, beq_iff_eq] at hc
  rcases hc with (((rfl | rfl) | rfl) | rfl) | rfl <;> decide

theorem isPlain_iff {c : Char} :
    isPlain c = true ↔ Text.isBlank c = false ∧ Brackets.isBracket c = false := by
  simp [isPlain]

open Brackets (Whole)

theorem whole_parens {cut : Char → Bool} {depth : Nat} (hcut : cut ')' = false ∨ depth ≠ 0)
    {t : Text} (ht : Whole cut (depth + 1) t) : Whole cut depth ('(' :: t ++ [')']) :=
  ht.enclosed (fun _ => rfl) (fun _ => rfl) hcut

/-- Below the top nothing is cut. -/
theorem whole_of_balanced {cut : Char → Bool} {depth : Nat} {t : Text} (ht : Balanced t) :
    Whole cut (depth + 1) t := by
  induction ht generalizing depth with
  | nil => exact Whole.nil
  | char hc _ ih =>
      have hbracket := (isPlain_iff.mp hc).2
      exact (Whole.char hbracket (.inr (Nat.succ_ne_zero depth))).append ih
  | parens _ _ ihinner ihrest =>
      have hparens := @whole_parens cut _ (.inr (Nat.succ_ne_zero depth)) _ ihinner
      simpa using hparens.append ihrest

theorem Atom.whole {cut : Char → Bool} (hcut : cut ']' = false) {atom : Atom}
    (hatom : ∀ c, atom.text = [c] → cut c = false) (depth : Nat) :
    Whole cut depth atom.text := by
  cases atom with
  | char c plain => exact Whole.char (isPlain_iff.mp plain).2 (.inl (hatom c rfl))
  | bracket inner balanced =>
      exact (whole_of_balanced balanced).enclosed (fun _ => rfl) (fun _ => rfl) (.inl hcut)

theorem whole_spell {cut : Char → Bool} {depth : Nat} {atoms : List Atom}
    (hatoms : ∀ atom ∈ atoms, Whole cut depth atom.text) : Whole cut depth (spell atoms) := by
  induction atoms with
  | nil => exact Whole.nil
  | cons atom rest ih =>
      have hfirst := hatoms atom List.mem_cons_self
      have hrest := ih fun other hother => hatoms other (List.mem_cons_of_mem atom hother)
      exact hfirst.append hrest

/-- Atoms have no blank outside brackets. -/
theorem whole_spell_blank (atoms : List Atom) (depth : Nat) :
    Whole Text.isBlank depth (spell atoms) := by
  refine whole_spell fun atom _ => Atom.whole (by decide) (fun c hc => ?_) depth
  cases atom with
  | char d plain =>
      cases hc
      exact (isPlain_iff.mp plain).1
  | bracket inner balanced => simp [Atom.text] at hc

/-- Atoms that are no colons stay whole when a name is split at its colons. -/
theorem isSegment_spell {atoms : List Atom} (hcolon : ∀ atom ∈ atoms, atom.text ≠ [':']) :
    ClassName.IsSegment (spell atoms) := by
  refine whole_spell fun atom hatom => Atom.whole (by decide) (fun c hc => ?_) 0
  have hne : c ≠ ':' := by
    rintro rfl
    exact hcolon atom hatom hc
  simp [hne]

theorem not_isBlank_of_balanced {t : Text} (ht : Balanced t) :
    ∀ c ∈ t, Text.isBlank c = false := by
  induction ht with
  | nil => simp
  | char hc _ ih =>
      intro d hd
      rcases List.mem_cons.mp hd with rfl | hd
      · exact (isPlain_iff.mp hc).1
      · exact ih d hd
  | parens _ _ ihinner ihrest =>
      intro d hd
      simp only [List.cons_append, List.mem_cons, List.mem_append] at hd
      rcases hd with rfl | hd | rfl | hd
      · decide
      · exact ihinner d hd
      · decide
      · exact ihrest d hd

theorem not_isBlank_of_mem_spell {atoms : List Atom} {c : Char} (hc : c ∈ spell atoms) :
    Text.isBlank c = false := by
  obtain ⟨atom, -, hatom⟩ := List.mem_flatMap.mp hc
  cases atom with
  | char d plain =>
      rw [List.mem_singleton.mp hatom]
      exact (isPlain_iff.mp plain).1
  | bracket inner balanced =>
      simp only [Atom.text, List.cons_append, List.mem_cons, List.mem_append,
        List.not_mem_nil, or_false] at hatom
      rcases hatom with rfl | hinner | rfl
      · decide
      · exact not_isBlank_of_balanced balanced c hinner
      · decide

/-- Below the top, gaps and items are not cut at their blanks. -/
theorem whole_of_isGap {gap : Text} (hgap : IsGap gap) (depth : Nat) :
    Whole Text.isBlank (depth + 1) gap := by
  induction gap with
  | nil => exact Whole.nil
  | cons c rest ih =>
      have hblank := isBlank_of_isGap (hgap c List.mem_cons_self)
      have hrest := ih fun d hd => hgap d (List.mem_cons_of_mem c hd)
      exact (Whole.char (Brackets.not_isBracket_of_isBlank hblank)
        (.inr (Nat.succ_ne_zero depth))).append hrest

theorem whole_of_printed {items : List Item} {t : Text} (hprinted : Printed items t)
    (depth : Nat) : Whole Text.isBlank (depth + 1) t := by
  induction hprinted generalizing depth with
  | nil hgap => exact whole_of_isGap hgap depth
  | leaf hgap _ _ ih =>
      exact (whole_of_isGap hgap depth).append ((whole_spell_blank _ _).append (ih depth))
  | group hgap _ _ _ ihinner ihrest =>
      have hparens := whole_parens (.inl (by decide)) (ihinner (depth + 1))
      exact (whole_of_isGap hgap depth).append
        (((whole_spell_blank _ _).append hparens).append (ihrest depth))

/-- A group is one chunk. -/
theorem whole_group (heading : Heading) {items : List Item} {s : Text}
    (hprinted : Printed items s) :
    Whole Text.isBlank 0 (heading.text ++ ('(' :: s ++ [')'])) :=
  (whole_spell_blank _ _).append (whole_parens (.inl (by decide)) (whole_of_printed hprinted 0))

end Group

end UtilityCss
