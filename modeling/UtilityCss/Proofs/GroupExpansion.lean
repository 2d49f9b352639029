import Mathlib.Data.List.TakeDrop
import UtilityCss.Proofs.GroupSyntax

/-!
# Expansion undoes the writing of groups

The lexemes of written items are their words, headings and closing parentheses in order,
whatever gaps they are written with, and putting them together gives the leaves, each
behind the headings of the groups around it. An empty group gives nothing.
-/

namespace UtilityCss

namespace Group

/-! ## Pieces -/

/-- Inside brackets a piece goes on to the closing bracket. -/
theorem stays_of_balanced {t : Text} (ht : Balanced t) :
    ∀ c ∈ t, (c != ']' && !Text.isBlank c) = true := by
  induction ht with
  | nil => simp
  | @char c t hc _ ih =>
      intro d hd
      rcases List.mem_cons.mp hd with rfl | hlater
      · obtain ⟨hblank, hbracket⟩ := isPlain_iff.mp hc
        have hne : d ≠ ']' := by
          rintro rfl
          exact absurd hbracket (by decide)
        simp [hne, hblank]
      · exact ih d hlater
  | @parens inner t _ _ ihinner ihrest =>
      intro d hd
      simp only [List.cons_append, List.mem_cons, List.mem_append] at hd
      rcases hd with rfl | hinner | rfl | hlater
      · decide
      · exact ihinner d hinner
      · decide
      · exact ihrest d hlater

theorem span_append_of_all {p : Char → Bool} {t : Text} (ht : ∀ c ∈ t, p c = true) {d : Char}
    (hd : p d = false) (rest : Text) : (t ++ d :: rest).span p = (t, d :: rest) := by
  rw [List.span_eq_takeWhile_dropWhile, List.takeWhile_append_of_pos ht,
    List.dropWhile_append_of_pos ht]
  simp [hd]

theorem labelPiece?_append (atom : Atom) (t : Text) :
    labelPiece? (atom.text ++ t) = some (atom.text, t) := by
  cases atom with
  | char c plain => simp [labelPiece?, Atom.text, plain?, plain]
  | bracket inner balanced =>
      have hspan := span_append_of_all (stays_of_balanced balanced) (d := ']') (by decide) t
      have hbracketed : bracketed? ('[' :: (inner ++ ']' :: t)) =
          some ('[' :: inner ++ [']'], t) := by
        rw [bracketed?, hspan]
        rfl
      have hopen : isPlain '[' = false := by decide
      simp [labelPiece?, Atom.text, plain?, hopen, hbracketed]

theorem wordPiece?_append (atom : Atom) (t : Text) :
    wordPiece? (atom.text ++ t) = some (atom.text, t) := by
  rw [wordPiece?, labelPiece?_append]
  rfl

/-- What ends a word or a label: nothing, a gap or a parenthesis. -/
def Ends (t : Text) : Prop := ∀ c, t.head? = some c → isGap c = true ∨ c = ')'

theorem Apart.ends {t : Text} (ht : Apart t) {rest : Text} (hrest : Ends rest) :
    Ends (t ++ rest) := by
  cases t with
  | nil => exact hrest
  | cons c t =>
      intro d hd
      exact .inl (ht d hd)

theorem labelPiece?_of_not_piece {c : Char} (hplain : isPlain c = false) (hopen : c ≠ '[')
    (t : Text) : labelPiece? (c :: t) = none := by
  have hbracketed : bracketed? (c :: t) = none := by
    unfold bracketed?
    split
    next heq => exact absurd (List.cons.inj heq).1 hopen
    next => rfl
  simp [labelPiece?, plain?, hplain, hbracketed]

theorem wordPiece?_of_ends {t : Text} (ht : Ends t) : wordPiece? t = none := by
  cases t with
  | nil => rfl
  | cons c t =>
      have hshape : isPlain c = false ∧ c ≠ '[' ∧ c ≠ '(' := by
        rcases ht c rfl with hgap | rfl
        · have hblank := isBlank_of_isGap hgap
          refine ⟨by simp [isPlain, hblank], ?_, ?_⟩ <;>
            · rintro rfl
              revert hblank
              decide
        · decide
      have hparens : parenthesized? (c :: t) = none := by
        unfold parenthesized?
        split
        next heq => exact absurd (List.cons.inj heq).1 hshape.2.2
        next => rfl
      simp [wordPiece?, labelPiece?_of_not_piece hshape.1 hshape.2.1, hparens]

theorem labelPiece?_of_ends {t : Text} (ht : Ends t) : labelPiece? t = none := by
  have hword := wordPiece?_of_ends ht
  rw [wordPiece?, Option.orElse_eq_or, Option.or_eq_none_iff] at hword
  exact hword.1

theorem pieces_of_fuel {piece? : Text → Option (Text × Text)}
    (hpiece : ∀ (atom : Atom) (t : Text), piece? (atom.text ++ t) = some (atom.text, t))
    {rest : Text} (hrest : piece? rest = none) (atoms : List Atom) {fuel : Nat}
    (hfuel : atoms.length ≤ fuel) :
    pieces piece? fuel (spell atoms ++ rest) = (atoms.map Atom.text, rest) := by
  induction atoms generalizing fuel with
  | nil =>
      cases fuel with
      | zero => rfl
      | succ fuel =>
          change pieces piece? (fuel + 1) rest = ([], rest)
          rw [pieces, hrest]
  | cons atom atoms ih =>
      cases fuel with
      | zero => exact absurd hfuel (Nat.not_succ_le_zero _)
      | succ fuel =>
          have htext : spell (atom :: atoms) ++ rest = atom.text ++ (spell atoms ++ rest) := by
            simp [spell]
          rw [htext, pieces, hpiece]
          simp [ih (Nat.le_of_succ_le_succ hfuel)]

theorem length_le_spell (atoms : List Atom) : atoms.length ≤ (spell atoms).length := by
  induction atoms with
  | nil => exact Nat.le_refl 0
  | cons atom atoms ih =>
      have hone : 1 ≤ atom.text.length := by cases atom <;> simp [Atom.text]
      simp only [spell, List.flatMap_cons, List.length_append, List.length_cons] at ih ⊢
      omega

/-- Atoms are the pieces of their text, up to where no piece begins. -/
theorem pieces_spell {piece? : Text → Option (Text × Text)}
    (hpiece : ∀ (atom : Atom) (t : Text), piece? (atom.text ++ t) = some (atom.text, t))
    {rest : Text} (hrest : piece? rest = none) (atoms : List Atom) :
    pieces piece? (spell atoms ++ rest).length (spell atoms ++ rest) =
      (atoms.map Atom.text, rest) := by
  refine pieces_of_fuel hpiece hrest atoms ?_
  have hlength := length_le_spell atoms
  rw [List.length_append]
  omega

/-! ## Lexemes -/

theorem word?_spell {atoms : List Atom} (hatoms : atoms ≠ []) {rest : Text} (hrest : Ends rest) :
    word? (spell atoms ++ rest) = some (spell atoms, rest) := by
  rw [word?, pieces_spell wordPiece?_append (wordPiece?_of_ends hrest)]
  cases atoms with
  | nil => exact absurd rfl hatoms
  | cons atom atoms => rfl

theorem label?_of_ends (atoms : List Atom) {rest : Text} (hrest : Ends rest) :
    label? (spell atoms ++ rest) = none := by
  rw [label?, pieces_spell labelPiece?_append (labelPiece?_of_ends hrest)]
  cases rest with
  | nil => rfl
  | cons c rest =>
      have hopen : c ≠ '(' := by
        rintro rfl
        rcases hrest '(' rfl with hgap | hclose
        · exact absurd hgap (by decide)
        · exact absurd hclose (by decide)
      split
      next heq => exact absurd (List.cons.inj (Prod.mk.inj heq).2).1 hopen
      next => rfl

theorem isLabelFrom_append {filled : Bool} {atoms : List Atom}
    (hcolonFree : ∀ atom ∈ atoms, atom.text ≠ [':']) {rest : List Text} (hrest : rest ≠ []) :
    isLabelFrom filled (atoms.map Atom.text ++ rest) =
      isLabelFrom (filled || atoms ≠ []) rest := by
  induction atoms generalizing filled with
  | nil => simp
  | cons atom atoms ih =>
      have hcolon := hcolonFree atom List.mem_cons_self
      have hlater := @ih true fun other hother =>
        hcolonFree other (List.mem_cons_of_mem atom hother)
      rw [List.map_cons, List.cons_append, isLabelFrom]
      · simp [hcolon, hlater]
      · simp [hrest]

/-- Pieces of segments, each closed by a colon, are those of a label. -/
theorem isLabelFrom_closedAtoms {segments : List Segment} (hsegments : segments ≠ [])
    (filled : Bool) : isLabelFrom filled ((closedAtoms segments).map Atom.text) = true := by
  induction segments generalizing filled with
  | nil => exact absurd rfl hsegments
  | cons segment others ih =>
      have hsplit : (closedAtoms (segment :: others)).map Atom.text =
          segment.atoms.map Atom.text ++ [':'] :: (closedAtoms others).map Atom.text := by
        simp [closedAtoms, colonAtom, Atom.text]
      have hfilled : (filled || decide (segment.atoms ≠ [])) = true := by
        simp [segment.nonempty]
      rw [hsplit, isLabelFrom_append segment.colonFree (List.cons_ne_nil _ _), hfilled]
      cases others with
      | nil => rfl
      | cons next others =>
          rw [isLabelFrom]
          · simpa using ih (List.cons_ne_nil next others) false
          · obtain ⟨atom, atoms, hatoms⟩ := List.exists_cons_of_ne_nil next.nonempty
            simp [closedAtoms, hatoms]

theorem closedAtoms_ne_nil {segments : List Segment} (hsegments : segments ≠ []) :
    closedAtoms segments ≠ [] := by
  obtain ⟨segment, others, rfl⟩ := List.exists_cons_of_ne_nil hsegments
  simp [closedAtoms]

theorem isLabelFrom_heading (heading : Heading) :
    isLabelFrom false (heading.atoms.map Atom.text) = true := by
  have hclosed : (closedAtoms heading.segments).map Atom.text ≠ [] := by
    simp [closedAtoms_ne_nil heading.nonempty]
  have hmark : ∀ atom ∈ (if heading.marked then [markAtom] else []), atom.text ≠ [':'] := by
    cases heading.marked <;> simp [markAtom, Atom.text]
  rw [Heading.atoms, List.map_append, isLabelFrom_append hmark hclosed]
  exact isLabelFrom_closedAtoms heading.nonempty _

theorem label?_append (heading : Heading) (rest : Text) :
    label? (heading.text ++ '(' :: rest) = some (heading.text, rest) := by
  have hopen : labelPiece? ('(' :: rest) = none :=
    labelPiece?_of_not_piece (by decide) (by decide) rest
  rw [label?, Heading.text, pieces_spell labelPiece?_append hopen]
  simp only [isLabelFrom_heading]
  rfl

/-- A text has these lexemes, however much fuel is left over. -/
def Lexes (t : Text) (lexed : List Lexeme) : Prop :=
  ∀ fuel, t.length ≤ fuel → lexemes? fuel t = some lexed

namespace Lexes

theorem nil : Lexes [] [] := by
  intro fuel _
  cases fuel <;> rfl

theorem gap {gap t : Text} {lexed : List Lexeme} (hgap : IsGap gap) (ht : Lexes t lexed) :
    Lexes (gap ++ t) lexed := by
  induction gap with
  | nil => exact ht
  | cons c rest ih =>
      intro fuel hfuel
      cases fuel with
      | zero => exact absurd hfuel (Nat.not_succ_le_zero _)
      | succ fuel =>
          have hrest := ih (fun d hd => hgap d (List.mem_cons_of_mem c hd)) fuel
            (Nat.le_of_succ_le_succ hfuel)
          rw [List.cons_append, lexemes?, if_pos (hgap c List.mem_cons_self), hrest]

/-- A lexeme that is not empty is read before the lexemes of what follows it. -/
theorem cons {c : Char} {front rest : Text} {lexeme : Lexeme} {lexed : List Lexeme}
    (hgap : isGap c = false) (hlexeme : lexeme? (c :: front ++ rest) = some (lexeme, rest))
    (hrest : Lexes rest lexed) : Lexes (c :: front ++ rest) (lexeme :: lexed) := by
  intro fuel hfuel
  cases fuel with
  | zero => exact absurd hfuel (Nat.not_succ_le_zero _)
  | succ fuel =>
      have hlength : rest.length ≤ fuel := by
        simp only [List.cons_append, List.length_cons, List.length_append] at hfuel
        omega
      rw [List.cons_append, lexemes?, if_neg (by simp [hgap]), ← List.cons_append, hlexeme]
      simp [hrest fuel hlength]

theorem closing {rest : Text} {lexed : List Lexeme} (hrest : Lexes rest lexed) :
    Lexes (')' :: rest) (.closing :: lexed) :=
  @cons ')' [] rest .closing lexed (by decide) rfl hrest

end Lexes

/-- A text that begins with an atom does not begin with a gap or a closing parenthesis. -/
theorem exists_cons_of_spell {atoms : List Atom} (hatoms : atoms ≠ []) :
    ∃ c front, spell atoms = c :: front ∧ isGap c = false ∧ c ≠ ')' := by
  obtain ⟨atom, others, rfl⟩ := List.exists_cons_of_ne_nil hatoms
  cases atom with
  | char c plain =>
      obtain ⟨hblank, hbracket⟩ := isPlain_iff.mp plain
      refine ⟨c, spell others, rfl, ?_, ?_⟩
      · apply Bool.eq_false_iff.mpr
        intro hgap
        rw [isBlank_of_isGap hgap] at hblank
        cases hblank
      · rintro rfl
        exact absurd hbracket (by decide)
  | bracket inner balanced =>
      exact ⟨'[', (inner ++ [']']) ++ spell others, by simp [spell, Atom.text], by decide,
        by decide⟩

theorem lexeme?_of_ne_closing {c : Char} (hc : c ≠ ')') (t : Text) :
    lexeme? (c :: t) = match label? (c :: t) with
      | some (label, rest) => some (.opening label, rest)
      | none => (word? (c :: t)).map fun (word, rest) => (.word word, rest) := by
  unfold lexeme?
  split
  next heq => exact absurd (List.cons.inj heq).1 hc
  next => rfl

namespace Lexes

theorem word {atoms : List Atom} (hatoms : atoms ≠ []) {rest : Text} {lexed : List Lexeme}
    (hends : Ends rest) (hrest : Lexes rest lexed) :
    Lexes (spell atoms ++ rest) (.word (spell atoms) :: lexed) := by
  have hlabel := label?_of_ends atoms hends
  have hword := word?_spell hatoms hends
  obtain ⟨c, front, htext, hgap, hclosing⟩ := exists_cons_of_spell hatoms
  rw [htext] at hlabel hword ⊢
  refine Lexes.cons hgap ?_ hrest
  rw [List.cons_append, lexeme?_of_ne_closing hclosing, ← List.cons_append, hlabel, hword]
  rfl

theorem opening (heading : Heading) {rest : Text} {lexed : List Lexeme}
    (hrest : Lexes rest lexed) :
    Lexes (heading.text ++ '(' :: rest) (.opening heading.text :: lexed) := by
  have hlabel := label?_append heading rest
  have hatoms : heading.atoms ≠ [] := by
    simp [Heading.atoms, closedAtoms_ne_nil heading.nonempty]
  obtain ⟨c, front, htext, hgap, hclosing⟩ := exists_cons_of_spell hatoms
  have hsplit : heading.text ++ '(' :: rest = c :: (front ++ ['(']) ++ rest := by
    simp [Heading.text, htext]
  rw [hsplit] at hlabel ⊢
  refine Lexes.cons hgap ?_ hrest
  rw [List.cons_append, lexeme?_of_ne_closing hclosing, ← List.cons_append, hlabel]

end Lexes

/-! ## Items -/

mutual

/-- The lexemes of an item. -/
def Item.lexemes : Item → List Lexeme
  | .leaf word => [.word word.text]
  | .group heading items => .opening heading.text :: (Item.allLexemes items ++ [.closing])

/-- The lexemes of some items. -/
def Item.allLexemes : List Item → List Lexeme
  | [] => []
  | item :: rest => item.lexemes ++ Item.allLexemes rest

end

theorem lexes_printed {items : List Item} {t : Text} (hprinted : Printed items t) {rest : Text}
    {lexed : List Lexeme} (hends : Ends rest) (hrest : Lexes rest lexed) :
    Lexes (t ++ rest) (Item.allLexemes items ++ lexed) := by
  induction hprinted generalizing rest lexed with
  | nil hgap => exact Lexes.gap hgap hrest
  | @leaf gap t word others hgap _ hapart ih =>
      have hlater := ih hends hrest
      rw [List.append_assoc, List.append_assoc, Item.allLexemes, Item.lexemes]
      exact Lexes.gap hgap (Lexes.word word.nonempty (hapart.ends hends) hlater)
  | @group gap s t heading inner others hgap _ _ hapart ihinner ihothers =>
      have hclosing := (ihothers hends hrest).closing
      have hclosingEnds : Ends (')' :: (t ++ rest)) := by
        intro c hc
        exact .inr (Option.some.inj hc).symm
      have hinside := ihinner hclosingEnds hclosing
      have htext : gap ++ (heading.text ++ ('(' :: s ++ [')']) ++ t) ++ rest =
          gap ++ (heading.text ++ '(' :: (s ++ ')' :: (t ++ rest))) := by simp
      have hlexemes : Item.allLexemes (.group heading inner :: others) ++ lexed =
          .opening heading.text :: (Item.allLexemes inner ++
            .closing :: (Item.allLexemes others ++ lexed)) := by
        simp [Item.allLexemes, Item.lexemes]
      rw [htext, hlexemes]
      exact Lexes.gap hgap (Lexes.opening heading hinside)

mutual

/-- Putting the lexemes of an item together gives its leaves, each behind the headings around
it. -/
theorem expand?_lexemes (item : Item) (outer : List Heading) (rest : List Lexeme) :
    expand? (outer.map Heading.text).reverse (item.lexemes ++ rest) =
      (expand? (outer.map Heading.text).reverse rest).map
        ((item.leaves outer).map leafText ++ ·) := by
  cases item with
  | leaf word =>
      rw [Item.lexemes, List.singleton_append, expand?, Item.leaves]
      simp [leafText, List.flatMap_def]
  | group heading items =>
      have hstack : heading.text :: (outer.map Heading.text).reverse =
          ((outer ++ [heading]).map Heading.text).reverse := by simp
      rw [Item.lexemes, List.cons_append, expand?, hstack, List.append_assoc,
        expand?_allLexemes items, ← hstack, List.singleton_append, expand?, Item.leaves]

theorem expand?_allLexemes (items : List Item) (outer : List Heading) (rest : List Lexeme) :
    expand? (outer.map Heading.text).reverse (Item.allLexemes items ++ rest) =
      (expand? (outer.map Heading.text).reverse rest).map
        ((Item.allLeaves outer items).map leafText ++ ·) := by
  cases items with
  | nil => simp [Item.allLexemes, Item.allLeaves]
  | cons item others =>
      rw [Item.allLexemes, List.append_assoc, expand?_lexemes item, expand?_allLexemes others,
        Item.allLeaves, Option.map_map]
      simp [Function.comp_def]

end

theorem tokens?_printed {items : List Item} {t : Text} (hprinted : Printed items t) :
    tokens? t = some ((Item.allLeaves [] items).map leafText) := by
  have hlexes := lexes_printed hprinted (by simp [Ends]) Lexes.nil
  rw [List.append_nil, List.append_nil] at hlexes
  have hexpand := expand?_allLexemes items [] []
  rw [List.append_nil] at hexpand
  rw [tokens?, hlexes t.length (Nat.le_refl _)]
  simpa [expand?] using hexpand

/-! ## Chunks -/

/-- A text of an item with no gap around it. -/
def IsChunk (item : Item) (chunk : Text) : Prop :=
  match item with
  | .leaf word => chunk = word.text
  | .group heading items => ∃ s, Printed items s ∧ chunk = heading.text ++ ('(' :: s ++ [')'])

theorem IsChunk.printed {item : Item} {chunk : Text} (hchunk : IsChunk item chunk) :
    Printed [item] chunk := by
  have hgap : IsGap [] := by simp [IsGap]
  have hapart : Apart [] := by simp [Apart]
  cases item with
  | leaf word =>
      cases hchunk
      simpa using @Printed.leaf [] [] word [] hgap (.nil hgap) hapart
  | group heading items =>
      obtain ⟨s, hs, rfl⟩ := hchunk
      simpa using @Printed.group [] s [] heading items [] hgap hs (.nil hgap) hapart

theorem IsChunk.tokens?_eq {item : Item} {chunk : Text} (hchunk : IsChunk item chunk) :
    tokens? chunk = some ((item.leaves []).map leafText) := by
  rw [tokens?_printed hchunk.printed]
  simp [Item.allLeaves]

/-- A chunk without a parenthesis is a word, and stands for itself. -/
theorem IsChunk.expandChunk_eq {item : Item} {chunk : Text} (hchunk : IsChunk item chunk) :
    expandChunk chunk = (item.leaves []).map leafText := by
  rw [expandChunk, hchunk.tokens?_eq]
  cases item with
  | leaf word =>
      cases hchunk
      simp [Item.leaves, leafText]
  | group heading items =>
      obtain ⟨s, -, rfl⟩ := hchunk
      simp

theorem splitBlanks_gap {gap : Text} (hgap : IsGap gap) (t : Text) :
    Brackets.splitBlanks (gap ++ t) = Brackets.splitBlanks t :=
  Brackets.splitBlanks_append_of_blank (fun c hc => isBlank_of_isGap (hgap c hc)) t

/-- Splitting at the blanks outside brackets gives one chunk for each item. -/
theorem chunks_of_printed {items : List Item} {t : Text} (hprinted : Printed items t) :
    List.Forall₂ IsChunk items (Brackets.splitBlanks t) := by
  induction hprinted with
  | @nil gap hgap =>
      have hblank := splitBlanks_gap hgap []
      rw [List.append_nil] at hblank
      rw [hblank]
      exact .nil
  | @leaf gap t word rest hgap _ hapart ih =>
      have hne : word.text ≠ [] := by
        obtain ⟨c, front, htext, -⟩ := exists_cons_of_spell word.nonempty
        simp [Word.text, htext]
      rw [splitBlanks_gap hgap, Brackets.splitBlanks_append_whole hne (whole_spell_blank _ 0)
        fun c hc => isBlank_of_isGap (hapart c hc)]
      exact .cons rfl ih
  | @group gap s t heading items rest hgap hinner _ hapart _ ih =>
      rw [splitBlanks_gap hgap, Brackets.splitBlanks_append_whole (by simp)
        (whole_group heading hinner) fun c hc => isBlank_of_isGap (hapart c hc)]
      exact .cons ⟨s, hinner, rfl⟩ ih

theorem exists_item_of_mem {items : List Item} {chunks : List Text}
    (hchunks : List.Forall₂ IsChunk items chunks) {chunk : Text} (hchunk : chunk ∈ chunks) :
    ∃ item, IsChunk item chunk := by
  induction hchunks with
  | nil => simp at hchunk
  | cons hfirst _ ih =>
      rcases List.mem_cons.mp hchunk with rfl | hlater
      · exact ⟨_, hfirst⟩
      · exact ih hlater

theorem flatMap_expandChunk {items : List Item} {chunks : List Text}
    (hchunks : List.Forall₂ IsChunk items chunks) :
    chunks.flatMap expandChunk = (Item.allLeaves [] items).map leafText := by
  induction hchunks with
  | nil => rfl
  | cons hchunk _ ih =>
      rw [List.flatMap_cons, hchunk.expandChunk_eq, ih, Item.allLeaves, List.map_append]

/-- Expansion gives the leaves of written items in order, each behind the headings of the
groups around it. -/
theorem expand_printed {items : List Item} {t : Text} (hprinted : Printed items t) :
    expand t = (Item.allLeaves [] items).map leafText :=
  flatMap_expandChunk (chunks_of_printed hprinted)

/-- Expansion of the text of some items gives their leaves in order, each behind the headings
of the groups around it, the outermost first. Every chunk that has groups is expanded by
them: none is split at its blanks for want of well-formed groups. -/
theorem expand_eq_leaves {items : List Item} {t : Text} (hprinted : Printed items t) :
    expand t = (Item.allLeaves [] items).map leafText ∧
      ∀ chunk ∈ Brackets.splitBlanks t, '(' ∈ chunk → ∃ tokens, tokens? chunk = some tokens := by
  refine ⟨expand_printed hprinted, ?_⟩
  intro chunk hchunk _
  obtain ⟨item, hitem⟩ := exists_item_of_mem (chunks_of_printed hprinted) hchunk
  exact ⟨_, hitem.tokens?_eq⟩

/-- The heading `!:`, whose only segment is an exclamation mark. -/
def bangHeading : Heading where
  marked := false
  segments := [⟨[markAtom], by simp, by simp [markAtom, Atom.text]⟩]
  nonempty := by simp

/-- The heading `![(&:b)]:`, with a colon and parentheses inside brackets. -/
def bracketHeading : Heading where
  marked := true
  segments := [{
    atoms := [.bracket "(&:b)" (.parens (.char rfl (.char rfl (.char rfl .nil))) .nil)]
    nonempty := by simp
    colonFree := by simp [Atom.text] }]
  nonempty := by simp

def wordA : Word := ⟨[.char 'a' rfl], by simp⟩

/-- In `!:( a<tab>![(&:b)]:(a)<newline>!:( ) ) a` the last group is empty. -/
theorem expand_eq_leaves_nested :
    let items : List Item :=
      [.group bangHeading [.leaf wordA, .group bracketHeading [.leaf wordA], .group bangHeading []],
        .leaf wordA]
    let t : Text := "!:( a\t![(&:b)]:(a)\n!:( ) ) a"
    Printed items t ∧ expand t = [("!:a" : Text), "!:![(&:b)]:a", "a"] := by
  intro items t
  have hnone : IsGap [] := by simp [IsGap]
  have hblank : IsGap [' '] := by simp [IsGap, isGap]
  have halone : Printed [.leaf wordA] "a" :=
    @Printed.leaf [] [] wordA [] hnone (.nil hnone) (by simp [Apart])
  have hlast : Printed [.leaf wordA] " a" :=
    @Printed.leaf [' '] [] wordA [] hblank (.nil hnone) (by simp [Apart])
  have hempty : Printed [.group bangHeading []] "\n!:( ) " :=
    @Printed.group ['\n'] [' '] [' '] bangHeading [] [] (by simp [IsGap, isGap]) (.nil hblank)
      (.nil hblank) (by simp [Apart, isGap])
  have hbracket : Printed [.group bracketHeading [.leaf wordA], .group bangHeading []]
      "\t![(&:b)]:(a)\n!:( ) " :=
    @Printed.group ['\t'] "a" "\n!:( ) " bracketHeading _ _ (by simp [IsGap, isGap]) halone
      hempty (by simp [Apart, isGap])
  have hinner := @Printed.leaf [' '] _ wordA _ hblank hbracket (by simp [Apart, isGap])
  have hprinted : Printed items t :=
    @Printed.group [] _ " a" bangHeading _ _ hnone hinner hlast (by simp [Apart, isGap])
  refine ⟨hprinted, ?_⟩
  rw [(expand_eq_leaves hprinted).1]
  rfl

/-! ## Forests -/

section Forests

variable {ω : Type} (write : ω → Word)

/-- The items of a forest whose leaves are written as words. -/
def Forest.items : Forest ω → List Item
  | .nil => []
  | .leaf content rest => .leaf (write content) :: rest.items
  | .group label inner rest => .group label.heading inner.items :: rest.items

/-- The text of a leaf behind the labels around it. -/
def Placed.text (place : Placed ω) : Text :=
  place.labels.flatMap Label.text ++ (write place.content).text

variable {write}

theorem printed_of_written {forest : Forest ω} {t : Text} (hwritten : Written write forest t) :
    Printed (forest.items write) t := by
  induction hwritten with
  | nil hgap => exact .nil hgap
  | leaf hgap _ hapart ih => exact .leaf hgap ih hapart
  | @group gap s t label inner rest hgap _ _ hapart ihinner ihrest =>
      exact @Printed.group gap s t label.heading _ _ hgap ihinner ihrest hapart

theorem leafText_heading (labels : List Label) (content : ω) :
    leafText (labels.map Label.heading, write content) = Placed.text write ⟨labels, content⟩ := by
  rw [leafText, List.flatMap_map]
  rfl

theorem allLeaves_items (forest : Forest ω) (outer : List Label) :
    (Item.allLeaves (outer.map Label.heading) (forest.items write)).map leafText =
      (forest.leaves outer).map (Placed.text write) := by
  induction forest generalizing outer with
  | nil => rfl
  | leaf content rest ih =>
      rw [Forest.items, Item.allLeaves, Item.leaves, List.map_append, ih, Forest.leaves]
      simp [leafText_heading]
  | group label inner rest ihinner ihrest =>
      have hinner := ihinner (outer ++ [label])
      rw [List.map_append, List.map_singleton] at hinner
      rw [Forest.items, Item.allLeaves, Item.leaves, List.map_append, ihrest, hinner,
        Forest.leaves, List.map_append]

/-- Expansion gives the leaves of a written forest in order, each behind the labels of the
groups around it. -/
theorem expand_written {forest : Forest ω} {t : Text} (hwritten : Written write forest t) :
    expand t = (forest.leaves []).map (Placed.text write) := by
  rw [expand_printed (printed_of_written hwritten)]
  exact allLeaves_items forest []

end Forests

end Group

end UtilityCss
