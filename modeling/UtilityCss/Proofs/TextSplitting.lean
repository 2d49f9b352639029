import Mathlib.Data.List.TakeWhile
import UtilityCss.Token.Assembly

/-!
# Splitting texts and putting them together

A split at characters outside brackets loses only these characters: each part but the
last ends where the depth is zero, and the rest is split as if it stood alone. Segments
between colons can therefore be joined and split again. Trimming leaves a text that
neither begins nor ends with a blank, and changes no such text.
-/

namespace UtilityCss

namespace Brackets

@[simp] theorem depthFrom_nil (depth : Nat) : depthFrom depth [] = depth := rfl

@[simp] theorem depthFrom_cons (depth : Nat) (c : Char) (t : Text) :
    depthFrom depth (c :: t) = depthFrom (step depth c) t := rfl

theorem depthFrom_append (depth : Nat) (first second : Text) :
    depthFrom depth (first ++ second) = depthFrom (depthFrom depth first) second :=
  List.foldl_append

theorem step_of_not_isBracket {c : Char} (hc : isBracket c = false) (depth : Nat) :
    step depth c = depth := by
  simp only [isBracket, Bool.or_eq_false_iff, beq_eq_false_iff_ne, ne_eq] at hc
  simp [step, hc]

section Split

variable (cut : Char → Bool)

theorem splitFrom_ne_nil (depth : Nat) (t : Text) : splitFrom cut depth t ≠ [] := by
  cases t with
  | nil => simp [splitFrom]
  | cons c rest =>
      rw [splitFrom]
      split
      · simp
      · split <;> simp

/-- A character that does not cut belongs to the first part. -/
theorem splitFrom_cons (depth : Nat) (c : Char) (t : Text) :
    splitFrom cut depth (c :: t) =
      if cut c && step depth c == 0 then [] :: splitFrom cut (step depth c) t
      else (splitFrom cut (step depth c) t).modifyHead (c :: ·) := by
  rw [splitFrom]
  split
  · rfl
  · cases hparts : splitFrom cut (step depth c) t with
    | nil => exact absurd hparts (splitFrom_ne_nil cut _ t)
    | cons part parts => rfl

variable {cut}

/-- A part that is not cut stays together in front of a text, which is split from the depth
where the part ends. -/
theorem splitFrom_append {depth : Nat} {part : Text} (hpart : splitFrom cut depth part = [part])
    (t : Text) : splitFrom cut depth (part ++ t) =
      (splitFrom cut (depthFrom depth part) t).modifyHead (part ++ ·) := by
  induction part generalizing depth with
  | nil => cases hsplit : splitFrom cut depth t <;> simp [hsplit]
  | cons c part ih =>
      rw [splitFrom_cons] at hpart
      rw [List.cons_append, splitFrom_cons, depthFrom_cons]
      split at hpart
      · simp at hpart
      next hc =>
        have htail : splitFrom cut (step depth c) part = [part] := by
          cases hparts : splitFrom cut (step depth c) part with
          | nil => exact absurd hparts (splitFrom_ne_nil cut _ part)
          | cons first others => simpa [hparts] using hpart
        rw [if_neg hc, ih htail]
        cases splitFrom cut (depthFrom (step depth c) part) t <;> simp

/-- A cut parts a text into two that are split on their own. -/
theorem splitFrom_append_cut {depth : Nat} {first : Text} {c : Char} (rest : Text)
    (hcut : cut c = true) (hdepth : step (depthFrom depth first) c = 0) :
    splitFrom cut depth (first ++ c :: rest) =
      splitFrom cut depth first ++ splitFrom cut 0 rest := by
  induction first generalizing depth with
  | nil =>
      have hstep : step depth c = 0 := hdepth
      simp [splitFrom, hcut, hstep]
  | cons d first ih =>
      rw [List.cons_append, splitFrom_cons, splitFrom_cons, ih hdepth]
      obtain ⟨part, parts, hparts⟩ :=
        List.exists_cons_of_ne_nil (splitFrom_ne_nil cut (step depth d) first)
      rw [hparts]
      split <;> rfl

/-- A part that is not cut stays a part when a cut follows it. -/
theorem splitFrom_append_cons {depth : Nat} {part : Text} {c : Char} (rest : Text)
    (hpart : splitFrom cut depth part = [part]) (hcut : cut c = true)
    (hdepth : step (depthFrom depth part) c = 0) :
    splitFrom cut depth (part ++ c :: rest) = part :: splitFrom cut 0 rest := by
  rw [splitFrom_append_cut rest hcut hdepth, hpart]
  rfl

/-- Where a split has several parts, the first one ends at a cut and the others are the split
of what follows it. -/
theorem exists_cut_of_splitFrom {depth : Nat} {t part next : Text} {others : List Text}
    (hsplit : splitFrom cut depth t = part :: next :: others) :
    ∃ c rest, t = part ++ c :: rest ∧ cut c = true ∧ step (depthFrom depth part) c = 0 ∧
      splitFrom cut depth part = [part] ∧ splitFrom cut 0 rest = next :: others := by
  induction t generalizing depth part with
  | nil => simp [splitFrom] at hsplit
  | cons c t ih =>
      rw [splitFrom_cons] at hsplit
      split at hsplit
      next hcut =>
        simp only [Bool.and_eq_true, beq_iff_eq] at hcut
        obtain ⟨rfl, hrest⟩ := List.cons.inj hsplit
        refine ⟨c, t, rfl, hcut.1, hcut.2, rfl, ?_⟩
        rw [← hcut.2]
        exact hrest
      next hcut =>
        cases hparts : splitFrom cut (step depth c) t with
        | nil => exact absurd hparts (splitFrom_ne_nil cut _ t)
        | cons first more =>
            rw [hparts] at hsplit
            obtain ⟨rfl, rfl⟩ := List.cons.inj hsplit
            obtain ⟨d, rest, ht, hd, hdepth, hfirst, hrest⟩ := ih hparts
            refine ⟨d, rest, by rw [ht]; rfl, hd, hdepth, ?_, hrest⟩
            rw [splitFrom_cons, if_neg hcut, hfirst]
            rfl

/-- A split at one character is undone by joining with it. -/
theorem join_splitFrom {d : Char} (hcut : ∀ c, cut c = true → c = d) (depth : Nat) (t : Text) :
    Text.join [d] (splitFrom cut depth t) = t := by
  induction t generalizing depth with
  | nil => rfl
  | cons c t ih =>
      have hrest := ih (step depth c)
      obtain ⟨part, parts, hparts⟩ :=
        List.exists_cons_of_ne_nil (splitFrom_ne_nil cut (step depth c) t)
      rw [splitFrom_cons]
      rw [hparts] at hrest ⊢
      split
      next hc =>
        simp only [Bool.and_eq_true] at hc
        rw [Text.join, List.intercalate_cons_cons, ← Text.join, hrest, hcut c hc.1]
        rfl
      next => cases parts <;> simpa [Text.join, List.intercalate_cons_cons] using hrest

end Split

/-- A text that is not cut from a depth on, and leads back to that depth. -/
structure Whole (cut : Char → Bool) (depth : Nat) (t : Text) : Prop where
  whole : splitFrom cut depth t = [t]
  closed : depthFrom depth t = depth

namespace Whole

variable {cut : Char → Bool} {depth : Nat}

theorem nil : Whole cut depth [] := ⟨rfl, rfl⟩

theorem append {first second : Text} (hfirst : Whole cut depth first)
    (hsecond : Whole cut depth second) : Whole cut depth (first ++ second) := by
  constructor
  · rw [splitFrom_append hfirst.whole, hfirst.closed, hsecond.whole]
    rfl
  · rw [depthFrom_append, hfirst.closed, hsecond.closed]

/-- A character that is no bracket is not cut if it is none of the cuts, or below the top. -/
theorem char {c : Char} (hbracket : isBracket c = false) (hcut : cut c = false ∨ depth ≠ 0) :
    Whole cut depth [c] := by
  have hstep := step_of_not_isBracket hbracket depth
  constructor
  · rw [splitFrom_cons, hstep, if_neg]
    · rfl
    · rcases hcut with hcut | hdepth
      · simp [hcut]
      · simp [hdepth]
  · rw [depthFrom_cons, hstep, depthFrom_nil]

/-- A pair of brackets is not cut around what is whole below it, if its end is no cut or is
below the top. -/
theorem enclosed {opening closing : Char} (hopen : ∀ depth, step depth opening = depth + 1)
    (hclose : ∀ depth, step (depth + 1) closing = depth)
    (hcut : cut closing = false ∨ depth ≠ 0) {t : Text} (ht : Whole cut (depth + 1) t) :
    Whole cut depth (opening :: t ++ [closing]) := by
  have hlast : splitFrom cut (depth + 1) [closing] = [[closing]] := by
    rw [splitFrom_cons, hclose, if_neg]
    · rfl
    · rcases hcut with hcut | hdepth
      · simp [hcut]
      · simp [hdepth]
  constructor
  · rw [List.cons_append, splitFrom_cons, hopen, splitFrom_append ht.whole, ht.closed, hlast]
    simp
  · rw [List.cons_append, depthFrom_cons, hopen, depthFrom_append, ht.closed, depthFrom_cons,
      hclose, depthFrom_nil]

end Whole

theorem not_isBracket_of_isBlank {c : Char} (hblank : Text.isBlank c = true) :
    isBracket c = false := by
  apply Bool.eq_false_iff.mpr
  intro hbracket
  simp only [isBracket, Bool.or_eq_true, beq_iff_eq] at hbracket
  rcases hbracket with ((rfl | rfl) | rfl) | rfl <;> revert hblank <;> decide

/-- Blanks in front of a text fall away when it is split at its blanks. -/
theorem splitBlanks_append_of_blank {blanks : Text}
    (hblanks : ∀ c ∈ blanks, Text.isBlank c = true) (t : Text) :
    splitBlanks (blanks ++ t) = splitBlanks t := by
  induction blanks with
  | nil => rfl
  | cons c rest ih =>
      have hblank := hblanks c List.mem_cons_self
      have hrest := ih fun d hd => hblanks d (List.mem_cons_of_mem c hd)
      rw [List.cons_append, splitBlanks, splitFrom_cons,
        step_of_not_isBracket (not_isBracket_of_isBlank hblank)]
      simpa [hblank, splitBlanks] using hrest

/-- A blank outside brackets parts a text into two that are split on their own. -/
theorem splitBlanks_append_blank {a : Text} (hdepth : depth a = 0) {w : Char}
    (hw : Text.isBlank w = true) (b : Text) :
    splitBlanks (a ++ w :: b) = splitBlanks a ++ splitBlanks b := by
  have hstep : step (depthFrom 0 a) w = 0 := by
    rw [step_of_not_isBracket (not_isBracket_of_isBlank hw)]
    exact hdepth
  rw [splitBlanks, splitFrom_append_cut b hw hstep, List.filter_append]
  rfl

/-- A whole text is a chunk, if it is followed by nothing or by a blank. -/
theorem splitBlanks_append_whole {chunk : Text} (hne : chunk ≠ [])
    (hchunk : Whole Text.isBlank 0 chunk) {t : Text}
    (ht : ∀ c, t.head? = some c → Text.isBlank c = true) :
    splitBlanks (chunk ++ t) = chunk :: splitBlanks t := by
  rw [splitBlanks, splitFrom_append hchunk.whole, hchunk.closed]
  cases t with
  | nil => simp [splitBlanks, splitFrom, hne]
  | cons c rest =>
      have hblank := ht c rfl
      rw [splitBlanks, splitFrom_cons, step_of_not_isBracket (not_isBracket_of_isBlank hblank)]
      simp [hblank, hne]

/-! ## Parts between delimiters -/

section Outside

variable {d : Char}

theorem eq_of_delimits {c : Char} (hc : (c == d && !isBracket c) = true) :
    c = d ∧ isBracket c = false := by
  simpa using hc

theorem join_splitOutside (d : Char) (t : Text) : Text.join [d] (splitOutside d t) = t :=
  join_splitFrom (fun _ hc => (eq_of_delimits hc).1) 0 t

/-- No part of a split is split any further, and each part but the last ends outside brackets. -/
theorem parts_of_splitOutside {parts : List Text} {t : Text} (hsplit : splitOutside d t = parts) :
    (∀ part ∈ parts, splitOutside d part = [part]) ∧ ∀ part ∈ parts.dropLast, depth part = 0 := by
  induction parts generalizing t with
  | nil => exact absurd hsplit (splitFrom_ne_nil _ 0 t)
  | cons part parts ih =>
      cases parts with
      | nil =>
          have hpart : part = t := by
            simpa [hsplit, Text.join] using join_splitOutside d t
          subst hpart
          simpa using hsplit
      | cons next others =>
          obtain ⟨c, rest, -, hcut, hdepth, hwhole, hrest⟩ := exists_cut_of_splitFrom hsplit
          rw [step_of_not_isBracket (eq_of_delimits hcut).2] at hdepth
          obtain ⟨hparts, hclosed⟩ := ih hrest
          exact ⟨List.forall_mem_cons.mpr ⟨hwhole, hparts⟩,
            List.forall_mem_cons.mpr ⟨hdepth, hclosed⟩⟩

/-- Parts that are not split and, but for the last, end outside brackets are split where they
were joined. -/
theorem splitOutside_join (hd : isBracket d = false) {parts : List Text} (hne : parts ≠ [])
    (hparts : ∀ part ∈ parts, splitOutside d part = [part])
    (hclosed : ∀ part ∈ parts.dropLast, depth part = 0) :
    splitOutside d (Text.join [d] parts) = parts := by
  induction parts with
  | nil => exact absurd rfl hne
  | cons part parts ih =>
      obtain ⟨hpart, hothers⟩ := List.forall_mem_cons.mp hparts
      cases parts with
      | nil => simpa [Text.join] using hpart
      | cons next others =>
          obtain ⟨hdepth, hrest⟩ := List.forall_mem_cons.mp hclosed
          have hstep : step (depthFrom 0 part) d = 0 := by
            rw [step_of_not_isBracket hd]
            exact hdepth
          have hjoin : Text.join [d] (part :: next :: others) =
              part ++ d :: Text.join [d] (next :: others) := by
            simp [Text.join, List.intercalate_cons_cons]
          rw [hjoin, splitOutside, splitFrom_append_cons _ hpart (by simp [hd]) hstep]
          exact congrArg (part :: ·) (ih (List.cons_ne_nil next others) hothers hrest)

end Outside

end Brackets

namespace ClassName

/-- A text that is one segment, whatever follows it behind a colon. -/
abbrev IsSegment (segment : Text) : Prop :=
  Brackets.Whole (fun c => c == ':' && !Brackets.isBracket c) 0 segment

theorem join_segments (t : Text) : Text.join ":" (segments t) = t :=
  Brackets.join_splitOutside ':' t

theorem segments_ne_nil (t : Text) : segments t ≠ [] := Brackets.splitFrom_ne_nil _ 0 t

theorem segments_append_colon {segment : Text} (hsegment : IsSegment segment) (t : Text) :
    segments (segment ++ ':' :: t) = segment :: segments t := by
  refine Brackets.splitFrom_append_cons t hsegment.whole rfl ?_
  rw [hsegment.closed]
  rfl

/-- A first character that is neither a colon nor a bracket belongs to the first segment. -/
theorem segments_cons {c : Char} (hcolon : c ≠ ':') (hbracket : Brackets.isBracket c = false)
    (t : Text) : segments (c :: t) = (segments t).modifyHead (c :: ·) := by
  rw [segments, Brackets.splitOutside, Brackets.splitFrom_cons,
    Brackets.step_of_not_isBracket hbracket]
  simp [hcolon, segments, Brackets.splitOutside]

theorem withVariants_nil (utility : Text) : withVariants utility [] = utility := by
  simp [withVariants, Text.join]

theorem withVariants_cons (utility name : Text) (variants : List Text) :
    withVariants utility (name :: variants) = name ++ ':' :: withVariants utility variants := by
  cases variants <;> simp [withVariants, Text.join, List.intercalate_cons_cons]

theorem withVariants_append (t : Text) (first second : List Text) :
    withVariants (withVariants t second) first =
      withVariants t (first ++ second) := by
  induction first with
  | nil => rw [withVariants_nil, List.nil_append]
  | cons name first ih =>
      rw [withVariants_cons, ih, List.cons_append, withVariants_cons]

theorem suffix_withVariants (utility : Text) (variants : List Text) :
    utility <:+ withVariants utility variants := by
  induction variants with
  | nil => simp [withVariants_nil]
  | cons name variants ih =>
      rw [withVariants_cons]
      exact (ih.trans (List.suffix_cons ':' _)).trans (List.suffix_append name _)

/-- Segments in front of a text are the first segments of the whole. -/
theorem segments_withVariants {variants : List Text} (hvariants : ∀ name ∈ variants, IsSegment name)
    (utility : Text) :
    segments (withVariants utility variants) = variants ++ segments utility := by
  induction variants with
  | nil => rw [withVariants_nil, List.nil_append]
  | cons name variants ih =>
      have hhead := hvariants name List.mem_cons_self
      have htail := ih fun other hother => hvariants other (List.mem_cons_of_mem name hother)
      rw [withVariants_cons, segments_append_colon hhead, htail, List.cons_append]

/-- If a text has some segments before others, they are segments on their own, and the others
are the segments of what follows them. -/
theorem segments_eq_append {t : Text} {variants rest : List Text}
    (hsegments : segments t = variants ++ rest) (hrest : rest ≠ []) :
    (∀ name ∈ variants, IsSegment name) ∧ segments (Text.join ":" rest) = rest ∧
      t = withVariants (Text.join ":" rest) variants := by
  induction variants generalizing t with
  | nil =>
      rw [List.nil_append] at hsegments
      rw [← hsegments, join_segments, withVariants_nil]
      exact ⟨by simp, rfl, rfl⟩
  | cons name variants ih =>
      obtain ⟨next, others, hnext⟩ : ∃ next others, variants ++ rest = next :: others :=
        List.exists_cons_of_ne_nil (by simp [hrest])
      have hsplit : segments t = name :: next :: others := by
        rw [hsegments, List.cons_append, hnext]
      obtain ⟨c, tail, ht, hcut, hdepth, hwhole, htail⟩ := Brackets.exists_cut_of_splitFrom hsplit
      simp only [Bool.and_eq_true, beq_iff_eq] at hcut
      obtain ⟨rfl, -⟩ := hcut
      obtain ⟨hvariants, hjoin, htext⟩ := @ih tail (by rw [hnext]; exact htail)
      refine ⟨?_, hjoin, by rw [withVariants_cons, ← htext, ht]⟩
      intro other hother
      rcases List.mem_cons.mp hother with rfl | hother
      · exact ⟨hwhole, hdepth⟩
      · exact hvariants other hother

theorem withVariants_variants (t : Text) : withVariants (utility t) (variants t) = t := by
  have hne := segments_ne_nil t
  rw [withVariants, utility, variants, List.getLastD_eq_getLast?, List.getLast?_eq_some_getLast hne,
    Option.getD_some, List.dropLast_concat_getLast hne, join_segments]

/-- Joining undoes a split outside brackets. The parts of a split are not split any further, and
all but the last end outside brackets. Every such list of parts is the split of what it is joined
to, if the delimiter is no bracket. So a name is put together from its utility and its variants. -/
theorem split_join_inverse (d : Char) :
    (∀ t, Text.join [d] (Brackets.splitOutside d t) = t ∧
      (∀ part ∈ Brackets.splitOutside d t, Brackets.splitOutside d part = [part]) ∧
      ∀ part ∈ (Brackets.splitOutside d t).dropLast, Brackets.depth part = 0) ∧
    (Brackets.isBracket d = false → ∀ parts : List Text, parts ≠ [] →
      (∀ part ∈ parts, Brackets.splitOutside d part = [part]) →
      (∀ part ∈ parts.dropLast, Brackets.depth part = 0) →
      Brackets.splitOutside d (Text.join [d] parts) = parts) ∧
    ∀ t, withVariants (utility t) (variants t) = t :=
  ⟨fun t => ⟨Brackets.join_splitOutside d t, Brackets.parts_of_splitOutside rfl⟩,
    fun hd _ => Brackets.splitOutside_join hd, withVariants_variants⟩

/-- Stray closing brackets end a part outside brackets, and the last part need not be closed. -/
theorem split_join_inverse_stray :
    Brackets.isBracket ':' = false ∧ ∃ parts : List Text, parts = [("a])" : Text), "[x:y]", "(z:"] ∧
      (∀ part ∈ parts, Brackets.splitOutside ':' part = [part]) ∧
      (∀ part ∈ parts.dropLast, Brackets.depth part = 0) ∧
      Brackets.splitOutside ':' (Text.join [':'] parts) = parts := by
  have hparts : ∀ part ∈ [("a])" : Text), "[x:y]", "(z:"],
      Brackets.splitOutside ':' part = [part] := by decide
  have hclosed : ∀ part ∈ [("a])" : Text), "[x:y]", "(z:"].dropLast, Brackets.depth part = 0 := by
    decide
  refine ⟨by decide, _, rfl, hparts, hclosed, ?_⟩
  exact (split_join_inverse ':').2.1 (by decide) _ (by simp) hparts hclosed

end ClassName

namespace Text

/-- A text that neither begins nor ends with a blank. -/
structure Trimmed (t : Text) : Prop where
  first : ∀ c, t.head? = some c → isBlank c = false
  last : ∀ c, t.getLast? = some c → isBlank c = false

theorem dropWhile_of_head {p : Char → Bool} {t : Text}
    (hfirst : ∀ c, t.head? = some c → p c = false) : t.dropWhile p = t := by
  cases t with
  | nil => rfl
  | cons c t => exact List.dropWhile_cons_of_neg (by simp [hfirst c rfl])

theorem trim_of_trimmed {t : Text} (ht : t.Trimmed) : trim t = t := by
  have hlast : ∀ c, t.reverse.head? = some c → isBlank c = false := by
    intro c hc
    exact ht.last c (by rwa [List.head?_reverse] at hc)
  rw [trim, trimLeft, dropWhile_of_head ht.first, trimRight, dropWhile_of_head hlast,
    List.reverse_reverse]

theorem trimmed_trim (t : Text) : (trim t).Trimmed := by
  constructor
  · intro c hc
    -- What trimming at the end leaves is a front part of what it was given.
    obtain ⟨blanks, hblanks⟩ : trim t <+: trimLeft t := by
      rw [trim, trimRight, ← List.reverse_suffix, List.reverse_reverse]
      exact List.dropWhile_suffix _
    have hhead : (trimLeft t).head? = some c := by
      rw [← hblanks, List.head?_append, hc]
      rfl
    have hnot := List.head?_dropWhile_not isBlank t
    rw [← trimLeft, hhead] at hnot
    simpa using hnot
  · intro c hc
    rw [trim, trimRight, List.getLast?_reverse] at hc
    have hnot := List.head?_dropWhile_not isBlank (trimLeft t).reverse
    rw [hc] at hnot
    simpa using hnot

theorem trim_eq_nil_iff {t : Text} : trim t = [] ↔ ∀ c ∈ t, isBlank c = true := by
  rw [trim, trimRight, List.reverse_eq_nil_iff, List.dropWhile_eq_nil_iff]
  constructor
  · intro hblank c hc
    rw [← @List.takeWhile_append_dropWhile _ isBlank t, List.mem_append] at hc
    rcases hc with hc | hc
    · exact List.mem_takeWhile_imp hc
    · exact hblank c (List.mem_reverse.mpr hc)
  · intro hblank c hc
    exact hblank c ((List.dropWhile_sublist _).subset (List.mem_reverse.mp hc))

theorem mem_of_mem_trim {c : Char} {t : Text} (hc : c ∈ trim t) : c ∈ t := by
  rw [trim, trimRight, List.mem_reverse] at hc
  have hleft := (List.dropWhile_suffix isBlank).subset hc
  exact (List.dropWhile_suffix isBlank).subset (List.mem_reverse.mp hleft)

end Text

end UtilityCss
