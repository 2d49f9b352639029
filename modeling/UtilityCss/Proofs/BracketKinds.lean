import UtilityCss.Proofs.BracketComputations
import UtilityCss.Proofs.ValueChanges

/-!
# Colours, lengths and font sizes in brackets

What is taken for a length begins with a sign, a point or a decimal digit, or with the name of one
of four functions in some spelling. What is taken for a colour begins with none of these. So a
value in brackets is not both, whatever its hint: a hint is read once, and settles what the value
is for. Keys in brackets are not looked up in the theme.
-/

namespace UtilityCss

/-! ## Letters and digits -/

theorem Text.isLetter_of_isDecimal {c : Char} (hc : isDecimal c = true) : isLetter c = false := by
  have htables : decimalZeros.all (fun first => letterRanges.all fun range =>
      !first.ble range.2 || (first + 10).ble range.1) = true := by decide +kernel
  obtain ⟨value, hvalue⟩ := Option.isSome_iff_exists.mp hc
  obtain ⟨first, hfirst, -⟩ := Option.map_eq_some_iff.mp hvalue
  have hcode := List.find?_some hfirst
  rw [Bool.eq_false_iff]
  intro hletter
  obtain ⟨⟨lowest, highest⟩, hrange, hletter⟩ := List.any_eq_true.mp hletter
  have hapart := List.all_eq_true.mp
    (List.all_eq_true.mp htables first (List.mem_of_find?_eq_some hfirst)) _ hrange
  simp only [Bool.and_eq_true, Bool.or_eq_true, Bool.not_eq_true', decide_eq_true_eq,
    Nat.ble_eq, ← Bool.not_eq_true] at hcode hletter hapart
  omega

theorem Text.marks_not_letters : ['-', '.', '('].all (!isLetter ·) = true := by decide +kernel

namespace Css

/-! ## How lengths begin -/

/-- The first character of a number, or its sign. -/
def isNumberStart (c : Char) : Bool := c == '-' || c == '.' || Text.isDecimal c

/-- The text begins as a length does. -/
inductive LengthLike (t : Text) : Prop
  | number {c : Char} (first : t.head? = some c) (start : isNumberStart c = true)
  | function {lead name : Text} (listed : lead ∈ lengthLeads) (spelled : name ∈ Text.spellings lead)
      (starts : name <+: t)

theorem head?_of_dimension? {t : Text} (ht : (dimension? t).isSome) :
    ∃ c, t.head? = some c ∧ isNumberStart c = true := by
  cases t with
  | nil => cases ht
  | cons c rest =>
      refine ⟨c, rfl, ?_⟩
      by_contra hstart
      simp only [isNumberStart, Bool.or_eq_true, not_or, Bool.not_eq_true, beq_eq_false_iff_ne]
        at hstart
      obtain ⟨⟨-, hpoint⟩, hdigit⟩ := hstart
      -- Without a digit or a point in front there is no digit before the unit.
      have hwhole : (c :: rest).span Text.isDecimal = ([], c :: rest) := by
        rw [List.span_eq_takeWhile_dropWhile, List.takeWhile_cons_of_neg (by simp [hdigit]),
          List.dropWhile_cons_of_neg (by simp [hdigit])]
      rw [dimension?, hwhole] at ht
      dsimp only at ht
      split at ht
      next hsplit =>
        exact hpoint (List.cons.inj hsplit).1
      next => simp at ht

theorem lengthLike_of_looksLikeLength {value : Text} (hvalue : looksLikeLength value = true) :
    LengthLike (Text.trim value) := by
  unfold looksLikeLength at hvalue
  generalize Text.trim value = t at hvalue ⊢
  dsimp only at hvalue
  rw [Bool.or_eq_true] at hvalue
  rcases hvalue with hnumber | hfunction
  · cases hsign : Text.afterLead? ['-'] t with
    | none =>
        rw [hsign] at hnumber
        obtain ⟨c, hc, hstart⟩ := head?_of_dimension? hnumber
        exact .number hc hstart
    | some magnitude =>
        rw [Text.afterLead?, List.isPrefixOf?_eq_some_iff_append_eq] at hsign
        rw [← hsign]
        exact .number rfl rfl
  · obtain ⟨lead, hlead, hspelled⟩ := List.any_eq_true.mp hfunction
    have hsmall : lengthLeads.all (·.all Text.isSmallAscii) = true := by decide
    exact .function hlead (Text.mem_spellings (List.all_eq_true.mp hsmall lead hlead) hspelled)
      (List.take_prefix _ t)

/-! ## How colours begin -/

/-- The text begins as a colour does, or is a word. -/
inductive ColorStart (t : Text) : Prop
  | color (like : ColorLike t)
  | function {lead : Text} (listed : lead ∈ colorLeads) (starts : lead <+: t)
  | word (letters : ∀ c ∈ t, Text.isLetter c = true)

theorem colorLike_of_functionalColor? {t : Text} (ht : (functionalColor? t).isSome) :
    ColorLike t := by
  obtain ⟨⟨function, arguments⟩, hfunction⟩ := Option.isSome_iff_exists.mp ht
  obtain ⟨rest, rfl, c, hfirst, hc⟩ := of_functionalColor? hfunction
  refine ⟨⟨c, ?_, List.mem_cons_of_mem _ hc⟩, '(', by simp, .inr rfl⟩
  rw [List.head?_append, hfirst, Option.some_or]

theorem colorStart_of_looksLikeColor {value : Text} (hvalue : looksLikeColor value = true) :
    ColorStart (Text.trim value) := by
  unfold looksLikeColor isColor at hvalue
  simp only [Text.trim_trim, Bool.or_eq_true, List.any_eq_true] at hvalue
  rcases hvalue with ((hhex | hfunctional) | ⟨lead, hlead, hstarts⟩) | hword
  · exact .color (colorLike_of_hexChannels? hhex)
  · exact .color (colorLike_of_functionalColor? hfunctional)
  · exact .function hlead (List.isPrefixOf_iff_prefix.mp hstarts)
  · rw [Text.isLetters, Bool.and_eq_true, List.all_eq_true] at hword
    exact .word hword.2

/-! ## No overlap -/

/-- Every spelling of a function that gives a length has a parenthesis, begins as no colour does,
and is apart from the functions that give colours. -/
theorem spellings_apart :
    (lengthLeads.flatMap Text.spellings).all (fun name =>
      name.contains '(' && name.head?.any (fun c => !List.contains ['#', 'r', 'R', 'h', 'H'] c) &&
        colorLeads.all fun lead => !name.isPrefixOf lead && !lead.isPrefixOf name) = true := by
  decide +kernel

theorem not_colorStart_of_number {t : Text} {c : Char} (hfirst : t.head? = some c)
    (hstart : isNumberStart c = true) : ¬ ColorStart t := by
  intro hcolor
  cases hcolor with
  | color hlike =>
      obtain ⟨d, hd, hmem⟩ := hlike.first
      obtain rfl : c = d := Option.some.inj (hfirst.symm.trans hd)
      have hnone : ['#', 'r', 'R', 'h', 'H'].all (!isNumberStart ·) = true := by decide
      simpa [hstart] using List.all_eq_true.mp hnone c hmem
  | @function lead hlead hstarts =>
      have hnone : colorLeads.all (·.head?.any (!isNumberStart ·)) = true := by decide
      obtain ⟨d, hd, hletter⟩ := (Option.any_eq_true _ _).mp (List.all_eq_true.mp hnone lead hlead)
      obtain ⟨rest, rfl⟩ := hstarts
      rw [List.head?_append, hd, Option.some_or] at hfirst
      obtain rfl : d = c := Option.some.inj hfirst
      simp [hstart] at hletter
  | word hletters =>
      have hletter := hletters c (List.mem_of_mem_head? hfirst)
      simp only [isNumberStart, Bool.or_eq_true, beq_iff_eq] at hstart
      rcases hstart with hmark | hdecimal
      · have hnone := List.all_eq_true.mp Text.marks_not_letters c (by grind)
        simp [hletter] at hnone
      · rw [Text.isLetter_of_isDecimal hdecimal] at hletter
        cases hletter

theorem not_colorStart_of_function {t lead name : Text} (hlead : lead ∈ lengthLeads)
    (hname : name ∈ Text.spellings lead) (hstarts : name <+: t) : ¬ ColorStart t := by
  have hapart := List.all_eq_true.mp spellings_apart name
    (List.mem_flatMap.mpr ⟨lead, hlead, hname⟩)
  simp only [Bool.and_eq_true, List.contains_iff_mem, Option.any_eq_true, List.all_eq_true,
    Bool.not_eq_true'] at hapart
  obtain ⟨⟨hparenthesis, first, hfirst, hnone⟩, hothers⟩ := hapart
  intro hcolor
  cases hcolor with
  | color hlike =>
      obtain ⟨c, hc, hmem⟩ := hlike.first
      obtain ⟨rest, rfl⟩ := hstarts
      rw [List.head?_append, hfirst, Option.some_or] at hc
      obtain rfl : first = c := Option.some.inj hc
      rw [List.contains_iff_mem.mpr hmem] at hnone
      cases hnone
  | @function other hother hbegins =>
      -- Of two texts that the same text begins with, one begins with the other.
      have hapart := hothers other hother
      simp only [← Bool.not_eq_true, List.isPrefixOf_iff_prefix] at hapart
      exact (List.prefix_or_prefix_of_prefix hstarts hbegins).elim hapart.1 hapart.2
  | word hletters =>
      have hletter := hletters '(' (hstarts.subset hparenthesis)
      have hnone := List.all_eq_true.mp Text.marks_not_letters '(' (by simp)
      simp [hletter] at hnone

theorem looksLikeColor_of_looksLikeLength {value : Text} (hvalue : looksLikeLength value = true) :
    looksLikeColor value = false := by
  rw [Bool.eq_false_iff]
  intro hcolor
  have hstart := colorStart_of_looksLikeColor hcolor
  cases lengthLike_of_looksLikeLength hvalue with
  | number hfirst hnumber => exact not_colorStart_of_number hfirst hnumber hstart
  | function hlead hname hstarts => exact not_colorStart_of_function hlead hname hstarts hstart

/-! ## Hints -/

/-- A key has one hint at most, so a value for some hints excludes one for other hints. -/
theorem bracketed?_of_apart {key value : Text} {hints others : List (Option Text)}
    (hvalue : bracketed? key hints = some value) (hapart : ∀ hint ∈ hints, hint ∉ others) :
    bracketed? key others = none := by
  unfold bracketed? at hvalue ⊢
  split at hvalue
  · cases hvalue
  next hkey =>
    obtain ⟨⟨hint, text⟩, hread, htaken⟩ := Option.bind_eq_some_iff.mp hvalue
    rw [if_neg hkey, hread]
    dsimp only [Option.bind_eq_bind, Option.bind_some] at htaken ⊢
    split at htaken
    next hlisted =>
      simp only [Bool.and_eq_true, List.contains_iff_mem] at hlisted
      rw [if_neg]
      simp [hapart hint hlisted.1]
    next => cases htaken

end Css

/-- A key that is taken for a colour is taken neither for a length nor for a font size. -/
theorem BracketUse.accepts_of_color {key : Text} (hkey : color.accepts key = true) :
    length.accepts key = false ∧ fontSize.accepts key = false := by
  rw [accepts, Bool.or_eq_true, Option.any_eq_true] at hkey
  rcases hkey with hhinted | ⟨value, hplain, hcolor⟩
  · obtain ⟨value, hvalue⟩ := Option.isSome_iff_exists.mp hhinted
    have hlength := @Css.bracketed?_of_apart key value _ [some "length"] hvalue (by decide)
    have hnone := @Css.bracketed?_of_apart key value _ [none] hvalue (by decide)
    rw [accepts, accepts, hlength, hnone]
    exact ⟨rfl, rfl⟩
  · have hlength := @Css.bracketed?_of_apart key value _ [some "length"] hplain (by decide)
    have hsize : Css.looksLikeLength value = false := by
      rw [Bool.eq_false_iff]
      intro hlike
      rw [Css.looksLikeColor_of_looksLikeLength hlike] at hcolor
      cases hcolor
    rw [accepts, accepts, hlength, hplain]
    simp [hcolor, hsize]

/-! ## Keys in brackets are not looked up -/

namespace Theme

variable {key : Text} (hkey : Payload.isBracketed key = true) (theme : Theme)

include hkey

theorem color?_of_isBracketed : theme.color? key = Theme.color? [] key := by
  rw [color?, color?, if_pos hkey, if_pos hkey]

theorem length?_of_isBracketed (scale : Text) : theme.length? key scale = Theme.length? [] key := by
  rw [length?, length?, if_pos hkey, if_pos hkey]

/-- The two readings of a key exclude each other. -/
theorem color?_or_length? (scale : Text) :
    theme.color? key = none ∨ theme.length? key scale = none := by
  have hbracket := Payload.bracket_mem_of_isBracketed hkey
  have hempty : Theme.lacksBrackets [] = true := rfl
  have hcolor := isSome_color? hempty hbracket
  have hlength := isSome_length? hempty hbracket
  rw [color?_of_isBracketed hkey, length?_of_isBracketed hkey]
  cases haccepts : BracketUse.color.accepts key with
  | false =>
      left
      rw [haccepts] at hcolor
      simpa using hcolor
  | true =>
      right
      rw [(BracketUse.accepts_of_color haccepts).1] at hlength
      simpa using hlength

end Theme

end UtilityCss
