import Mathlib.Data.List.TakeDrop
import Mathlib.Data.List.TakeWhile
import UtilityCss.Css.Declaration
import UtilityCss.Proofs.LetterCase
import UtilityCss.Proofs.NumberFaults
import UtilityCss.Proofs.TextSplitting

/-!
# Changes of values

Three changes are made to the values of declarations: a mark of importance, another sign and an
alpha channel. A sign is for numbers and functions of `calc`, an alpha channel for colours, and
no text is both, nor becomes the other. Both changes look through a mark and never write one.
So the order in which the changes are made does not matter.

The one condition is about blanks at the end of a value. A change of sign trims the value, and
without the blanks a text may end with a mark that did not end with one before.
-/

namespace UtilityCss

namespace Text

theorem trim_trim (t : Text) : trim (trim t) = trim t := trim_of_trimmed (trimmed_trim t)

/-- What is dropped from the end of a text ends behind a character that is not dropped. -/
theorem head?_dropEnd {p : Char → Bool} {c : Char} (hc : p c = false) (t : Text) :
    ((c :: t).reverse.dropWhile p).reverse.head? = some c := by
  rw [List.reverse_cons, List.dropWhile_append]
  split <;> simp [hc]

theorem head?_trim {c : Char} (hc : isBlank c = false) (t : Text) :
    (trim (c :: t)).head? = some c := by
  have hleft : trimLeft (c :: t) = c :: t := dropWhile_of_head (by simpa using hc)
  rw [trim, hleft]
  exact head?_dropEnd hc t

/-- Without a blank at its end, a text is trimmed at its start only. -/
theorem trim_suffix {t : Text} (hlast : ∀ c, t.getLast? = some c → isBlank c = false) :
    trim t <:+ t := by
  have hsuffix : trimLeft t <:+ t := List.dropWhile_suffix _
  have hkept : trim t = trimLeft t := by
    rw [trim, trimRight, dropWhile_of_head, List.reverse_reverse]
    intro c hc
    rw [List.head?_reverse] at hc
    apply hlast
    obtain ⟨front, hfront⟩ := hsuffix
    rw [← hfront, List.getLast?_append, hc]
    rfl
  rwa [hkept]

end Text

namespace Css

/-! ## Signs -/

/-- The characters of numbers and their units. -/
def isDimensionChar (c : Char) : Bool :=
  Text.isDecimal c || c == '.' || c == '%' || Text.isLatinLetter c

theorem isDimensionChar_of_dimension? {t : Text} (ht : (dimension? t).isSome) {c : Char}
    (hc : c ∈ t) : isDimensionChar c = true := by
  have hdigits (part : Text) {d : Char} (hd : d ∈ part.takeWhile Text.isDecimal) :
      isDimensionChar d = true := by
    simp [isDimensionChar, List.mem_takeWhile_imp hd]
  have hunits {part : Text} (hpart : part.all (fun d => d == '%' || Text.isLatinLetter d) = true)
      {d : Char} (hd : d ∈ part) : isDimensionChar d = true := by
    have hunit := List.all_eq_true.mp hpart d hd
    rw [Bool.or_eq_true] at hunit
    rcases hunit with hunit | hunit <;> simp [isDimensionChar, hunit]
  have hguards {p : Prop} [Decidable p] {unit : Bool} {found : Option (Nat × Nat × Text)}
      (hfound : (if p then none else if (!unit) = true then none else found).isSome) :
      unit = true := by
    cases unit with
    | false => simp at hfound
    | true => rfl
  rw [← List.takeWhile_append_dropWhile (p := Text.isDecimal) (l := t), List.mem_append] at hc
  rcases hc with hc | hc
  · exact hdigits t hc
  simp only [dimension?, List.span_eq_takeWhile_dropWhile] at ht
  generalize t.dropWhile Text.isDecimal = rest at hc ht
  split at ht
  next after =>
    by_cases hplaces : after.takeWhile Text.isDecimal = []
    · simp only [hplaces, if_true] at ht
      exact hunits (hguards ht) hc
    · simp only [hplaces, if_false] at ht
      rcases List.mem_cons.mp hc with rfl | hc
      · rfl
      · rw [← List.takeWhile_append_dropWhile (p := Text.isDecimal) (l := after),
          List.mem_append] at hc
        exact hc.elim (hdigits after) (hunits (hguards ht))
  next =>
    simp only [if_true] at ht
    exact hunits (hguards ht) hc

/-- What a change of sign makes of a text without blanks around it. -/
inductive SignChange (t : Text) : Text → Prop where
  | kept : SignChange t t
  | added : SignChange t ('-' :: t)
  | taken {magnitude : Text} (hsign : t = '-' :: magnitude)
      (hnumber : (dimension? magnitude).isSome) : SignChange t magnitude
  | scaled : SignChange t ("calc(" ++ t ++ " * -1)")

theorem signChange_negate (value : Text) : SignChange (Text.trim value) (negate value) := by
  unfold negate
  dsimp only
  split
  · split
    · exact .kept
    · exact .added
  · split
    · split
      next magnitude hsign hnumber =>
        rw [hsign]
        exact .taken rfl hnumber
      · exact .kept
    · split
      · exact .scaled
      · exact .kept

theorem negate_trim (value : Text) : negate (Text.trim value) = negate value := by
  rw [negate, negate, Text.trim_trim]

theorem head?_of_mem_mathFunctions {name : Text} (hname : name ∈ mathFunctions) :
    ∃ c, name.head? = some c ∧ c ∈ ['v', 'c', 'm'] := by
  revert name
  simp [mathFunctions]

/-- A text that is no number, and does not begin as a function of `calc` does, keeps its sign. -/
theorem negate_of_head {t : Text} (ht : t.Trimmed) {first : Char} (hfirst : t.head? = some first)
    (hfunction : first ∉ ['v', 'c', 'm']) {c : Char} (hc : c ∈ t)
    (hnumber : isDimensionChar c = false) (hsign : c ≠ '-') : negate t = t := by
  have hnone {part : Text} (hpart : c ∈ part) : dimension? part = none := by
    rw [← Option.not_isSome_iff_eq_none]
    intro hsome
    rw [isDimensionChar_of_dimension? hsome hpart] at hnumber
    cases hnumber
  unfold negate
  rw [Text.trim_of_trimmed ht]
  dsimp only
  rw [hnone hc]
  split
  · cases ‹_›
  · split
    next magnitude =>
      rw [hnone ((List.mem_cons.mp hc).resolve_left hsign)]
      rfl
    next =>
      rw [if_neg]
      intro hany
      obtain ⟨name, hname, hstarts⟩ := List.any_eq_true.mp hany
      obtain ⟨d, hd, hfunctions⟩ := head?_of_mem_mathFunctions hname
      obtain ⟨rest, rfl⟩ := List.isPrefixOf_iff_prefix.mp hstarts
      rw [List.head?_append, hd, Option.some_or] at hfirst
      exact hfunction (Option.some.inj hfirst ▸ hfunctions)

/-! ## Colours -/

/-- A colour with another alpha channel, if the text is a colour with three channels. -/
def recolored? (alpha : Opacity) (t : Text) : Option Text :=
  match hexChannels? t with
  | some (r, g, b) =>
      some ("rgb(" ++ Text.ofNat r ++ " " ++ Text.ofNat g ++ " " ++ Text.ofNat b ++ " / " ++
        alphaText alpha ++ ")")
  | none => do
      let (function, arguments) ← functionalColor? t
      match Text.words (Text.substitute ',' " " (Text.substitute '/' " " arguments)) with
      | first :: second :: third :: _ =>
          some (((Text.lowerAscii function).reverse.dropWhile (· == 'a')).reverse ++ "(" ++
            Text.join " " [first, second, third] ++ " / " ++ alphaText alpha ++ ")")
      | _ => none

theorem withAlpha_eq (alpha : Opacity) (value : Text) :
    withAlpha alpha value = (recolored? alpha (Text.trim value)).getD value := by
  unfold withAlpha recolored?
  dsimp only
  cases hexChannels? (Text.trim value) with
  | some channels => rfl
  | none =>
      cases functionalColor? (Text.trim value) with
      | none => rfl
      | some found =>
          simp only [Option.bind_eq_bind, Option.bind_some]
          rcases Text.words (Text.substitute ',' " " (Text.substitute '/' " " found.2)) with
            _ | ⟨first, _ | ⟨second, _ | ⟨third, others⟩⟩⟩ <;> rfl

/-- How colours are written: they begin with a sign or a letter of their own, and have a character
that no number has. -/
structure ColorLike (t : Text) : Prop where
  first : ∃ c, t.head? = some c ∧ c ∈ ['#', 'r', 'R', 'h', 'H']
  special : ∃ c ∈ t, c = '#' ∨ c = '('

theorem exists_of_hexChannels? {t : Text} (ht : (hexChannels? t).isSome) :
    ∃ rest, t = '#' :: rest := by
  obtain ⟨channels, hchannels⟩ := Option.isSome_iff_exists.mp ht
  obtain ⟨digits, hlead, -⟩ := Option.bind_eq_some_iff.mp hchannels
  rw [Text.afterLead?, List.isPrefixOf?_eq_some_iff_append_eq] at hlead
  cases hline : Text.beforeTail? ['\n'] t with
  | none =>
      rw [hline] at hlead
      exact ⟨digits, hlead.symm⟩
  | some front =>
      rw [hline, Option.getD_some] at hlead
      rw [Text.beforeTail?, List.isSuffixOf?_eq_some_iff_append_eq, ← hlead] at hline
      exact ⟨digits ++ ['\n'], hline.symm⟩

theorem colorLike_of_hexChannels? {t : Text} (ht : (hexChannels? t).isSome) : ColorLike t := by
  obtain ⟨rest, rfl⟩ := exists_of_hexChannels? ht
  exact ⟨⟨'#', rfl, by decide⟩, '#', List.mem_cons_self, .inl rfl⟩

/-- The first letter of a function that makes colours. -/
theorem head?_of_agreesUpToCase {function : Text}
    (hfunction : colorFunctions.any (agreesUpToCase · function) = true) :
    ∃ c, function.head? = some c ∧ c ∈ ['r', 'R', 'h', 'H'] := by
  obtain ⟨name, hname, hagrees⟩ := List.any_eq_true.mp hfunction
  obtain ⟨d, letters, rfl, hd⟩ : ∃ d letters, name = d :: letters ∧ (d = 'r' ∨ d = 'h') := by
    revert name
    simp [colorFunctions]
  have hforms : Text.caseForms 'r' ⊆ ['r', 'R', 'h', 'H'] ∧
      Text.caseForms 'h' ⊆ ['r', 'R', 'h', 'H'] := by decide
  rw [agreesUpToCase, Bool.and_eq_true] at hagrees
  cases function with
  | nil => cases hagrees.1
  | cons c rest =>
      have hfirst := hagrees.2
      rw [List.zip_cons_cons, List.all_cons, Bool.and_eq_true, List.contains_iff_mem] at hfirst
      refine ⟨c, rfl, ?_⟩
      rcases hd with rfl | rfl
      · exact hforms.1 (Text.mem_caseForms (by decide) hfirst.1)
      · exact hforms.2 (Text.mem_caseForms (by decide) hfirst.1)

theorem of_functionalColor? {t function arguments : Text}
    (ht : functionalColor? t = some (function, arguments)) :
    ∃ rest, t = function ++ '(' :: rest ∧
      ∃ c, function.head? = some c ∧ c ∈ ['r', 'R', 'h', 'H'] := by
  obtain ⟨⟨before, rest⟩, hcut, ht⟩ := Option.bind_eq_some_iff.mp ht
  obtain ⟨inner, -, ht⟩ := Option.bind_eq_some_iff.mp ht
  split at ht
  · cases ht
  next hfunction =>
    split at ht
    · cases ht
    · cases ht
      exact ⟨rest, eq_of_cutFirst? hcut, head?_of_agreesUpToCase (by simpa using hfunction)⟩

/-- In small letters and without an `a` at its end, a name still begins as that of a colour. -/
theorem head?_lowered {function : Text} {c : Char} (hfirst : function.head? = some c)
    (hc : c ∈ ['r', 'R', 'h', 'H']) :
    ∃ d, ((Text.lowerAscii function).reverse.dropWhile (· == 'a')).reverse.head? = some d ∧
      d ∈ ['#', 'r', 'R', 'h', 'H'] := by
  obtain ⟨rest, rfl⟩ := List.head?_eq_some_iff.mp hfirst
  have hlower : (c.toLower == 'a') = false ∧ c.toLower ∈ ['#', 'r', 'R', 'h', 'H'] := by
    simp only [List.mem_cons, List.not_mem_nil, or_false] at hc
    rcases hc with rfl | rfl | rfl | rfl <;> decide
  exact ⟨c.toLower, @Text.head?_dropEnd (· == 'a') c.toLower hlower.1 _, hlower.2⟩

theorem colorLike_of_recolored? {alpha : Opacity} {t color : Text}
    (hcolor : recolored? alpha t = some color) :
    ColorLike t ∧ ColorLike color ∧ color.getLast? = some ')' := by
  unfold recolored? at hcolor
  split at hcolor
  next hhex =>
    refine ⟨colorLike_of_hexChannels? (by simp [hhex]), ?_⟩
    cases hcolor
    refine ⟨⟨⟨'r', by simp, by decide⟩, '(', by simp, .inr rfl⟩, ?_⟩
    rw [List.getLast?_append]
    rfl
  next =>
    obtain ⟨⟨function, arguments⟩, hfunction, hcolor⟩ := Option.bind_eq_some_iff.mp hcolor
    obtain ⟨rest, hsplit, c, hfirst, hc⟩ := of_functionalColor? hfunction
    obtain ⟨d, hlowered, hd⟩ := head?_lowered hfirst hc
    dsimp only at hcolor
    split at hcolor
    · cases hcolor
      refine ⟨?_, ⟨⟨d, ?_, hd⟩, '(', by simp, .inr rfl⟩, ?_⟩
      · rw [hsplit]
        refine ⟨⟨c, ?_, List.mem_cons_of_mem _ hc⟩, '(', by simp, .inr rfl⟩
        rw [List.head?_append, hfirst, Option.some_or]
      · simp only [List.head?_append, hlowered, Option.some_or]
      · rw [List.getLast?_append]
        rfl
    · cases hcolor

/-- A colour that ends with its closing parenthesis has no blanks around it. -/
theorem ColorLike.trimmed {t : Text} (hcolor : ColorLike t) (hlast : t.getLast? = some ')') :
    t.Trimmed := by
  constructor
  · intro c hc
    obtain ⟨first, hfirst, hmem⟩ := hcolor.first
    obtain rfl := Option.some.inj (hfirst.symm.trans hc)
    revert hmem
    simp only [List.mem_cons, List.not_mem_nil, or_false]
    rintro (rfl | rfl | rfl | rfl | rfl) <;> decide
  · intro c hc
    rw [hlast] at hc
    cases hc
    decide

/-- A colour keeps its sign. -/
theorem ColorLike.negate_eq {t : Text} (ht : t.Trimmed) (hcolor : ColorLike t) : negate t = t := by
  obtain ⟨first, hfirst, hmem⟩ := hcolor.first
  obtain ⟨c, hc, hspecial⟩ := hcolor.special
  have hfunction : first ∉ ['v', 'c', 'm'] := by
    revert hmem
    simp only [List.mem_cons, List.not_mem_nil, or_false]
    rintro (rfl | rfl | rfl | rfl | rfl) <;> decide
  have hnumber : isDimensionChar c = false ∧ c ≠ '-' := by
    rcases hspecial with rfl | rfl <;> exact ⟨rfl, by decide⟩
  exact negate_of_head ht hfirst hfunction hc hnumber.1 hnumber.2

/-- What a change of sign makes of a text is no colour, unless the text was. -/
theorem recolored?_negate {alpha : Opacity} {value : Text}
    (hvalue : recolored? alpha (Text.trim value) = none) :
    recolored? alpha (Text.trim (negate value)) = none := by
  have hstart {c : Char} {rest : Text} (hblank : Text.isBlank c = false)
      (hc : c ∉ ['#', 'r', 'R', 'h', 'H']) : recolored? alpha (Text.trim (c :: rest)) = none := by
    rw [Option.eq_none_iff_forall_ne_some]
    intro color hcolor
    obtain ⟨first, hfirst, hmem⟩ := (colorLike_of_recolored? hcolor).1.first
    rw [Text.head?_trim hblank] at hfirst
    exact hc (Option.some.inj hfirst ▸ hmem)
  have hchange := signChange_negate value
  generalize negate value = changed at hchange ⊢
  cases hchange with
  | kept => rwa [Text.trim_trim]
  | added => exact hstart (by decide) (by decide)
  | scaled => exact hstart (by decide) (by decide)
  | taken hsign hnumber =>
      rw [Option.eq_none_iff_forall_ne_some]
      intro color hcolor
      obtain ⟨c, hc, hspecial⟩ := (colorLike_of_recolored? hcolor).1.special
      have hdigit := isDimensionChar_of_dimension? hnumber (Text.mem_of_mem_trim hc)
      rcases hspecial with rfl | rfl <;> cases hdigit

/-- A change of sign and an alpha channel are for different values. -/
theorem negate_withAlpha (alpha : Opacity) (value : Text) :
    negate (withAlpha alpha value) = withAlpha alpha (negate value) := by
  rw [withAlpha_eq, withAlpha_eq]
  cases hcolor : recolored? alpha (Text.trim value) with
  | none => rw [recolored?_negate hcolor, Option.getD_none, Option.getD_none]
  | some color =>
      obtain ⟨hvalue, hnew, hlast⟩ := colorLike_of_recolored? hcolor
      have hkept : negate value = Text.trim value := by
        rw [← negate_trim]
        exact hvalue.negate_eq (Text.trimmed_trim value)
      rw [hkept, Text.trim_trim, hcolor, Option.getD_some, Option.getD_some]
      exact hnew.negate_eq (hnew.trimmed hlast)

/-! ## Marks of importance -/

/-- Whether a value ends with a mark of importance. -/
def Marked (value : Text) : Prop := importantMark <:+ value

theorem splitImportant_marked (value : Text) :
    splitImportant (value ++ importantMark) = (value, importantMark) := by
  have htail : Text.beforeTail? importantMark (value ++ importantMark) = some value := by
    rw [Text.beforeTail?, List.isSuffixOf?_eq_some_iff_append_eq]
  rw [splitImportant, htail]

theorem splitImportant_unmarked {value : Text} (hvalue : ¬ Marked value) :
    splitImportant value = (value, []) := by
  have htail : Text.beforeTail? importantMark value = none := by
    rw [Option.eq_none_iff_forall_ne_some]
    intro bare hbare
    rw [Text.beforeTail?, List.isSuffixOf?_eq_some_iff_append_eq] at hbare
    exact hvalue ⟨bare, hbare⟩
  rw [splitImportant, htail]

/-- A change marks no value that is not marked. -/
def LeavesMarks (change : Text → Text) (value : Text) : Prop := Marked (change value) → Marked value

theorem mapBare_marked (change : Text → Text) (value : Text) :
    mapBare change (value ++ importantMark) = change value ++ importantMark := by
  rw [mapBare, splitImportant_marked]

theorem mapBare_unmarked (change : Text → Text) {value : Text} (hvalue : ¬ Marked value) :
    mapBare change value = change value := by
  rw [mapBare, splitImportant_unmarked hvalue]
  exact List.append_nil _

theorem markImportant_marked {value : Text} (hvalue : Marked value) :
    markImportant value = value :=
  if_pos (List.isSuffixOf_iff_suffix.mpr hvalue)

theorem markImportant_unmarked {value : Text} (hvalue : ¬ Marked value) :
    markImportant value = value ++ importantMark :=
  if_neg (hvalue ∘ List.isSuffixOf_iff_suffix.mp)

theorem markImportant_mapBare {change : Text → Text} {value : Text}
    (hchange : LeavesMarks change value) :
    markImportant (mapBare change value) = mapBare change (markImportant value) := by
  by_cases hvalue : Marked value
  · obtain ⟨bare, rfl⟩ := hvalue
    rw [mapBare_marked, markImportant_marked ⟨bare, rfl⟩, mapBare_marked]
    exact markImportant_marked ⟨change bare, rfl⟩
  · rw [mapBare_unmarked _ hvalue, markImportant_unmarked hvalue, mapBare_marked,
      markImportant_unmarked (hvalue ∘ hchange)]

theorem mapBare_mapBare (first : Text → Text) {second : Text → Text} {value : Text}
    (hsecond : LeavesMarks second value) :
    mapBare first (mapBare second value) = mapBare (first ∘ second) value := by
  by_cases hvalue : Marked value
  · obtain ⟨bare, rfl⟩ := hvalue
    rw [mapBare_marked, mapBare_marked, mapBare_marked]
    rfl
  · rw [mapBare_unmarked second hvalue, mapBare_unmarked _ hvalue,
      mapBare_unmarked first (hvalue ∘ hsecond)]
    rfl

theorem not_marked_of_getLast? {value : Text} {c : Char} (hlast : value.getLast? = some c)
    (hc : c ≠ 't') : ¬ Marked value := by
  rintro ⟨bare, rfl⟩
  rw [List.getLast?_append] at hlast
  exact hc (Option.some.inj hlast).symm

theorem leavesMarks_withAlpha (alpha : Opacity) (value : Text) :
    LeavesMarks (withAlpha alpha) value := by
  intro hmarked
  rw [withAlpha_eq] at hmarked
  cases hcolor : recolored? alpha (Text.trim value) with
  | none => rwa [hcolor] at hmarked
  | some color =>
      rw [hcolor] at hmarked
      exact absurd hmarked
        (not_marked_of_getLast? (colorLike_of_recolored? hcolor).2.2 (by decide))

theorem leavesMarks_negate {value : Text}
    (hlast : ∀ c, value.getLast? = some c → Text.isBlank c = false) : LeavesMarks negate value := by
  intro hmarked
  suffices htrim : Marked (Text.trim value) from htrim.trans (Text.trim_suffix hlast)
  have hchange := signChange_negate value
  generalize negate value = changed at hmarked hchange
  cases hchange with
  | kept => exact hmarked
  | added =>
      refine (List.suffix_cons_iff.mp hmarked).resolve_left fun hsame => ?_
      have hhead : some ' ' = some '-' := congrArg List.head? hsame
      exact absurd hhead (by decide)
  | taken hsign =>
      rw [hsign]
      exact hmarked.trans (List.suffix_cons _ _)
  | scaled =>
      refine absurd hmarked (not_marked_of_getLast? (c := ')') ?_ (by decide))
      rw [List.getLast?_append]
      rfl

end Css

namespace Declarations

theorem mapValues_markImportant {change : Text → Text} {declarations : Declarations}
    (hchange : ∀ entry ∈ declarations, Css.LeavesMarks change entry.2) :
    (declarations.mapValues change).markImportant =
      declarations.markImportant.mapValues change := by
  rw [markImportant, mapValues, mapValues, markImportant, List.map_map, List.map_map]
  apply List.map_congr_left
  intro entry hentry
  exact congrArg (entry.1, ·) (Css.markImportant_mapBare (hchange entry hentry))

theorem mapValues_comm {first second : Text → Text} {declarations : Declarations}
    (hcomm : ∀ value, first (second value) = second (first value))
    (hfirst : ∀ entry ∈ declarations, Css.LeavesMarks first entry.2)
    (hsecond : ∀ entry ∈ declarations, Css.LeavesMarks second entry.2) :
    (declarations.mapValues second).mapValues first =
      (declarations.mapValues first).mapValues second := by
  have hboth : first ∘ second = second ∘ first := funext hcomm
  rw [mapValues, mapValues, mapValues, mapValues, List.map_map, List.map_map]
  apply List.map_congr_left
  intro entry hentry
  apply congrArg (entry.1, ·)
  rw [Css.mapBare_mapBare _ (hfirst entry hentry), Css.mapBare_mapBare _ (hsecond entry hentry),
    hboth]

/-- On values without blanks at their ends, the three changes commute: which of two comes first
makes no difference. -/
theorem changes_commute {declarations : Declarations}
    (hvalues : ∀ entry ∈ declarations, ∀ c, entry.2.getLast? = some c → Text.isBlank c = false)
    (alpha : Opacity) :
    declarations.negate.markImportant = declarations.markImportant.negate ∧
      (declarations.withAlpha alpha).markImportant = declarations.markImportant.withAlpha alpha ∧
      (declarations.withAlpha alpha).negate = declarations.negate.withAlpha alpha := by
  have hnegate : ∀ entry ∈ declarations, Css.LeavesMarks Css.negate entry.2 :=
    fun entry hentry => Css.leavesMarks_negate (hvalues entry hentry)
  have halpha : ∀ entry ∈ declarations, Css.LeavesMarks (Css.withAlpha alpha) entry.2 :=
    fun entry _ => Css.leavesMarks_withAlpha alpha entry.2
  refine ⟨mapValues_markImportant hnegate, mapValues_markImportant halpha, ?_⟩
  exact mapValues_comm (Css.negate_withAlpha alpha) hnegate halpha

/-- A number behind a tab, a colour with two spaces before its mark, a function of `calc` and an
incomplete colour. -/
def mixed : Declarations :=
  [("margin", "\t-1.5rem"), ("color", " #F80  !important"), ("top", "var(--a)"),
    ("fill", " RGB(1,2)")]

theorem changes_commute_mixed :
    (∀ entry ∈ mixed, ∀ c, entry.2.getLast? = some c → Text.isBlank c = false) ∧
      mixed.negate.markImportant = mixed.markImportant.negate ∧
      (mixed.withAlpha (.verbatim "a_b")).markImportant =
        mixed.markImportant.withAlpha (.verbatim "a_b") ∧
      (mixed.withAlpha (.verbatim "a_b")).negate = mixed.negate.withAlpha (.verbatim "a_b") ∧
      mixed.negate.withAlpha (.verbatim "a_b") =
        ([("margin", "1.5rem"), ("color", "rgb(255 136 0 / a b) !important"),
          ("top", "calc(var(--a) * -1)"), ("fill", "RGB(1,2)")] : Declarations) := by
  have hvalues : ∀ entry ∈ mixed, ∀ c, entry.2.getLast? = some c → Text.isBlank c = false := by
    simp only [mixed, List.forall_mem_cons, List.not_mem_nil]
    refine ⟨?_, ?_, ?_, ?_, nofun⟩ <;>
      · rintro c ⟨⟩
        decide
  obtain ⟨hmark, hmarkAlpha, hboth⟩ := changes_commute hvalues (.verbatim "a_b")
  exact ⟨hvalues, hmark, hmarkAlpha, hboth, rfl⟩

end Declarations

end UtilityCss
