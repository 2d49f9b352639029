import UtilityCss.Proofs.BodyTotality
import UtilityCss.Proofs.RuleNames
import UtilityCss.Proofs.ValueChanges

/-!
# Alpha channels

A colour is given an alpha channel by reading its function and its first three channels and
writing them out with the new channel behind a slash. What is written is a colour again, in one
form whatever form was read, and reading it gives the same function and channels back. So the
channels are kept and the last alpha channel stands.

The alpha channel itself may hold slashes, commas and blanks, since only what stands before it is
read. It may hold no parenthesis, because a colour with one inside is not read at all.
-/

namespace UtilityCss

namespace Text

/-! ## Words -/

section Pieces

variable {cut : Char → Bool}

theorem pieces_append {piece : Text} (hpiece : ∀ c ∈ piece, cut c = false) {c : Char}
    (hc : cut c = true) (rest : Text) :
    pieces cut (piece ++ c :: rest) = piece :: pieces cut rest := by
  induction piece with
  | nil => rw [List.nil_append, pieces, if_pos hc]
  | cons d piece ih =>
      rw [List.forall_mem_cons] at hpiece
      rw [List.cons_append, pieces, hpiece.1, if_neg Bool.false_ne_true, ih hpiece.2]

theorem of_mem_pieces {t piece : Text} (hpiece : piece ∈ pieces cut t) :
    ∀ c ∈ piece, c ∈ t ∧ cut c = false := by
  induction t generalizing piece with
  | nil =>
      rw [List.mem_singleton.mp hpiece]
      simp
  | cons d rest ih =>
      rw [pieces] at hpiece
      have hlater {other : Text} (hother : other ∈ pieces cut rest) :
          ∀ c ∈ other, c ∈ d :: rest ∧ cut c = false := by
        intro c hc
        exact ⟨List.mem_cons_of_mem d (ih hother c hc).1, (ih hother c hc).2⟩
      split at hpiece
      next =>
        rcases List.mem_cons.mp hpiece with rfl | hother
        · simp
        · exact hlater hother
      next hd =>
        have hfirst : d ∈ d :: rest ∧ cut d = false := ⟨List.mem_cons_self, by simpa using hd⟩
        cases hpieces : pieces cut rest with
        | nil =>
            rw [hpieces, List.mem_singleton] at hpiece
            simpa [hpiece] using hfirst
        | cons first others =>
            rw [hpieces] at hpiece hlater
            rcases List.mem_cons.mp hpiece with rfl | hother
            · intro c hc
              rcases List.mem_cons.mp hc with rfl | hc
              · exact hfirst
              · exact hlater List.mem_cons_self c hc
            · exact hlater (List.mem_cons_of_mem first hother)

end Pieces

theorem words_append {word : Text} (hne : word ≠ []) (hword : ∀ c ∈ word, isBlank c = false)
    {c : Char} (hc : isBlank c = true) (rest : Text) :
    words (word ++ c :: rest) = word :: words rest := by
  rw [words, pieces_append hword hc, List.filter_cons_of_pos (by simpa using hne)]
  rfl

theorem of_mem_words {t word : Text} (hword : word ∈ words t) :
    word ≠ [] ∧ ∀ c ∈ word, c ∈ t ∧ isBlank c = false := by
  rw [words, List.mem_filter, decide_eq_true_eq] at hword
  exact ⟨hword.2, of_mem_pieces hword.1⟩

theorem isBlank_of_isDigit {c : Char} (hc : c.isDigit = true) : isBlank c = false := by
  change (decide (48 ≤ c.val.toNat) && decide (c.val.toNat ≤ 57)) = true at hc
  rw [Bool.and_eq_true, decide_eq_true_eq, decide_eq_true_eq] at hc
  have hcode : c.toNat = c.val.toNat := rfl
  rw [Bool.eq_false_iff, isBlank, inRanges, Ne, List.any_eq_true]
  rintro ⟨⟨lowest, highest⟩, hrange, hc'⟩
  simp only [blankRanges, List.mem_cons, Prod.mk.injEq, List.not_mem_nil, or_false] at hrange
  rw [Bool.and_eq_true, decide_eq_true_eq, decide_eq_true_eq] at hc'
  omega

theorem substitute_append (c : Char) (replacement first second : Text) :
    substitute c replacement (first ++ second) =
      substitute c replacement first ++ substitute c replacement second :=
  List.flatMap_append

theorem substitute_of_not_mem {c : Char} {t : Text} (hc : c ∉ t) (replacement : Text) :
    substitute c replacement t = t := by
  induction t with
  | nil => rfl
  | cons d rest ih =>
      rw [List.mem_cons, not_or] at hc
      rw [substitute, List.flatMap_cons, if_neg (Ne.symm hc.1)]
      exact congrArg (d :: ·) (ih hc.2)

/-- What is left after a substitution was there before or is put in. -/
theorem of_mem_substitute {c d : Char} {replacement t : Text}
    (hd : d ∈ substitute c replacement t) : d ∈ replacement ∨ (d ∈ t ∧ d ≠ c) := by
  obtain ⟨other, hother, hd⟩ := List.mem_flatMap.mp hd
  split at hd
  · exact .inl hd
  next hne =>
    obtain rfl := List.mem_singleton.mp hd
    exact .inr ⟨hother, hne⟩

end Text

/-! ## Numerals -/

/-- Whether a character can be part of a numeral. -/
def isNumeralChar (c : Char) : Bool := c.isDigit || "+-.einf".toList.contains c

namespace Number

theorem isNumeralChar_of_mem_ofNat {n : Nat} {c : Char} (hc : c ∈ Text.ofNat n) :
    isNumeralChar c = true := by
  rw [isNumeralChar, Text.isDigit_of_mem_ofNat hc, Bool.true_or]

theorem mem_of_mem_dropZeros {t : Text} {c : Char} (hc : c ∈ dropZeros t) : c ∈ t := by
  rw [dropZeros, List.mem_reverse] at hc
  exact List.mem_reverse.mp ((List.dropWhile_suffix _).subset hc)

theorem isNumeralChar_of_mem_fraction {digits : Text}
    (hdigits : ∀ c ∈ digits, isNumeralChar c = true) {c : Char} (hc : c ∈ fraction digits) :
    isNumeralChar c = true := by
  unfold fraction at hc
  split at hc
  · cases hc
  · rcases List.mem_cons.mp hc with rfl | hc
    · rfl
    · exact hdigits c hc

theorem isNumeralChar_of_mem_exponentText {exponent : Int} {c : Char}
    (hc : c ∈ exponentText exponent) : isNumeralChar c = true := by
  rw [exponentText, List.mem_cons, List.mem_append] at hc
  rcases hc with rfl | hc | hc
  · split <;> rfl
  · rw [(List.mem_replicate.mp hc).2]
    rfl
  · exact isNumeralChar_of_mem_ofNat hc

theorem isNumeralChar_of_mem_ratioText {digits num den : Nat} {c : Char}
    (hc : c ∈ ratioText digits num den) : isNumeralChar c = true := by
  unfold ratioText at hc
  generalize leadingDigits digits num den = found at hc
  have hnumeral : ∀ d ∈ Text.ofNat found.1, isNumeralChar d = true :=
    fun _ => isNumeralChar_of_mem_ofNat
  -- The digits before the point and those behind it are digits of the numeral.
  have hsplit (k : Nat) (hd : c ∈ (Text.ofNat found.1).take k ∨
      c ∈ fraction (dropZeros ((Text.ofNat found.1).drop k))) : isNumeralChar c = true := by
    rcases hd with hd | hd
    · exact hnumeral c (List.mem_of_mem_take hd)
    · refine isNumeralChar_of_mem_fraction ?_ hd
      intro d hd
      exact hnumeral d (List.mem_of_mem_drop (mem_of_mem_dropZeros hd))
  dsimp only at hc
  split at hc
  · rw [List.mem_append, List.mem_append, List.mem_cons] at hc
    rcases hc with hc | rfl | hc
    · exact hsplit 1 hc
    · rfl
    · exact isNumeralChar_of_mem_exponentText hc
  · split at hc
    next k _ => exact hsplit (k + 1) (List.mem_append.mp hc)
    next =>
      rw [List.mem_append, List.mem_append, List.mem_replicate] at hc
      have hpoint : "0.".toList.all isNumeralChar = true := by decide
      rcases hc with (hc | ⟨-, rfl⟩) | hc
      · exact List.all_eq_true.mp hpoint c hc
      · rfl
      · exact hnumeral c (mem_of_mem_dropZeros hc)

theorem isNumeralChar_of_mem_significant {digits : Nat} {x : Binary64} {c : Char}
    (hc : c ∈ significant digits x) : isNumeralChar c = true := by
  have hsign {negative : Bool} (hd : c ∈ (if negative then ['-'] else [] : Text)) :
      isNumeralChar c = true := by
    cases negative with
    | false => cases hd
    | true =>
        rw [List.mem_singleton.mp hd]
        rfl
  cases x with
  | finite negative significand exponent =>
      rw [significant] at hc
      split at hc
      · rcases List.mem_append.mp hc with hc | hc
        · exact hsign hc
        · rw [List.mem_singleton.mp hc]
          rfl
      · rcases List.mem_append.mp hc with hc | hc
        · exact hsign hc
        · exact isNumeralChar_of_mem_ratioText hc
  | infinite negative =>
      have hinfinite : ∀ negative, (significant digits (.infinite negative)).all isNumeralChar := by
        intro negative
        cases negative <;> rfl
      exact List.all_eq_true.mp (hinfinite negative) c hc

end Number

namespace Css

/-! ## Channels -/

/-- The function of a colour, in small letters and without an alpha channel. -/
def baseFunction (function : Text) : Text :=
  ((Text.lowerAscii function).reverse.dropWhile (· == 'a')).reverse

/-- The function of a colour and its channels, without the alpha channel. -/
structure Channels where
  function : Text
  first : Text
  second : Text
  third : Text

/-- The channels of a colour. -/
def channels? (t : Text) : Option Channels :=
  match hexChannels? t with
  | some (r, g, b) => some ⟨"rgb", Text.ofNat r, Text.ofNat g, Text.ofNat b⟩
  | none => do
      let (function, arguments) ← functionalColor? t
      match Text.words (Text.substitute ',' " " (Text.substitute '/' " " arguments)) with
      | first :: second :: third :: _ => some ⟨baseFunction function, first, second, third⟩
      | _ => none

/-- What stands between the parentheses of a colour with an alpha channel. -/
def Channels.arguments (channels : Channels) (alpha : Opacity) : Text :=
  channels.first ++ ' ' :: (channels.second ++ ' ' :: (channels.third ++ " / " ++ alphaText alpha))

/-- The colour with these channels and an alpha channel. -/
def Channels.write (channels : Channels) (alpha : Opacity) : Text :=
  channels.function ++ '(' :: (channels.arguments alpha ++ [')'])

theorem recolored?_eq (alpha : Opacity) (t : Text) :
    recolored? alpha t = (channels? t).map (·.write alpha) := by
  unfold recolored? channels?
  cases hexChannels? t with
  | some channels => simp [Channels.write, Channels.arguments]
  | none =>
      cases functionalColor? t with
      | none => rfl
      | some found =>
          simp only [Option.bind_eq_bind, Option.bind_some]
          rcases Text.words (Text.substitute ',' " " (Text.substitute '/' " " found.2)) with
            _ | ⟨first, _ | ⟨second, _ | ⟨third, others⟩⟩⟩
          · rfl
          · rfl
          · rfl
          · simp [Channels.write, Channels.arguments, baseFunction, Text.join, List.intercalate]

/-! ## Reading -/

/-- What holds of every spelling of a function that makes colours. -/
theorem of_agreesUpToCase {function : Text}
    (hfunction : colorFunctions.any (agreesUpToCase · function) = true) :
    '(' ∉ function ∧ colorFunctions.any (agreesUpToCase · (baseFunction function)) = true ∧
      baseFunction (baseFunction function) = baseFunction function := by
  have hspellings : (colorFunctions.flatMap Text.spellings).all (fun function =>
      !function.contains '(' && colorFunctions.any (agreesUpToCase · (baseFunction function)) &&
        baseFunction (baseFunction function) == baseFunction function) = true := by
    decide +kernel
  have hsmall : colorFunctions.all (·.all Text.isSmallAscii) = true := by decide
  obtain ⟨name, hname, hagrees⟩ := List.any_eq_true.mp hfunction
  have hmem := Text.mem_spellings (List.all_eq_true.mp hsmall name hname) hagrees
  have hfacts := List.all_eq_true.mp hspellings function (List.mem_flatMap.mpr ⟨name, hname, hmem⟩)
  simpa [and_assoc] using hfacts

theorem functionalColor?_eq_some {t function arguments : Text} :
    functionalColor? t = some (function, arguments) ↔
      t = function ++ '(' :: (arguments ++ [')']) ∧
        colorFunctions.any (agreesUpToCase · function) = true ∧
        ∀ c ∈ arguments, c ≠ '(' ∧ c ≠ ')' := by
  constructor
  · intro ht
    obtain ⟨⟨before, rest⟩, hcut, ht⟩ := Option.bind_eq_some_iff.mp ht
    obtain ⟨inner, htail, ht⟩ := Option.bind_eq_some_iff.mp ht
    rw [Text.beforeTail?, List.isSuffixOf?_eq_some_iff_append_eq] at htail
    split at ht
    · cases ht
    next hfunction =>
      split at ht
      · cases ht
      next hinner =>
        obtain ⟨rfl, rfl⟩ := Prod.mk.inj (Option.some.inj ht)
        rw [htail]
        exact ⟨eq_of_cutFirst? hcut, by simpa using hfunction, by simpa using hinner⟩
  · rintro ⟨rfl, hfunction, harguments⟩
    have htail : Text.beforeTail? [')'] (arguments ++ [')']) = some arguments := by
      rw [Text.beforeTail?, List.isSuffixOf?_eq_some_iff_append_eq]
    have hinner : (arguments.any fun c => c == '(' || c == ')') = false := by
      simpa using harguments
    rw [functionalColor?, Token.cutFirst?_append (of_agreesUpToCase hfunction).1]
    simp only [Option.bind_eq_bind, Option.bind_some, htail, hfunction, hinner]
    rfl

/-- A channel is read as one word, and as it is written. -/
structure IsChannel (channel : Text) : Prop where
  nonempty : channel ≠ []
  solid : ∀ c ∈ channel, Text.isBlank c = false
  plain : ∀ c ∈ ['/', ',', '(', ')'], c ∉ channel

theorem isChannel_ofNat (n : Nat) : IsChannel (Text.ofNat n) where
  nonempty := Nat.toDigits_ne_nil
  solid := fun _ hc => Text.isBlank_of_isDigit (Text.isDigit_of_mem_ofNat hc)
  plain := by
    intro c hc
    have hdigits : ['/', ',', '(', ')'].all (!·.isDigit) = true := by decide
    exact Text.not_mem_ofNat (by simpa using List.all_eq_true.mp hdigits c hc) n

/-- Channels that a colour can have. -/
structure Channels.Proper (channels : Channels) : Prop where
  function : colorFunctions.any (agreesUpToCase · channels.function) = true
  base : baseFunction channels.function = channels.function
  first : IsChannel channels.first
  second : IsChannel channels.second
  third : IsChannel channels.third

theorem proper_of_channels? {t : Text} {channels : Channels}
    (ht : channels? t = some channels) : channels.Proper := by
  unfold channels? at ht
  split at ht
  next =>
    obtain rfl := Option.some.inj ht
    exact ⟨rfl, rfl, isChannel_ofNat _, isChannel_ofNat _, isChannel_ofNat _⟩
  next =>
    obtain ⟨⟨function, arguments⟩, hcolor, ht⟩ := Option.bind_eq_some_iff.mp ht
    obtain ⟨-, hfunction, harguments⟩ := functionalColor?_eq_some.mp hcolor
    obtain ⟨-, hagrees, hbase⟩ := of_agreesUpToCase hfunction
    dsimp only at ht
    split at ht
    next first second third others hwords =>
      obtain rfl := Option.some.inj ht
      have hchannel {word : Text} (hword : word ∈ first :: second :: third :: others) :
          IsChannel word := by
        rw [← hwords] at hword
        obtain ⟨hne, hchars⟩ := Text.of_mem_words hword
        refine ⟨hne, fun c hc => (hchars c hc).2, ?_⟩
        intro c hc hmem
        obtain ⟨hleft, hblank⟩ := hchars c hmem
        -- The spaces that are put in are blanks, so the character is one of the arguments.
        have hspace : c ∉ " ".toList := by
          intro hspace
          rw [List.mem_singleton.mp hspace] at hblank
          cases hblank
        obtain ⟨hleft, hcomma⟩ := (Text.of_mem_substitute hleft).resolve_left hspace
        obtain ⟨hargument, hslash⟩ := (Text.of_mem_substitute hleft).resolve_left hspace
        obtain ⟨hopening, hclosing⟩ := harguments c hargument
        simp [hcomma, hslash, hopening, hclosing] at hc
      exact ⟨hagrees, hbase, hchannel (by simp), hchannel (by simp), hchannel (by simp)⟩
    · cases ht

end Css

/-! ## Writing -/

/-- An alpha channel that is a number, or a text without parentheses when it is written. -/
def Opacity.LacksParentheses : Opacity → Prop
  | .share _ => True
  | .verbatim value => ∀ c ∈ Payload.normalize value, c ≠ '(' ∧ c ≠ ')'

namespace Css

theorem ne_parenthesis_of_mem_alphaText {alpha : Opacity} (halpha : alpha.LacksParentheses)
    {c : Char} (hc : c ∈ alphaText alpha) : c ≠ '(' ∧ c ≠ ')' := by
  cases alpha with
  | share alpha =>
      have hnumeral := Number.isNumeralChar_of_mem_significant hc
      constructor <;>
        · rintro rfl
          cases hnumeral
  | verbatim value => exact halpha c hc

/-- A channel before a space is the first word, whatever follows. -/
theorem IsChannel.words_append {channel : Text} (hchannel : IsChannel channel) (rest : Text) :
    Text.words (Text.substitute ',' " " (Text.substitute '/' " " (channel ++ ' ' :: rest))) =
      channel :: Text.words (Text.substitute ',' " " (Text.substitute '/' " " rest)) := by
  rw [Text.substitute_append, Text.substitute_of_not_mem (hchannel.plain '/' (by simp)),
    Text.substitute_append, Text.substitute_of_not_mem (hchannel.plain ',' (by simp))]
  exact Text.words_append hchannel.nonempty hchannel.solid (by decide) _

namespace Channels.Proper

variable {channels : Channels} (hchannels : channels.Proper)

include hchannels

theorem ne_parenthesis_of_mem_arguments {alpha : Opacity} (halpha : alpha.LacksParentheses) :
    ∀ c ∈ channels.arguments alpha, c ≠ '(' ∧ c ≠ ')' := by
  have hword {channel : Text} (hchannel : IsChannel channel) :
      ∀ c ∈ channel, c ≠ '(' ∧ c ≠ ')' := by
    intro c hc
    constructor <;>
      · rintro rfl
        exact hchannel.plain _ (by simp) hc
  have hslash : " / ".toList.all (fun c => c ≠ '(' ∧ c ≠ ')') = true := by decide
  intro c hc
  simp only [arguments, List.mem_append, List.mem_cons] at hc
  rcases hc with hc | rfl | hc | rfl | (hc | hc) | hc
  · exact hword hchannels.first c hc
  · decide
  · exact hword hchannels.second c hc
  · decide
  · exact hword hchannels.third c hc
  · simpa using List.all_eq_true.mp hslash c hc
  · exact ne_parenthesis_of_mem_alphaText halpha hc

/-- What is written with channels is read with these channels. -/
theorem channels?_write {alpha : Opacity} (halpha : alpha.LacksParentheses) :
    channels? (channels.write alpha) = some channels := by
  have hhex : hexChannels? (channels.write alpha) = none := by
    rw [← Option.not_isSome_iff_eq_none]
    intro hhex
    obtain ⟨rest, hrest⟩ := exists_of_hexChannels? hhex
    obtain ⟨c, hfirst, hc⟩ := head?_of_agreesUpToCase hchannels.function
    have hhead := congrArg List.head? hrest
    rw [write, List.head?_append, hfirst] at hhead
    obtain rfl := Option.some.inj hhead
    revert hc
    decide
  have hfunctional : functionalColor? (channels.write alpha) =
      some (channels.function, channels.arguments alpha) :=
    functionalColor?_eq_some.mpr
      ⟨rfl, hchannels.function, hchannels.ne_parenthesis_of_mem_arguments halpha⟩
  unfold channels?
  rw [hhex, hfunctional]
  simp only [Option.bind_eq_bind, Option.bind_some]
  rw [arguments, hchannels.first.words_append, hchannels.second.words_append,
    List.append_assoc]
  have hthird := hchannels.third.words_append ("/ " ++ alphaText alpha)
  change Text.words (Text.substitute ',' " " (Text.substitute '/' " " (channels.third ++
    (" / " ++ alphaText alpha)))) = _ at hthird
  rw [hthird]
  dsimp only
  rw [hchannels.base]

end Channels.Proper

theorem withAlpha_eq_write (alpha : Opacity) (value : Text) :
    withAlpha alpha value =
      ((channels? (Text.trim value)).map (·.write alpha)).getD value := by
  rw [withAlpha_eq, recolored?_eq]

/-- A colour keeps its channels with an alpha channel without parentheses, and of two alpha
channels the last one stands. -/
theorem withAlpha_withAlpha {first : Opacity} (hfirst : first.LacksParentheses) (second : Opacity)
    (value : Text) :
    withAlpha second (withAlpha first value) = withAlpha second value ∧
      channels? (Text.trim (withAlpha first value)) = channels? (Text.trim value) := by
  cases hchannels : channels? (Text.trim value) with
  | none =>
      have hkept : withAlpha first value = value := by
        rw [withAlpha_eq_write, hchannels]
        rfl
      rw [hkept]
      exact ⟨rfl, hchannels⟩
  | some channels =>
      have hwritten (alpha : Opacity) : withAlpha alpha value = channels.write alpha := by
        rw [withAlpha_eq_write, hchannels]
        rfl
      have hcolor : recolored? first (Text.trim value) = some (channels.write first) := by
        rw [recolored?_eq, hchannels]
        rfl
      obtain ⟨-, hlike, hlast⟩ := colorLike_of_recolored? hcolor
      have hread : channels? (Text.trim (channels.write first)) = some channels := by
        rw [Text.trim_of_trimmed (hlike.trimmed hlast)]
        exact (proper_of_channels? hchannels).channels?_write hfirst
      refine ⟨?_, ?_⟩
      · rw [hwritten first, hwritten second, withAlpha_eq_write, hread]
        rfl
      · rw [hwritten first, hread]

/-- A first alpha channel with blanks, a slash and a comma, and a last one with a parenthesis. -/
theorem withAlpha_withAlpha_mixed :
    (Opacity.verbatim "1_/ 2,3").LacksParentheses ∧
      withAlpha (.verbatim "var(--a)") (withAlpha (.verbatim "1_/ 2,3") "\tHſLA(9deg/8%,7%\n6)") =
        withAlpha (.verbatim "var(--a)") "\tHſLA(9deg/8%,7%\n6)" ∧
      withAlpha (.verbatim "1_/ 2,3") "\tHſLA(9deg/8%,7%\n6)" = "hſl(9deg 8% 7% / 1 / 2,3)".toList ∧
      withAlpha (.verbatim "var(--a)") "\tHſLA(9deg/8%,7%\n6)" =
        "hſl(9deg 8% 7% / var(--a))".toList := by
  have hfirst : (Opacity.verbatim "1_/ 2,3").LacksParentheses := by
    intro c hc
    have hall : (Payload.normalize "1_/ 2,3").all (fun c => c ≠ '(' ∧ c ≠ ')') = true := by decide
    simpa using List.all_eq_true.mp hall c hc
  refine ⟨hfirst, (withAlpha_withAlpha hfirst _ _).1, ?_, ?_⟩
  · decide
  · decide

end Css

end UtilityCss
