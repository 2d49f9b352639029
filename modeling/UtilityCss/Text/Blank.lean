import UtilityCss.Text.Basic

/-!
# Blanks

Blanks are the characters with the Unicode property `White_Space`, together with
the four information separators U+001C to U+001F. A zero-width space is not one.
Trimming removes blanks at the ends of a text; its words are the pieces between
blanks.
-/

namespace UtilityCss

namespace Text

/-- The blanks, as ranges of code points. -/
def blankRanges : List (Nat × Nat) :=
  [(0x09, 0x0D), (0x1C, 0x20), (0x85, 0x85), (0xA0, 0xA0), (0x1680, 0x1680),
    (0x2000, 0x200A), (0x2028, 0x2029), (0x202F, 0x202F), (0x205F, 0x205F), (0x3000, 0x3000)]

/-- Whether a character lies in one of some ranges of code points. -/
def inRanges (ranges : List (Nat × Nat)) (c : Char) : Bool :=
  ranges.any fun (lowest, highest) => lowest ≤ c.toNat && c.toNat ≤ highest

/-- Whether a character is a blank. -/
def isBlank (c : Char) : Bool := inRanges blankRanges c

/-- The text without its leading blanks. -/
def trimLeft (t : Text) : Text := t.dropWhile isBlank

/-- The text without its trailing blanks. -/
def trimRight (t : Text) : Text := (t.reverse.dropWhile isBlank).reverse

/-- The text without blanks at either end. -/
def trim (t : Text) : Text := trimRight (trimLeft t)

/-- The pieces of a text between the characters that `cut` accepts. There is one
piece more than there are such characters. -/
def pieces (cut : Char → Bool) : Text → List Text
  | [] => [[]]
  | c :: rest =>
      if cut c then [] :: pieces cut rest
      else match pieces cut rest with
        | [] => [[c]]
        | piece :: others => (c :: piece) :: others

/-- The maximal runs of characters that are not blanks. -/
def words (t : Text) : List Text := (pieces isBlank t).filter (· ≠ [])

end Text

end UtilityCss
