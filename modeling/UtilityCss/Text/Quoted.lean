import UtilityCss.Text.Blank

/-!
# Quoted text in messages

Messages show a text between quote marks, with a backslash before the mark, the
backslash and characters that do not print. The mark is an apostrophe, unless the
text has an apostrophe and no double quote.
-/

namespace UtilityCss

namespace Text

/-- The assigned characters that do not print, the blank U+0020 excepted, as ranges
of code points: controls, format characters, separators and private use. -/
def unprintableRanges : List (Nat × Nat) :=
  [(0x0, 0x1F), (0x7F, 0xA0), (0xAD, 0xAD), (0x600, 0x605), (0x61C, 0x61C), (0x6DD, 0x6DD),
    (0x70F, 0x70F), (0x890, 0x891), (0x8E2, 0x8E2), (0x1680, 0x1680), (0x180E, 0x180E),
    (0x2000, 0x200F), (0x2028, 0x202F), (0x205F, 0x2064), (0x2066, 0x206F), (0x3000, 0x3000),
    (0xE000, 0xF8FF), (0xFEFF, 0xFEFF), (0xFFF9, 0xFFFB), (0x110BD, 0x110BD), (0x110CD, 0x110CD),
    (0x13430, 0x13438), (0x1BCA0, 0x1BCA3), (0x1D173, 0x1D17A), (0xE0001, 0xE0001),
    (0xE0020, 0xE007F), (0xF0000, 0xFFFFD), (0x100000, 0x10FFFD)]

/-- The hexadecimal numeral of a number, with small letters. -/
def hex (n : Nat) : Text := Nat.toDigits 16 n

/-- A hexadecimal numeral with leading zeros up to a width. -/
def hexPadded (width n : Nat) : Text := List.replicate (width - (hex n).length) '0' ++ hex n

/-- The quote mark for a text. -/
def quoteMark (t : Text) : Char :=
  if t.contains '\x27' && !t.contains '\x22' then '\x22' else '\x27'

/-- One character of a text between two of the given quote marks. -/
def quoteChar (mark c : Char) : Text :=
  if c = mark ∨ c = '\\' then ['\\', c]
  else if c = '\n' then "\\n"
  else if c = '\r' then "\\r"
  else if c = '\t' then "\\t"
  else if inRanges unprintableRanges c then
    if c.toNat < 0x100 then "\\x" ++ hexPadded 2 c.toNat
    else if c.toNat < 0x10000 then "\\u" ++ hexPadded 4 c.toNat
    else "\\U" ++ hexPadded 8 c.toNat
  else [c]

/-- A text between quote marks. -/
def quote (t : Text) : Text :=
  quoteMark t :: t.flatMap (quoteChar (quoteMark t)) ++ [quoteMark t]

end Text

end UtilityCss
