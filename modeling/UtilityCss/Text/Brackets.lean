import UtilityCss.Text.Blank

/-!
# Bracket depth

Square brackets and parentheses nest. The depth counts both kinds together and
does not tell them apart; a closing bracket at depth zero leaves it at zero.
Texts are split at delimiters, or at blanks, that stand at depth zero.

`closingBracket?` is about square brackets alone and keeps a signed balance, so
that a text may close more of them than it opened before the first one.
-/

namespace UtilityCss

namespace Brackets

/-- The depth after reading one more character. -/
def step (depth : Nat) (c : Char) : Nat :=
  if c = '[' ∨ c = '(' then depth + 1
  else if c = ']' ∨ c = ')' then depth - 1
  else depth

/-- The depth at the end of a text that begins at a given depth. -/
def depthFrom (depth : Nat) (t : Text) : Nat := t.foldl step depth

/-- The depth at the end of a text. -/
def depth (t : Text) : Nat := depthFrom 0 t

/-- Whether a character opens or closes a bracket. -/
def isBracket (c : Char) : Bool := c == '[' || c == ']' || c == '(' || c == ')'

/-- Split a text, read from a given depth, at the characters that `cut` accepts
and that leave the depth at zero. There is one part more than there are such
characters. -/
def splitFrom (cut : Char → Bool) : Nat → Text → List Text
  | _, [] => [[]]
  | depth, c :: rest =>
      if cut c && step depth c == 0 then [] :: splitFrom cut (step depth c) rest
      else match splitFrom cut (step depth c) rest with
        | [] => [[c]]
        | part :: parts => (c :: part) :: parts

/-- Split a text at the delimiters outside brackets. A bracket never delimits. -/
def splitOutside (delimiter : Char) (t : Text) : List Text :=
  splitFrom (fun c => c == delimiter && !isBracket c) 0 t

/-- Split at a delimiter that is given as a text. One that is not a single character
splits nothing. -/
def splitAtText (delimiter t : Text) : List Text :=
  match delimiter with
  | [c] => splitOutside c t
  | _ => [t]

/-- Split a text at the blanks outside brackets, dropping empty parts. An opening
bracket that is never closed keeps the rest of the text in one part. -/
def splitBlanks (t : Text) : List Text :=
  (splitFrom Text.isBlank 0 t).filter (· ≠ [])

/-- The position at which the balance of square brackets falls to zero at a
closing bracket, reading from a given balance and position. -/
def closingFrom : Int → Nat → Text → Option Nat
  | _, _, [] => none
  | balance, position, c :: rest =>
      if c = '[' then closingFrom (balance + 1) (position + 1) rest
      else if c = ']' then
        if balance = 1 then some position else closingFrom (balance - 1) (position + 1) rest
      else closingFrom balance (position + 1) rest

/-- The position of the square bracket that closes the one at `start`. -/
def closingBracket? (t : Text) (start : Nat) : Option Nat :=
  closingFrom 0 start (t.drop start)

end Brackets

end UtilityCss
