import UtilityCss.Text.Digit
import UtilityCss.Text.Quoted

/-!
# Class selectors

A class name becomes an identifier of CSS: reserved punctuation gets a backslash,
every blank becomes an escaped space, and a digit that would begin the identifier,
or follow a dash that begins it, is written by its code point.
-/

namespace UtilityCss

namespace Selector

/-- Punctuation that needs a backslash in an identifier. -/
def reserved : Text := ":[]()/!@#$%^&*+=~\x60\x7b\x7d|\\;,.?<>'\""

/-- One character of an identifier; `leading` says whether a digit would begin the
identifier here. -/
def escapeChar (leading : Bool) (c : Char) : Text :=
  if reserved.contains c then ['\\', c]
  else if Text.isBlank c then "\\ "
  else if leading && Text.isDigit c then '\\' :: Text.hex c.toNat ++ [' ']
  else [c]

/-- A class name as an identifier. -/
def escape : Text → Text
  | [] => []
  | '-' :: c :: rest => '-' :: escapeChar true c ++ rest.flatMap (escapeChar false)
  | c :: rest => escapeChar true c ++ rest.flatMap (escapeChar false)

/-- The selector of a class. -/
def ofClass (name : Text) : Text := '.' :: escape name

/-- Write a selector for each ampersand of a template. -/
def fill (template selector : Text) : Text := Text.substitute '&' selector template

end Selector

end UtilityCss
