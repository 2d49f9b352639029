import UtilityCss.Token.Payload

/-!
# Class names by their parts

The parts of a class name are its segments between colons outside brackets: all
but the last are variants, the last is the utility. No variant need be known.
-/

namespace UtilityCss

namespace ClassName

/-- The segments between colons outside brackets. -/
def segments (name : Text) : List Text := Brackets.splitOutside ':' name

/-- The last segment. -/
def utility (name : Text) : Text := (segments name).getLastD []

/-- All segments but the last. -/
def variants (name : Text) : List Text := (segments name).dropLast

/-- Whether a name has variants. A name that begins with a bracket counts as having
none. -/
def hasVariants (name : Text) : Bool :=
  1 < (segments name).length && !Text.startsWith name "["

/-- Whether a name begins with one dash. -/
def isNegative (name : Text) : Bool := Text.startsWith name "-" && !Text.startsWith name "--"

/-- A utility behind some variants. -/
def withVariants (utility : Text) (variants : List Text) : Text :=
  Text.join ":" (variants ++ [utility])

/-- The class name with given parts. -/
def assemble (utility : Text) (variants : List Text) (negative important : Bool) : Text :=
  let signed := if negative then '-' :: utility else utility
  withVariants (if important then '!' :: signed else signed) variants

end ClassName

end UtilityCss
