/-!
# Text

Class names, selectors and declarations are lists of characters, so that every
reading and writing function is a recursion on a list. String literals stand
for their characters.

The operations here are those on whole texts: leading and trailing parts, first
and last occurrences, substitution for one character, and decimal numerals.
-/

namespace UtilityCss

/-- A text is the list of its characters. -/
abbrev Text := List Char

instance : Coe String Text := ⟨String.toList⟩

namespace Text

/-- Whether `t` begins with `lead`. -/
def startsWith (t lead : Text) : Bool := lead.isPrefixOf t

/-- Whether `t` ends with `tail`. -/
def endsWith (t tail : Text) : Bool := tail.isSuffixOf t

/-- What follows `lead` in `t`, if `t` begins with it. -/
def afterLead? (lead t : Text) : Option Text := lead.isPrefixOf? t

/-- What precedes `tail` in `t`, if `t` ends with it. -/
def beforeTail? (tail t : Text) : Option Text := tail.isSuffixOf? t

/-- The texts of `parts` with `separator` between neighbours. -/
def join (separator : Text) (parts : List Text) : Text := separator.intercalate parts

/-- Write `replacement` for every occurrence of `c`. -/
def substitute (c : Char) (replacement t : Text) : Text :=
  t.flatMap fun d => if d = c then replacement else [d]

/-- The position of the first occurrence of `c`. -/
def indexOf? (c : Char) (t : Text) : Option Nat := t.findIdx? (· == c)

/-- The text before and after the first occurrence of `c`. -/
def cutFirst? (c : Char) : Text → Option (Text × Text)
  | [] => none
  | d :: rest =>
      if d = c then some ([], rest)
      else (cutFirst? c rest).map fun (before, after) => (d :: before, after)

/-- The text before and after the last occurrence of `c`. -/
def cutLast? (c : Char) : Text → Option (Text × Text)
  | [] => none
  | d :: rest =>
      match cutLast? c rest with
      | some (before, after) => some (d :: before, after)
      | none => if d = c then some ([], rest) else none

/-- The position of the first occurrence of `part` as a contiguous piece. -/
def find? (part : Text) : Text → Option Nat
  | [] => if part = [] then some 0 else none
  | c :: rest =>
      if part.isPrefixOf (c :: rest) then some 0 else (find? part rest).map (· + 1)

/-- Whether `part` occurs in `t` as a contiguous piece. -/
def containsText (part t : Text) : Bool := (find? part t).isSome

/-- The decimal numeral of a natural number. -/
def ofNat (n : Nat) : Text := Nat.toDigits 10 n

/-- The decimal numeral of an integer. -/
def ofInt : Int → Text
  | .ofNat n => ofNat n
  | .negSucc n => '-' :: ofNat (n + 1)

/-- Fill `t` with trailing blanks up to a width. -/
def padRight (width : Nat) (t : Text) : Text := t ++ List.replicate (width - t.length) ' '

end Text

end UtilityCss
