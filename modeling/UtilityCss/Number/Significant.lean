import UtilityCss.Number.Binary64
import UtilityCss.Text.Basic

/-!
# Numerals with significant digits

A number is written with a given count of significant digits and without trailing
zeros. It is positional unless its decimal exponent is below -4 or not below the
count of digits; then the exponent follows an `e`, with its sign and at least two
digits.
-/

namespace UtilityCss

namespace Number

/-- The decimal exponent of `num / den`: the power of ten at its first digit. -/
def decimalExponent (num den : Nat) : Int :=
  let order : Int := ((Text.ofNat num).length : Int) - ((Text.ofNat den).length : Int)
  if atLeastPower 10 num den order then order else order - 1

/-- The leading `digits` digits of `num / den`, rounded half to even, and the
decimal exponent of the rounded value. -/
def leadingDigits (digits num den : Nat) : Nat × Int :=
  let exponent := decimalExponent num den
  let leading := roundScaled 10 num den (exponent - (digits - 1))
  if leading = Nat.pow 10 digits then (Nat.pow 10 (digits - 1), exponent + 1)
  else (leading, exponent)

/-- Drop trailing zeros. -/
def dropZeros (t : Text) : Text := (t.reverse.dropWhile (· == '0')).reverse

/-- Digits after a point; nothing if there are none. -/
def fraction (digits : Text) : Text := if digits = [] then [] else '.' :: digits

/-- An exponent with its sign and at least two digits. -/
def exponentText (exponent : Int) : Text :=
  let numeral := Text.ofNat exponent.natAbs
  (if exponent < 0 then '-' else '+') :: (List.replicate (2 - numeral.length) '0' ++ numeral)

/-- The numeral of a positive quotient. -/
def ratioText (digits num den : Nat) : Text :=
  let (leading, exponent) := leadingDigits digits num den
  let numeral := Text.ofNat leading
  if exponent < -4 ∨ (digits : Int) ≤ exponent then
    numeral.take 1 ++ fraction (dropZeros (numeral.drop 1)) ++ 'e' :: exponentText exponent
  else
    match exponent with
    | .ofNat k => numeral.take (k + 1) ++ fraction (dropZeros (numeral.drop (k + 1)))
    | .negSucc k => "0." ++ List.replicate k '0' ++ dropZeros numeral

/-- The numeral of a number with a count of significant digits. -/
def significant (digits : Nat) : Binary64 → Text
  | .finite negative significand exponent =>
      let sign : Text := if negative then ['-'] else []
      if significand = 0 then sign ++ ['0']
      else
        let (num, den) := Binary64.ratio significand exponent
        sign ++ ratioText digits num den
  | .infinite negative => if negative then "-inf" else "inf"

end Number

end UtilityCss
