import UtilityCss.Number.Rounding

/-!
# Binary floating point

Numbers with 53 binary digits and exponents from -1074 to 971, and the two
infinities. Every operation computes its exact result as a quotient of natural
numbers and rounds it once, to nearest and halves to even.
-/

namespace UtilityCss

/-- A number of the double format: `± significand * 2 ^ exponent`, or infinite. -/
inductive Binary64 where
  | finite (negative : Bool) (significand : Nat) (exponent : Int)
  | infinite (negative : Bool)
  deriving DecidableEq

namespace Binary64

open Number

/-- The least exponent. -/
def leastExponent : Int := -1074

/-- The greatest exponent. -/
def greatestExponent : Int := 971

/-- The exponent at which `num / den` has 53 binary digits, or the least one. -/
def exponentOf (num den : Nat) : Int :=
  let order : Int := (num.log2 : Int) - (den.log2 : Int)
  let order := if atLeastPower 2 num den order then order else order - 1
  max (order - 52) leastExponent

/-- The number nearest to `± num / den`. -/
def ofRatio (negative : Bool) (num den : Nat) : Binary64 :=
  if num = 0 then .finite negative 0 leastExponent
  else
    let exponent := exponentOf num den
    let significand := roundScaled 2 num den exponent
    let (significand, exponent) :=
      if significand = Nat.pow 2 53 then (Nat.pow 2 52, exponent + 1) else (significand, exponent)
    if greatestExponent < exponent then .infinite negative
    else .finite negative significand exponent

/-- The number nearest to `digits / 10 ^ places`. -/
def ofDecimal (digits places : Nat) : Binary64 := ofRatio false digits (Nat.pow 10 places)

/-- The magnitude of a finite number as a quotient. -/
def ratio (significand : Nat) : Int → Nat × Nat
  | .ofNat k => (significand * Nat.pow 2 k, 1)
  | .negSucc k => (significand, Nat.pow 2 (k + 1))

/-- The number as a signed quotient; an infinity has none. -/
def ratio? : Binary64 → Option (Int × Nat)
  | .finite negative significand exponent =>
      let (num, den) := ratio significand exponent
      some (if negative then -(num : Int) else num, den)
  | .infinite _ => none

/-- Whether a number is zero. -/
def isZero : Binary64 → Bool
  | .finite _ significand _ => significand == 0
  | .infinite _ => false

/-- Whether a number is negative; zero may be. -/
def isNegative : Binary64 → Bool
  | .finite negative _ _ => negative
  | .infinite negative => negative

/-- The order of the real numbers, with the infinities at its ends. -/
def lt (x y : Binary64) : Bool :=
  match x.ratio?, y.ratio? with
  | some (a, b), some (c, d) => a * d < c * b
  | some _, none => !y.isNegative
  | none, some _ => x.isNegative
  | none, none => x.isNegative && !y.isNegative

/-- The correctly rounded product of `x` with `num / den`. -/
def scale (x : Binary64) (num den : Nat) : Binary64 :=
  match x with
  | .finite negative significand exponent =>
      let (a, b) := ratio significand exponent
      ofRatio negative (a * num) (b * den)
  | .infinite negative => .infinite negative

/-- The correctly rounded difference. An infinite minuend stays as it is. -/
def sub (x y : Binary64) : Binary64 :=
  match x.ratio?, y.ratio? with
  | some (a, b), some (c, d) =>
      let num := a * d - c * b
      ofRatio (num < 0) num.natAbs (b * d)
  | none, _ => x
  | some _, none => .infinite (!y.isNegative)

/-- The quotient of two natural numbers, if it is in range. -/
def quotient? (num den : Nat) : Option Binary64 :=
  match ofRatio false num den with
  | .infinite _ => none
  | x => some x

/-- Round the exact value to a number of decimal places, then to the format. -/
def roundPlaces (places : Nat) : Binary64 → Binary64
  | .finite negative significand exponent =>
      let (num, den) := ratio significand exponent
      ofRatio negative (roundHalfEven (num * Nat.pow 10 places) den) (Nat.pow 10 places)
  | .infinite negative => .infinite negative

def zero : Binary64 := .finite false 0 leastExponent

def one : Binary64 := ofRatio false 1 1

/-- The 64 bits of the interchange encoding, as a number. -/
def bits : Binary64 → Nat
  | .finite negative significand exponent =>
      let sign := if negative then Nat.pow 2 63 else 0
      if significand < Nat.pow 2 52 then sign + significand
      else sign + (exponent + 1075).toNat * Nat.pow 2 52 + (significand - Nat.pow 2 52)
  | .infinite negative => (if negative then Nat.pow 2 63 else 0) + 2047 * Nat.pow 2 52

end Binary64

end UtilityCss
