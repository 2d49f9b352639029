/-!
# Rounding of quotients

The nearest natural number to a quotient, with halves going to the even
neighbour, and its decimal and binary scalings.
-/

namespace UtilityCss

namespace Number

/-- The natural number nearest to `num / den`; a half goes to the even neighbour. -/
def roundHalfEven (num den : Nat) : Nat :=
  let quotient := num / den
  let twice := 2 * (num % den)
  if twice < den then quotient
  else if den < twice then quotient + 1
  else if quotient % 2 = 0 then quotient
  else quotient + 1

/-- The natural number nearest to `num / (den * base ^ exponent)`. -/
def roundScaled (base num den : Nat) : Int → Nat
  | .ofNat k => roundHalfEven num (den * Nat.pow base k)
  | .negSucc k => roundHalfEven (num * Nat.pow base (k + 1)) den

/-- Whether `base ^ exponent ≤ num / den`. -/
def atLeastPower (base num den : Nat) : Int → Bool
  | .ofNat k => den * Nat.pow base k ≤ num
  | .negSucc k => den ≤ num * Nat.pow base (k + 1)

end Number

end UtilityCss
