import Calculator.Binary64.Basic

/-!
# Rounding to the nearest number

`roundDiv` divides natural numbers and rounds the quotient to the nearest integer, a half to the
even neighbour.  `Binary64.ofRatio` applies it once, at the scale that leaves 53 bits, and so gives
the nearest floating-point number to a ratio of quanta, an infinity from half a step above the
greatest finite number on.  `Binary64.ofDecimal` does the same for a decimal number.
-/

namespace Calculator

/-- The integer nearest to `numerator / denominator`, a half going to the even neighbour. -/
def roundDiv (numerator denominator : Nat) : Nat :=
  let quotient := numerator / denominator
  let rest := numerator % denominator
  if 2 * rest < denominator ∨ (2 * rest = denominator ∧ quotient % 2 = 0) then
    quotient
  else
    quotient + 1

namespace Binary64

/-- The number of `significand * 2 ^ scale` quanta, an infinity if that exceeds the format. -/
def ofQuanta (negative : Bool) (significand scale : Nat) : Binary64 :=
  if canonical : Canonical significand scale then
    .finite negative significand scale canonical
  else
    .infinity negative

/-- The nearest number to `numerator / denominator` quanta, a tie going to the even significand. -/
def ofRatio (negative : Bool) (numerator denominator : Nat) : Binary64 :=
  let scale := (numerator / denominator).log2 - 52
  let significand := roundDiv numerator (denominator * Nat.pow 2 scale)
  if significand = 0x20000000000000 then
    ofQuanta negative 0x10000000000000 (scale + 1)
  else
    ofQuanta negative significand scale

/-- The nearest number to `digits * 10 ^ exponent` units. -/
def ofDecimal (negative : Bool) (digits : Nat) (exponent : Int) : Binary64 :=
  if 0 ≤ exponent then
    ofRatio negative (digits * Nat.pow 10 exponent.toNat * quantaPerUnit) 1
  else
    ofRatio negative (digits * quantaPerUnit) (Nat.pow 10 (-exponent).toNat)

end Binary64

end Calculator
