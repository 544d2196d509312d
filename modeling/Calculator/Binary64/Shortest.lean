import Calculator.Binary64.Rounding

/-!
# The decimal that stands for a number

Among the decimals that read back as a given number, the shortest lie on the coarsest grid of
multiples of a power of ten that meets them.  `Binary64.shortest?` walks the grids from coarse to
fine, from the power of ten above the number on, and asks on each only for the two neighbours of the
number, since a grid that holds any decimal that reads back also holds one of these (`gridHit?`).
`Binary64.toDecimal` cuts the walk after a number of decimal places and then takes the nearest
multiple of the last grid.
-/

namespace Calculator

/-- A decimal number: `digits * 10 ^ exponent` with a sign. -/
structure Decimal where
  /-- The sign, which zero carries as well. -/
  negative : Bool
  /-- The multiple of the grid. -/
  digits : Nat
  /-- The grid: which power of ten is counted. -/
  exponent : Int
deriving DecidableEq

/-- The nearest number to a decimal. -/
def Decimal.toBinary64 (d : Decimal) : Binary64 := .ofDecimal d.negative d.digits d.exponent

namespace Binary64

/-- A number of quanta as a ratio, in steps of `10 ^ exponent` units. -/
def stepsRatio (quanta : Nat) (exponent : Int) : Nat × Nat :=
  if 0 ≤ exponent then
    (quanta, Nat.pow 10 exponent.toNat * quantaPerUnit)
  else
    (quanta * Nat.pow 10 (-exponent).toNat, quantaPerUnit)

/-- The multiple of `10 ^ exponent` that stands for `x`: of its two neighbours the one that reads
back as `x`, and of two that do the nearer, a tie going to the even one. -/
def gridHit? (x : Binary64) (exponent : Int) : Option Nat :=
  let (numerator, denominator) := stepsRatio x.quanta exponent
  let below := numerator / denominator
  let readsBack (digits : Nat) : Bool := ofDecimal x.isNegative digits exponent = x
  match readsBack below, readsBack (below + 1) with
  | true, true => some (roundDiv numerator denominator)
  | true, false => some below
  | false, true => some (below + 1)
  | false, false => none

/-- The first hit on `grids` grids, of which `exponent` is the coarsest. -/
def shortest? (x : Binary64) : (grids : Nat) → (exponent : Int) → Option Decimal
  | 0, _ => none
  | grids + 1, exponent =>
    match gridHit? x exponent with
    | some digits => some ⟨x.isNegative, digits, exponent⟩
    | none => shortest? x grids (exponent - 1)

/-- The exponent of a power of ten above the number.  On its grid, and on every coarser one, the
neighbours of the number are zero and one step. -/
def topExponent (x : Binary64) : Nat := (Nat.toDigits 10 (x.quanta / quantaPerUnit)).length

/-- The decimal of at most `places` decimal places that stands for a finite number: the shortest
that reads back if there is one, and else the nearest, a tie going to the even last digit. -/
def toDecimal (x : Binary64) (places : Nat) : Decimal :=
  match shortest? x (x.topExponent + 1 + places) x.topExponent with
  | some d => d
  | none =>
    let (numerator, denominator) := stepsRatio x.quanta (-(places : Int))
    ⟨x.isNegative, roundDiv numerator denominator, -(places : Int)⟩

end Binary64

end Calculator
