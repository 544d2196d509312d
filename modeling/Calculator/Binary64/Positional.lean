import Calculator.Binary64.Shortest
import Calculator.Text.Basic

/-!
# Positional notation

`Decimal.toText` writes a decimal without an exponent: a minus sign where there is one, the whole
part without leading zeros, and the fraction without trailing zeros, behind a point that is left out
together with an empty fraction.
-/

namespace Calculator.Decimal

/-- The whole part of the absolute value. -/
def whole (d : Decimal) : Nat :=
  if 0 ≤ d.exponent then d.digits * Nat.pow 10 d.exponent.toNat
  else d.digits / Nat.pow 10 (-d.exponent).toNat

/-- The digits behind the point, one for each decimal place of the grid. -/
def fraction (d : Decimal) : Text :=
  if 0 ≤ d.exponent then []
  else
    let places := (-d.exponent).toNat
    let digits := Text.ofNat (d.digits % Nat.pow 10 places)
    List.replicate (places - digits.length) '0' ++ digits

/-- The sign, the whole part and what is left of the fraction once trailing zeros are gone. -/
def toText (d : Decimal) : Text :=
  let sign : Text := if d.negative then ['-'] else []
  let fraction := d.fraction.trimEnd (· = '0')
  sign ++ Text.ofNat d.whole ++ (if fraction.isEmpty then [] else '.' :: fraction)

end Calculator.Decimal
