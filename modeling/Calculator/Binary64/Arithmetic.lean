import Calculator.Binary64.Basic

/-!
# Arithmetic

Sums, differences, products, quotients, powers and square roots of floating-point numbers, each
rounded as the machine's own double-precision arithmetic rounds it.  No operation fails: a division
by zero gives an infinity, and an operation without a value gives not a number.
-/

namespace Calculator.Binary64

/-- The machine's number. -/
def toFloat (x : Binary64) : Float := Float.ofBits x.toBits

/-- What a number of the machine denotes. -/
def ofFloat (x : Float) : Binary64 := ofBits x.toBits

/-- The sum. -/
def add (x y : Binary64) : Binary64 := ofFloat (x.toFloat + y.toFloat)

/-- The difference. -/
def sub (x y : Binary64) : Binary64 := ofFloat (x.toFloat - y.toFloat)

/-- The product. -/
def mul (x y : Binary64) : Binary64 := ofFloat (x.toFloat * y.toFloat)

/-- The quotient. -/
def div (x y : Binary64) : Binary64 := ofFloat (x.toFloat / y.toFloat)

/-- The square root; a negative number has none. -/
def sqrt (x : Binary64) : Binary64 := ofFloat x.toFloat.sqrt

/-! ### Powers -/

/-- One half. -/
def half : Binary64 := .finite false 0x10000000000000 1021 (by decide)

/-- One. -/
def one : Binary64 := .finite false 0x10000000000000 1022 (by decide)

/-- Two. -/
def two : Binary64 := .finite false 0x10000000000000 1023 (by decide)

/-- The power.  The exponents minus one, zero, one half, one and two stand for the reciprocal, one,
the square root, the base itself and the square, infinities and the sign of zero included; other
powers of a negative base need a whole exponent. -/
def pow (x y : Binary64) : Binary64 :=
  if y = one.neg then one.div x
  else if y = zero false ∨ y = zero true then one
  else if y = half then x.sqrt
  else if y = one then x
  else if y = two then x.mul x
  else ofFloat (Float.pow x.toFloat y.toFloat)

/-! ### Percentages -/

/-- One hundred. -/
def hundred : Binary64 := .finite false 0x19000000000000 1028 (by decide)

/-- The part of `x` that `y` percent are. -/
def percent (x y : Binary64) : Binary64 := x.mul (y.div hundred)

end Calculator.Binary64
