/-!
# Binary64 numbers

A `Binary64` is a binary floating-point number of double precision, given by what it denotes: not a
number, an infinity with a sign, or a signed number of *quanta*.  The quantum is `2 ^ (-1074)`, the
least positive number of the format, and every finite number is `significand * 2 ^ scale` quanta.
`Canonical` admits exactly one significand and scale for each such number, so equality of two
`Binary64` is equality of what they denote, the sign of zero included.

`ofBits` and `toBits` read and write the interchange format.
-/

namespace Calculator

/-- The one admitted form of a number: a significand of at most 53 bits at a scale of the format,
and all 53 of them in use unless the scale is the least. -/
def Canonical (significand scale : Nat) : Prop :=
  significand < 0x20000000000000 ∧ scale ≤ 2045 ∧ (0x10000000000000 ≤ significand ∨ scale = 0)

instance (significand scale : Nat) : Decidable (Canonical significand scale) :=
  inferInstanceAs (Decidable (_ ∧ _ ∧ _))

/-- A floating-point number of double precision. -/
inductive Binary64 where
  /-- Not a number. -/
  | nan
  /-- Beyond every finite number. -/
  | infinity (negative : Bool)
  /-- A signed number of `significand * 2 ^ scale` quanta. -/
  | finite (negative : Bool) (significand scale : Nat) (canonical : Canonical significand scale)
deriving DecidableEq

namespace Binary64

/-! ### Parts of a number -/

/-- The sign bit, which zeros and infinities carry as well. -/
def isNegative : Binary64 → Bool
  | nan => false
  | infinity negative => negative
  | finite negative _ _ _ => negative

/-- The number of quanta of a finite number, without its sign. -/
def quanta : Binary64 → Nat
  | nan => 0
  | infinity _ => 0
  | finite _ significand scale _ => significand * Nat.pow 2 scale

/-- The number of quanta in one unit. -/
def quantaPerUnit : Nat := Nat.pow 2 1074

/-- Zero with a sign. -/
def zero (negative : Bool) : Binary64 := .finite negative 0 0 (by decide)

/-- The number with the other sign; not a number has none. -/
def neg : Binary64 → Binary64
  | nan => nan
  | infinity negative => infinity (!negative)
  | finite negative significand scale canonical => finite (!negative) significand scale canonical

@[simp] theorem neg_neg (x : Binary64) : x.neg.neg = x := by
  cases x <;> simp [neg]

/-- Neither an infinity nor not a number. -/
def isFinite : Binary64 → Bool
  | finite .. => true
  | _ => false

/-! ### The interchange format -/

/-- The number that a word of the interchange format stands for.  From the top: the sign, eleven
bits of exponent, 52 bits of fraction. -/
def ofBits (word : UInt64) : Binary64 :=
  let negative := decide (0x8000000000000000 ≤ word.toNat)
  let exponent := word.toNat / 0x10000000000000 % 2048
  let fraction := word.toNat % 0x10000000000000
  if h : exponent = 0 then
    .finite negative fraction 0 ⟨by omega, by omega, by omega⟩
  else if h' : exponent = 2047 then
    if fraction = 0 then .infinity negative else .nan
  else
    .finite negative (0x10000000000000 + fraction) (exponent - 1) ⟨by omega, by omega, by omega⟩

/-- The word of the interchange format for a number; not a number has the quiet word without a
payload. -/
def toBits : Binary64 → UInt64
  | nan => 0x7FF8000000000000
  | infinity negative => signBit negative ||| 0x7FF0000000000000
  | finite negative significand scale _ =>
    signBit negative ||| UInt64.ofNat (scale * 0x10000000000000 + significand)
where
  signBit (negative : Bool) : UInt64 := if negative then 0x8000000000000000 else 0

end Binary64

end Calculator
