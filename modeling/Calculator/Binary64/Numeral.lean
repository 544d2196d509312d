import Calculator.Binary64.Rounding
import Calculator.Text.Blank
import Calculator.Text.DecimalDigit

/-!
# Reading written numbers

`Binary64.ofText?` reads a number as people write it: blanks around it, a sign, decimal digits of
any script with at most one point among them, and an exponent; or an infinity or not a number by
name, in any case.  Single underscores may separate the digits of one run.  The digits are read
exactly and rounded once (`Numeral.value`).
-/

namespace Calculator

/-- A number in decimal notation: all its digits, how many of them stand behind the point, and the
exponent of ten that follows. -/
structure Numeral where
  /-- The digits before and behind the point, in order. -/
  digits : List Nat
  /-- How many of the digits stand behind the point. -/
  places : Nat
  /-- The written exponent of ten, zero if there is none. -/
  exponent : Int

namespace Numeral

/-! ### Runs of digits -/

/-- The values of the digits of a run; `afterDigit` says whether the character before was one, as
an underscore must stand between two digits. -/
def digitRun? (afterDigit : Bool) : Text → Option (List Nat)
  | [] => if afterDigit then some [] else none
  | c :: rest =>
    match decimalDigit? c with
    | some d => (digitRun? true rest).map (d :: ·)
    | none => if c = '_' ∧ afterDigit then digitRun? false rest else none

/-- The values of the digits of a run that may be empty. -/
def digits? (s : Text) : Option (List Nat) :=
  if s.isEmpty then some [] else digitRun? false s

/-! ### The parts of a numeral -/

/-- Splits off a leading sign and says whether it was a minus. -/
def splitSign : Text → Bool × Text
  | '-' :: rest => (true, rest)
  | '+' :: rest => (false, rest)
  | s => (false, s)

/-- An exponent: a sign and at least one digit. -/
def exponent? (s : Text) : Option Int :=
  let (negative, run) := splitSign s
  (digitRun? false run).map fun digits =>
    if negative then -(digitsValue digits : Int) else digitsValue digits

/-- A mantissa, its digits and the number of places: at least one digit, at most one point. -/
def mantissa? (s : Text) : Option (List Nat × Nat) :=
  match Text.splitFirst? (· = '.') s with
  | none => (digitRun? false s).map fun digits => (digits, 0)
  | some (before, behind) => do
    let whole ← digits? before
    let fraction ← digits? behind
    if whole.isEmpty && fraction.isEmpty then none
    else some (whole ++ fraction, fraction.length)

/-- A numeral without a sign. -/
def ofText? (s : Text) : Option Numeral :=
  match Text.splitFirst? (fun c => c = 'e' ∨ c = 'E') s with
  | none => (mantissa? s).map fun (digits, places) => ⟨digits, places, 0⟩
  | some (before, behind) => do
    let (digits, places) ← mantissa? before
    let exponent ← exponent? behind
    some ⟨digits, places, exponent⟩

/-! ### The value of a numeral -/

/-- The exponent, brought so near to zero that its power of ten can be computed.  Beyond these
bounds every numeral with as many digits is out of the format's range already. -/
def boundedExponent (n : Numeral) : Int :=
  let bound : Int := 400 + n.digits.length
  max (-bound) (min bound n.exponent)

/-- The number nearest to a numeral. -/
def value (n : Numeral) (negative : Bool) : Binary64 :=
  .ofDecimal negative (digitsValue n.digits) (n.boundedExponent - n.places)

end Numeral

/-- The number that an unsigned word names, in any case of its letters. -/
def Binary64.named? (negative : Bool) (word : Text) : Option Binary64 :=
  let word := word.map Char.toLower
  if word = "inf".toList ∨ word = "infinity".toList then some (.infinity negative)
  else if word = "nan".toList then some .nan
  else none

/-- The number that a text stands for, blanks around it aside. -/
def Binary64.ofText? (s : Text) : Option Binary64 :=
  let (negative, body) := Numeral.splitSign (s.trim isNumberPadding)
  match named? negative body with
  | some x => some x
  | none => (Numeral.ofText? body).map fun n => n.value negative

/-- The integer that a text stands for, blanks around it aside: a sign and digits, with single
underscores among them.  A text of more than 4300 digits is refused. -/
def integerOfText? (s : Text) : Option Int :=
  let (negative, run) := Numeral.splitSign (s.trim isNumberPadding)
  match Numeral.digitRun? false run with
  | none => none
  | some digits =>
    if digits.length > 4300 then none
    else some (if negative then -(digitsValue digits : Int) else digitsValue digits)

end Calculator
