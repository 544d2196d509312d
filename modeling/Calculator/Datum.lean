import Calculator.Binary64.Shortest
import Calculator.Failure
import Calculator.Text.Quoted

/-!
# Data

What a caller hands over need not be text.  A `Datum` is any value a caller can write down: nothing,
a truth value, a number, a text, a list or a record.  `Datum.typeName` names its type,
`Datum.isVoid` says whether it counts as absent, and `Datum.description` writes it down again.
-/

namespace Calculator

/-- Any value that a caller can write down. -/
inductive Datum where
  /-- Nothing. -/
  | null
  /-- A truth value. -/
  | truth (b : Bool)
  /-- An integer. -/
  | integer (n : Int)
  /-- A number with a fraction or an exponent. -/
  | real (x : Binary64)
  /-- A text. -/
  | text (s : Text)
  /-- A list. -/
  | list (items : List Datum)
  /-- A record, its fields in the order in which they were written. -/
  | record (fields : List (Text × Datum))

namespace Datum

/-- The name of the type of a value. -/
def typeName : Datum → Text
  | null => "NoneType".toList
  | truth _ => "bool".toList
  | integer _ => "int".toList
  | real _ => "float".toList
  | text _ => "str".toList
  | list _ => "list".toList
  | record _ => "dict".toList

/-- The value counts as absent: nothing, false, zero, and whatever has no content. -/
def isVoid : Datum → Bool
  | null => true
  | truth b => !b
  | integer n => n == 0
  | real x => x.isFinite && x.quanta == 0
  | text s => s.isEmpty
  | list items => items.isEmpty
  | record fields => fields.isEmpty

/-- The value of a field of a record, nothing where there is no such field. -/
def field (d : Datum) (name : Text) : Datum :=
  match d with
  | record fields => (fields.lookup name).getD null
  | _ => null

/-! ### Data in writing -/

/-- The decimal places of the finest grid that a number may need. -/
def finestPlaces : Nat := 1074

/-- A number with the fewest digits that read back as it: positional from `0.0001` up to below
`10 ^ 16`, always with a fraction, and with an exponent of at least two digits elsewhere. -/
def realDescription : Binary64 → Text
  | .nan => "nan".toList
  | .infinity negative => if negative then "-inf".toList else "inf".toList
  | .finite negative m e h =>
    let d := (Binary64.finite negative m e h).toDecimal finestPlaces
    let digits := Text.ofNat d.digits
    let point : Int := if d.digits = 0 then 1 else digits.length + d.exponent
    let sign : Text := if negative then ['-'] else []
    if -4 < point ∧ point ≤ 16 then
      if point ≤ 0 then
        sign ++ ['0', '.'] ++ List.replicate (-point).toNat '0' ++ digits
      else if digits.length ≤ point.toNat then
        sign ++ digits ++ List.replicate (point.toNat - digits.length) '0' ++ ['.', '0']
      else
        sign ++ digits.take point.toNat ++ ['.'] ++ digits.drop point.toNat
    else
      let exponent := point - 1
      let exponentDigits := Text.ofNat exponent.natAbs
      sign ++ digits.take 1 ++ (if digits.length ≤ 1 then [] else '.' :: digits.drop 1) ++ ['e'] ++
        [if exponent < 0 then '-' else '+'] ++ List.replicate (2 - exponentDigits.length) '0' ++
        exponentDigits

mutual

/-- The value as it is written down. -/
def description : Datum → Text
  | null => "None".toList
  | truth b => if b then "True".toList else "False".toList
  | integer n => Text.ofInt n
  | real x => realDescription x
  | text s => s.quoted
  | list items => ['['] ++ listDescription items ++ [']']
  | record fields => ['\x7b'] ++ fieldsDescription fields ++ ['\x7d']

/-- The values of a list as they are written down. -/
def listDescription : List Datum → Text
  | [] => []
  | d :: rest =>
    description d ++ (if rest.isEmpty then [] else ", ".toList) ++ listDescription rest

/-- The fields of a record as they are written down. -/
def fieldsDescription : List (Text × Datum) → Text
  | [] => []
  | (name, d) :: rest =>
    name.quoted ++ ": ".toList ++ description d ++ (if rest.isEmpty then [] else ", ".toList) ++
      fieldsDescription rest

end

/-! ### Where text is due -/

/-- The text of an expression; no other value will do. -/
def expression : Datum → Except Failure Text
  | text s => .ok s
  | d => .error (.expressionNotText d.typeName)

/-- The text to be appended; no other value will do. -/
def appendix : Datum → Except Failure Text
  | text s => .ok s
  | d => .error (.appendedNotText d.typeName)

end Datum

end Calculator
