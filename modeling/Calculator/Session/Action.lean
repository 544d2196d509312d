import Calculator.Datum

/-!
# Actions of a user

An action is what a key of the calculator stands for.  The keys of numbers and operators carry the
text they append, and cannot do without; on any other key a text means nothing.
-/

namespace Calculator

/-- The keys of a calculator. -/
inductive Key where
  | number
  | operator
  | clear
  | delete
  | calculate
  | toggleHistory
  | clearHistory
  /-- A key that no session knows, named after a kind of operator. -/
  | foreign (kind : OperatorKind)
deriving DecidableEq

namespace Key

/-- The name of a key. -/
def name : Key → Text
  | number => "NUMBER".toList
  | operator => "OPERATOR".toList
  | clear => "CLEAR".toList
  | delete => "DELETE".toList
  | calculate => "CALCULATE".toList
  | toggleHistory => "TOGGLE_HISTORY".toList
  | clearHistory => "CLEAR_HISTORY".toList
  | foreign kind => kind.name.map Char.toUpper

/-- Every key. -/
def all : List Key :=
  [number, operator, clear, delete, calculate, toggleHistory, clearHistory] ++
    OperatorKind.all.map foreign

/-- The key of a name. -/
def ofName? (name : Text) : Option Key := all.find? fun key => key.name == name

/-- The key appends the text that comes with it. -/
def appends : Key → Bool
  | number | operator => true
  | _ => false

end Key

/-- A key with what came with it. -/
structure Action where
  /-- The key. -/
  key : Key
  /-- What came with it. -/
  payload : Datum

namespace Action

/-- The action of a key with what came with it; a key that appends needs something to append. -/
def ofKey (key : Key) (payload : Datum) : Except Failure Action :=
  if key.appends && payload.isVoid then .error (.actionWithoutText key.name)
  else .ok ⟨key, payload⟩

/-- The action as a description of itself. -/
def description (a : Action) : Text :=
  match a.payload with
  | .null => "CalculatorAction(".toList ++ a.key.name ++ [')']
  | payload =>
    "CalculatorAction(".toList ++ a.key.name ++ ", ".toList ++ payload.description ++ [')']

end Action

end Calculator
