import Calculator.Binary64.Arithmetic
import Calculator.Binary64.Numeral
import Calculator.Note
import Calculator.Settings
import Calculator.Traced

/-!
# Evaluation of postfix order

`evaluatePostfix` reads tokens in postfix order with a stack of values: a number is put on the
stack, an operator takes its operands off and puts its result back.  An operand that is not there is
made up, parentheses are ignored, and of the values left at the end the top one is the answer; each
of these leaves a note.
-/

namespace Calculator

/-- What an operator kind computes from one operand. -/
def OperatorKind.unary? : OperatorKind → Option (Binary64 → Binary64)
  | .neg => some .neg
  | .sqrt => some .sqrt
  | _ => none

/-- What an operator kind computes from two operands. -/
def OperatorKind.binary? : OperatorKind → Option (Binary64 → Binary64 → Binary64)
  | .add => some .add
  | .sub => some .sub
  | .mul => some .mul
  | .div => some .div
  | .pow => some .pow
  | .percent => some .percent
  | .neg | .sqrt => none

namespace Evaluation

/-- The values computed so far and not yet used, the latest first. -/
abbrev Stack := List Binary64

/-- The value of a written number. -/
def readNumber (literal : Text) : Except Failure Binary64 :=
  match Binary64.ofText? literal with
  | some x => .ok x
  | none => .error (.malformedNumber literal)

/-- The value of a number, which must have been written. -/
def valueOf (n : Number) : Except Failure Binary64 :=
  match n.literal with
  | some literal => readNumber literal
  | none => .error .unwrittenNumber

/-- The operation that a kind stands for, looked up among those of its number of operands. -/
def operation {α : Type} (find : OperatorKind → Option α) (kind : Option OperatorKind) :
    Except Failure α :=
  match kind.bind find with
  | some f => .ok f
  | none => .error (.unsupportedKind kind)

/-- Takes the top value off the stack for an operator, and makes up `missing` if there is none. -/
def pop (missing : Binary64) (operator : Text) : Stack → Traced Note (Binary64 × Stack)
  | [] => do
    .record (.missingOperand operator)
    return (missing, [])
  | x :: rest => return (x, rest)

/-- What one token does to the stack. -/
def step (missing : Binary64) (stack : Stack) : Token → Traced Note Stack
  | .number n => do
    let x ← .ofExcept (valueOf n)
    return x :: stack
  | .operator op =>
    if op.arity = 1 then do
      let (x, rest) ← pop missing op.name stack
      let f ← .ofExcept (operation OperatorKind.unary? op.kind)
      return f x :: rest
    else if op.arity = 2 then do
      let (y, rest) ← pop missing op.name stack
      let (x, rest) ← pop missing op.name rest
      let f ← .ofExcept (operation OperatorKind.binary? op.kind)
      return f x y :: rest
    else
      .fail (.unexpectedArity op.arity op.name)
  | .leftParen p | .rightParen p => do
    .record (.ignoredParen p.name)
    return stack

/-- What some tokens do to the stack, one after another. -/
def run (missing : Binary64) : List Token → Stack → Traced Note Stack
  | [], stack => return stack
  | t :: rest, stack => do
    let stack ← step missing stack t
    run missing rest stack

/-- The answer that a final stack holds. -/
def answer (emptyResult : Binary64) (tokens : List Token) : Stack → Traced Note Binary64
  | [] => return emptyResult
  | x :: rest => do
    if !rest.isEmpty then .record (.leftoverValues (rest.length + 1) tokens)
    return x

end Evaluation

/-- The value of tokens in postfix order. -/
def evaluatePostfix (s : Settings) (tokens : List Token) : Traced Note Binary64 := do
  let stack ← Evaluation.run s.missingOperand tokens []
  Evaluation.answer s.emptyResult tokens stack

end Calculator
