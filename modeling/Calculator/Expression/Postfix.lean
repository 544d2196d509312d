import Calculator.Note

/-!
# Postfix order

`arrange` brings tokens from infix into postfix order, where every operator follows its operands and
no parentheses are needed.  An operator waits until its operands are through: a binary operator
releases those that bind at least as tightly and were waiting before it in the same group, an
operator that stands before its operand releases none, and the end of a group releases all that
wait in it.

Unbalanced parentheses are put up with.  An end without a start releases what waits outside every
group, a start without an end is dropped at the end of the input, and each leaves a note.
-/

namespace Calculator

/-- Tokens in postfix order, and the notes taken while they were arranged. -/
structure Arrangement where
  /-- The numbers and operators in postfix order. -/
  tokens : List Token
  /-- Notes on parentheses without a partner. -/
  notes : List Note

namespace Arrangement

/-- The arrangement with more tokens at its front. -/
def prepend (tokens : List Token) (rest : Arrangement) : Arrangement :=
  { rest with tokens := tokens ++ rest.tokens }

/-- The arrangement with one more note at its front. -/
def notedFirst (note : Note) (rest : Arrangement) : Arrangement :=
  { rest with notes := note :: rest.notes }

@[simp] theorem tokens_prepend (tokens : List Token) (rest : Arrangement) :
    (rest.prepend tokens).tokens = tokens ++ rest.tokens := rfl

@[simp] theorem notes_prepend (tokens : List Token) (rest : Arrangement) :
    (rest.prepend tokens).notes = rest.notes := rfl

@[simp] theorem tokens_notedFirst (note : Note) (rest : Arrangement) :
    (rest.notedFirst note).tokens = rest.tokens := rfl

@[simp] theorem notes_notedFirst (note : Note) (rest : Arrangement) :
    (rest.notedFirst note).notes = note :: rest.notes := rfl

end Arrangement

/-- Waiting operators, as tokens. -/
def released (waiting : List Operator) : List Token := waiting.map .operator

/-- A waiting operator binds at least as tightly as `op`. -/
def bindsBefore (op waiting : Operator) : Bool := decide (op.precedence ≤ waiting.precedence)

/-- Arranges the tokens that are left, where `waiting` are the operators waiting in the innermost
open group and `enclosing` those in each group around it, the latest first. -/
def arrangeFrom : List Token → (waiting : List Operator) → (enclosing : List (List Operator)) →
    Arrangement
  | [], waiting, enclosing =>
    ⟨released (waiting ++ enclosing.flatten), enclosing.map fun _ => .unmatchedOpen⟩
  | .number n :: rest, waiting, enclosing =>
    (arrangeFrom rest waiting enclosing).prepend [.number n]
  | .leftParen _ :: rest, waiting, enclosing =>
    arrangeFrom rest [] (waiting :: enclosing)
  | .rightParen _ :: rest, waiting, [] =>
    ((arrangeFrom rest [] []).notedFirst .unmatchedClose).prepend (released waiting)
  | .rightParen _ :: rest, waiting, outer :: enclosing =>
    (arrangeFrom rest outer enclosing).prepend (released waiting)
  | .operator op :: rest, waiting, enclosing =>
    if op.isPrefixed then
      arrangeFrom rest (op :: waiting) enclosing
    else
      (arrangeFrom rest (op :: waiting.dropWhile (bindsBefore op)) enclosing).prepend
        (released (waiting.takeWhile (bindsBefore op)))

/-- Brings tokens into postfix order. -/
def arrange (tokens : List Token) : Arrangement := arrangeFrom tokens [] []

end Calculator
