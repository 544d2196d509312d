import Calculator.Text.DecimalDigit
import Calculator.Token.Basic

/-!
# Lexemes

`Lexeme.scan` cuts a text into lexemes from left to right, and leaves out nothing: a maximal run of
digits and points is a number, the character of an operator or a parenthesis is that token, and any
other character is skipped, which is a lexeme as well.  A minus sign is a negation where an operand
is due, that is at the start, behind an operator and behind an opening parenthesis, and a
subtraction elsewhere; skipped characters do not count.

`tokenize` keeps the tokens among the lexemes.
-/

namespace Calculator

/-- A decimal digit of any script or a point, of which numbers are made. -/
def isNumberChar (c : Char) : Bool := isDecimalDigit c || c == '.'

/-- The token of a character that stands for itself, where no operand is due. -/
def symbolToken? (c : Char) : Option Token :=
  match c with
  | '+' => some (.ofKind .add)
  | '-' => some (.ofKind .sub)
  | '*' => some (.ofKind .mul)
  | '/' => some (.ofKind .div)
  | '^' => some (.ofKind .pow)
  | '%' => some (.ofKind .percent)
  | '√' => some (.ofKind .sqrt)
  | '(' => some .openParen
  | ')' => some .closeParen
  | _ => none

/-- The token of a character that stands for itself; a minus sign depends on what is due. -/
def charToken? (operandDue : Bool) (c : Char) : Option Token :=
  if c = '-' ∧ operandDue then some (.ofKind .neg) else symbolToken? c

/-- An operand is due behind an operator and behind an opening parenthesis. -/
def Token.awaitsOperand : Token → Bool
  | .operator _ | .leftParen _ => true
  | .number _ | .rightParen _ => false

/-- A piece of a text, with the index at which it starts. -/
inductive Lexeme where
  /-- A run of digits and points. -/
  | number (index : Nat) (literal : Text)
  /-- A character that stands for a token. -/
  | symbol (index : Nat) (token : Token)
  /-- A character that is not part of any token. -/
  | skipped (index : Nat) (char : Char)
deriving DecidableEq

namespace Lexeme

/-- Puts one character of a number before the lexemes that follow it: the number that starts right
behind it grows, and if there is none the character is a number of its own. -/
def consNumberChar (index : Nat) (c : Char) : List Lexeme → List Lexeme
  | .number next literal :: rest =>
    if next = index + 1 then .number index (c :: literal) :: rest
    else .number index [c] :: .number next literal :: rest
  | rest => .number index [c] :: rest

/-- The lexemes of a text whose first character has the given index. -/
def scan (operandDue : Bool) (index : Nat) : Text → List Lexeme
  | [] => []
  | c :: rest =>
    if isNumberChar c then
      consNumberChar index c (scan false (index + 1) rest)
    else
      match charToken? operandDue c with
      | some t => .symbol index t :: scan t.awaitsOperand (index + 1) rest
      | none => .skipped index c :: scan operandDue (index + 1) rest

/-- The token of a lexeme that is one. -/
def token? : Lexeme → Option Token
  | number _ literal => some (.ofLiteral literal)
  | symbol _ t => some t
  | skipped _ _ => none

end Lexeme

/-- The lexemes of a whole text. -/
def lexemes (s : Text) : List Lexeme := Lexeme.scan true 0 s

/-- The tokens of a text. -/
def tokenize (s : Text) : List Token := (lexemes s).filterMap Lexeme.token?

end Calculator
