import Calculator.Text.Quoted

/-!
# Tokens

An expression is a list of tokens: numbers, which keep their spelling until they are evaluated,
operators and parentheses.  An `Operator` states its own arity and precedence; the usual ones are
`Operator.standard`, but any other combination may be built.

Every token may carry a kind of operator and a text.  An operator computes by its kind and a number
has its spelling for a text; what else a token carries has no effect on an expression, but tells
tokens apart: two of them agree (`Token.agrees`) when they play the same part (`Token.role`) and
carry the same kind and text.  Names, arities and precedences play no part in that.
-/

namespace Calculator

/-- What an operator computes. -/
inductive OperatorKind where
  | add
  | sub
  | mul
  | div
  | pow
  | percent
  | sqrt
  | neg
deriving DecidableEq

namespace OperatorKind

/-- The name of a kind. -/
def name : OperatorKind → Text
  | add => "add".toList
  | sub => "sub".toList
  | mul => "mul".toList
  | div => "div".toList
  | pow => "pow".toList
  | percent => "percent".toList
  | sqrt => "sqrt".toList
  | neg => "neg".toList

/-- How a kind is shown among other tokens; unlike in an expression, negation and subtraction are
told apart. -/
def symbol : OperatorKind → Text
  | add => ['+']
  | sub => ['-']
  | mul => ['*']
  | div => ['/']
  | pow => ['^']
  | percent => ['%']
  | sqrt => ['√']
  | neg => "neg".toList

/-- Every kind. -/
def all : List OperatorKind := [add, sub, mul, div, pow, percent, sqrt, neg]

end OperatorKind

/-- A number as it takes part in an expression. -/
structure Number where
  /-- How it was written; a number that never was has no value. -/
  literal : Option Text
  /-- The kind of operator that it carries along. -/
  kind : Option OperatorKind
deriving DecidableEq

/-- An operator as it takes part in an expression. -/
structure Operator where
  /-- The name used in notes. -/
  name : Text
  /-- What it computes, if anything. -/
  kind : Option OperatorKind
  /-- How many operands it takes. -/
  arity : Int
  /-- The higher, the tighter it binds. -/
  precedence : Int
  /-- The text that it carries along. -/
  label : Option Text
deriving DecidableEq

/-- A parenthesis as it takes part in an expression. -/
structure Paren where
  /-- The name used in notes. -/
  name : Text
  /-- The kind of operator that it carries along. -/
  kind : Option OperatorKind
  /-- The text that it carries along. -/
  label : Option Text
deriving DecidableEq

namespace Operator

/-- An operator of one operand stands before it. -/
def isPrefixed (op : Operator) : Bool := op.arity == 1

/-- The usual operator of a kind: sums bind least, then products, then powers and the operators of
one operand. -/
def standard (kind : OperatorKind) : Operator :=
  match kind with
  | .add | .sub => ⟨kind.name, kind, 2, 1, none⟩
  | .mul | .div | .percent => ⟨kind.name, kind, 2, 2, none⟩
  | .pow => ⟨kind.name, kind, 2, 3, none⟩
  | .sqrt | .neg => ⟨kind.name, kind, 1, 3, none⟩

end Operator

/-- A part of an expression. -/
inductive Token where
  /-- A number. -/
  | number (n : Number)
  /-- An operator. -/
  | operator (op : Operator)
  /-- The start of a group. -/
  | leftParen (p : Paren)
  /-- The end of a group. -/
  | rightParen (p : Paren)
deriving DecidableEq

/-- The part that a token plays in an expression. -/
inductive Role where
  | number
  | operator
  | leftParen
  | rightParen
deriving DecidableEq

namespace Token

/-- The number of a spelling, as a token. -/
def ofLiteral (literal : Text) : Token := number ⟨literal, none⟩

/-- The usual operator of a kind, as a token. -/
def ofKind (kind : OperatorKind) : Token := operator (.standard kind)

/-- The usual start of a group. -/
def openParen : Token := leftParen ⟨['('], none, none⟩

/-- The usual end of a group. -/
def closeParen : Token := rightParen ⟨[')'], none, none⟩

/-- The part that a token plays in an expression. -/
def role : Token → Role
  | number _ => .number
  | operator _ => .operator
  | leftParen _ => .leftParen
  | rightParen _ => .rightParen

/-- An operator that stands before its only operand. -/
def isPrefixed : Token → Bool
  | operator op => op.isPrefixed
  | _ => false

/-- A parenthesis of either side. -/
def isParen : Token → Bool
  | leftParen _ | rightParen _ => true
  | _ => false

/-! ### Telling tokens apart -/

/-- The kind of operator that a token carries. -/
def kind? : Token → Option OperatorKind
  | number n => n.kind
  | operator op => op.kind
  | leftParen p | rightParen p => p.kind

/-- The text that a token carries. -/
def label? : Token → Option Text
  | number n => n.literal
  | operator op => op.label
  | leftParen p | rightParen p => p.label

/-- The two tokens play the same part and carry the same. -/
def agrees (a b : Token) : Bool :=
  a.role == b.role && a.kind? == b.kind? && a.label? == b.label?

/-- The tokens without those that agree with an earlier one. -/
def distinct (tokens : List Token) : List Token :=
  tokens.foldl (fun kept t => if kept.any (agrees t) then kept else kept ++ [t]) []

/-! ### Tokens in writing -/

/-- An operator without a kind has no symbol to be written with. -/
def lacksSymbol : Token → Bool
  | operator op => op.kind.isNone
  | _ => false

/-- The text of a token, if it has any: the spelling of a number, the symbol of an operator and the
name of a parenthesis. -/
def text? : Token → Option Text
  | number n => n.literal
  | operator op => op.kind.map OperatorKind.symbol
  | leftParen p | rightParen p => some p.name

/-- A token as a description of itself. -/
def description : Token → Text
  | number n =>
    "Token(number, ".toList ++ (n.literal.map Text.quoted).getD "None".toList ++ [')']
  | operator op => "Token(".toList ++ op.name ++ [')']
  | leftParen p | rightParen p => "Token(".toList ++ p.name ++ [')']

/-- The texts of some tokens with a space between neighbours. -/
def listing (tokens : List Token) : Text :=
  Text.join [' '] (tokens.map fun t => t.text?.getD [])

end Token

end Calculator
