import Calculator.Text.Blank
import Calculator.Text.Lines
import Calculator.Text.Utf8

/-!
# Files of expressions

A file of expressions has one expression per line, with blanks around it as one pleases.  Blank
lines and lines that begin with a number sign are passed over.
-/

namespace Calculator.Script

/-- A line, without the blanks around it, holds an expression. -/
def isExpression (line : Text) : Bool :=
  match line with
  | [] => false
  | c :: _ => c != '#'

/-- The expressions of a text, in order. -/
def expressions (text : Text) : List Text := (text.lines.map Text.strip).filter isExpression

/-- The expressions of a file, given by its bytes. -/
def read (bytes : List UInt8) : Except Failure (List Text) := (Utf8.decode bytes).map expressions

end Calculator.Script
