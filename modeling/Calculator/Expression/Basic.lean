import Calculator.Expression.Evaluation
import Calculator.Expression.Postfix
import Calculator.Text.Blank
import Calculator.Token.Lexeme

/-!
# Expressions

`evaluate` takes an expression from its text to its value.  Displayed characters are replaced by the
operators they stand for and blanks dropped (`sanitize`), the rest is cut into tokens
(`readTokens`), these are brought into postfix order (`arrangeNoted`) and evaluated
(`evaluatePostfix`).  Every text is an expression; only a number that does not read as one keeps it
from having a value.
-/

namespace Calculator

/-- The text with displayed characters replaced by what they stand for, one entry of the table after
the other, and without blanks. -/
def sanitize (s : Settings) (expression : Text) : Text :=
  (s.glyphs.foldl (fun t (glyph, symbol) => t.replaceAll glyph symbol) expression).squeeze

/-- The note on a character that was skipped. -/
def Lexeme.note? : Lexeme → Option Note
  | .number .. | .symbol .. => none
  | .skipped index c => some (.skippedCharacter c index)

/-- The tokens of a text, with a note on each character that is none. -/
def readTokens (text : Text) : Traced Note (List Token) := do
  .recordAll ((lexemes text).filterMap Lexeme.note?)
  return tokenize text

/-- The tokens in postfix order, with a note on each parenthesis without a partner. -/
def arrangeNoted (tokens : List Token) : Traced Note (List Token) := do
  .recordAll (arrange tokens).notes
  return (arrange tokens).tokens

/-- The value of an expression. -/
def evaluate (s : Settings) (expression : Text) : Traced Note Binary64 := do
  let tokens ← readTokens (sanitize s expression)
  let postfixOrder ← arrangeNoted tokens
  .record (.arranged expression postfixOrder)
  evaluatePostfix s postfixOrder

end Calculator
