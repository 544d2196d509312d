import Calculator.Failure

/-!
# Notes

While it works the calculator takes notes of what a user may want to know: characters it skipped,
parentheses without a partner, operands it had to make up, expressions without a value, files it
read and wrote.  A `Note` says what happened; its importance (`Note.level`), the part of the
calculator that took it (`Note.channel`) and its wording (`Note.message`) follow from that.
-/

namespace Calculator

/-- How important a note is. -/
inductive Level where
  | debug
  | info
  | warning
  | error
deriving DecidableEq

namespace Level

/-- The name of a level. -/
def name : Level → Text
  | debug => "DEBUG".toList
  | info => "INFO".toList
  | warning => "WARNING".toList
  | error => "ERROR".toList

/-- Every level, from the least important on. -/
def all : List Level := [debug, info, warning, error]

/-- The rank of a level among all. -/
def rank : Level → Nat
  | debug => 0
  | info => 1
  | warning => 2
  | error => 3

/-- The level of a name. -/
def ofName? (name : Text) : Option Level := all.find? fun level => level.name == name

end Level

/-- Something worth telling that happened while the calculator worked. -/
inductive Note where
  /-- A character is not part of any token. -/
  | skippedCharacter (c : Char) (index : Nat)
  /-- A group ends that never started. -/
  | unmatchedClose
  /-- A group never ends. -/
  | unmatchedOpen
  /-- An expression was brought into postfix order. -/
  | arranged (expression : Text) (postfixOrder : List Token)
  /-- An operator lacks an operand. -/
  | missingOperand (operator : Text)
  /-- A parenthesis stands in postfix order. -/
  | ignoredParen (name : Text)
  /-- More than one value is left over. -/
  | leftoverValues (count : Nat) (postfixOrder : List Token)
  /-- An expression has no value. -/
  | failedEvaluation (expression : Text) (failure : Failure)
  /-- A history was written. -/
  | savedHistory (count : Nat) (path : Text)
  /-- A file of expressions was read. -/
  | loadedExpressions (count : Nat) (path : Text)
  /-- Some of the expressions given to a program run have no value. -/
  | failedExpressions (count : Nat)
  /-- A history is about to be written. -/
  | savingHistory (path : Text)

namespace Note

/-- How important a note is. -/
def level : Note → Level
  | failedEvaluation .. | failedExpressions .. => .warning
  | savedHistory .. | loadedExpressions .. | savingHistory .. => .info
  | _ => .debug

/-- The part of the calculator that took a note. -/
def channel : Note → Text
  | skippedCharacter .. => "core.tokenizer".toList
  | unmatchedClose | unmatchedOpen => "core.shunting_yard".toList
  | arranged .. => "core.expression".toList
  | missingOperand .. | ignoredParen .. | leftoverValues .. => "core.rpn_evaluator".toList
  | failedEvaluation .. | savedHistory .. => "session.calculator_state".toList
  | loadedExpressions .. | failedExpressions .. | savingHistory .. => "main".toList

/-- What a note says. -/
def message : Note → Text
  | skippedCharacter c index =>
    "Skipping unrecognized character ".toList ++ Text.quoted [c] ++ " at ".toList ++
      Text.ofNat index
  | unmatchedClose => "Unmatched ')' ignored".toList
  | unmatchedOpen => "Unmatched '(' ignored".toList
  | arranged expression postfixOrder =>
    expression.quoted ++ " -> RPN: ".toList ++ Token.listing postfixOrder
  | missingOperand operator =>
    "Missing operand for ".toList ++ operator ++ ", substituting 0.0".toList
  | ignoredParen name => "Ignoring ".toList ++ name ++ " in RPN sequence".toList
  | leftoverValues count postfixOrder =>
    "Stack has ".toList ++ Text.ofNat count ++
      " elements after evaluation, returning top. RPN expression: ".toList ++
      Token.listing postfixOrder
  | failedEvaluation expression failure =>
    "Failed to evaluate ".toList ++ expression.quoted ++ ": ".toList ++ failure.message
  | savedHistory count path =>
    "Saved ".toList ++ Text.ofNat count ++ " history entries to ".toList ++ path
  | loadedExpressions count path =>
    "Loaded ".toList ++ Text.ofNat count ++ " expressions from ".toList ++ path
  | failedExpressions count => Text.ofNat count ++ " expression(s) could not be evaluated".toList
  | savingHistory path => "Saving history to ".toList ++ path

/-- A note on one line: level, channel, message. -/
def line (note : Note) : Text :=
  Text.join [' '] [note.level.name, note.channel, note.message]

/-- A note as an entry of a log: channel, level and message, and the end of the line. -/
def logEntry (note : Note) : Text :=
  Text.join " - ".toList [note.channel, note.level.name, note.message] ++ ['\n']

end Note

end Calculator
