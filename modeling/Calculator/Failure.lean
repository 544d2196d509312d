import Calculator.Token.Basic

/-!
# Failures

What can keep the calculator from an answer, by cause.  `Failure.message` words each of them, and
`Failure.isEvaluationError` tells those that mean "this expression has no value", which a session
shows instead of a result, from all others.
-/

namespace Calculator

/-- A cause that keeps the calculator from an answer. -/
inductive Failure where
  /-- A number that does not read as one. -/
  | malformedNumber (literal : Text)
  /-- A number that was never written. -/
  | unwrittenNumber
  /-- The refusal of an evaluator, in its own words. -/
  | refused (message : Text)
  /-- An operator whose kind computes nothing for its number of operands. -/
  | unsupportedKind (kind : Option OperatorKind)
  /-- An operator of neither one nor two operands. -/
  | unexpectedArity (arity : Int) (operator : Text)
  /-- A value of the named type where an expression was due. -/
  | expressionNotText (type : Text)
  /-- A value of the named type where text was to be appended. -/
  | appendedNotText (type : Text)
  /-- A finite number was to be shown with a negative number of decimal places. -/
  | negativePlaces
  /-- Nothing separates expression and result in a history entry. -/
  | emptySeparator
  /-- A history limit below one. -/
  | limitNotPositive (limit : Int)
  /-- A history limit was announced, but none was given. -/
  | limitWithoutValue
  /-- A level of notes was announced, but none was given. -/
  | levelWithoutValue
  /-- An action that appends text came without any. -/
  | actionWithoutText (action : Text)
  /-- An action that the session does not know, as it describes itself. -/
  | unknownAction (description : Text)
  /-- A setting that is out of its range. -/
  | invalidSetting (explanation : Text)
  /-- A file that is not there. -/
  | missingFile (path : Text)
  /-- A directory in the place of a file. -/
  | isDirectory (path : Text)
  /-- A file in the place of a directory. -/
  | notDirectory (path : Text)
  /-- A path that is too long, or a name in it. -/
  | nameTooLong (path : Text)
  /-- A file in a directory that is not there. -/
  | missingDirectory (directory : Text)
  /-- A path that holds the character NUL. -/
  | nulInPath
  /-- Bytes that are not the encoding of a text, with the place and kind of the fault. -/
  | undecodable (explanation : Text)
  /-- Any other failure of an evaluator, with its own name and wording. -/
  | other (name message : Text)
deriving DecidableEq

namespace Failure

/-- The failure means that the expression has no value. -/
def isEvaluationError : Failure → Bool
  | malformedNumber _ | refused _ => true
  | _ => false

/-- The name of a kind of operator, as a description of itself. -/
def kindDescription : Option OperatorKind → Text
  | none => "None".toList
  | some kind =>
    "<OperatorKind.".toList ++ kind.name.map Char.toUpper ++ ": ".toList ++ kind.name.quoted ++
      ['>']

/-- What a failure says. -/
def message : Failure → Text
  | malformedNumber literal => "Malformed numeric literal: ".toList ++ literal.quoted
  | unwrittenNumber =>
    "float() argument must be a string or a real number, not 'NoneType'".toList
  | refused message => message
  | unsupportedKind kind => kindDescription kind
  | unexpectedArity arity operator =>
    "Unexpected arity ".toList ++ Text.ofInt arity ++ " for ".toList ++ operator
  | expressionNotText type => "expression must be str, got ".toList ++ type
  | appendedNotText type =>
    "can only concatenate str (not \"".toList ++ type ++ "\") to str".toList
  | negativePlaces => "precision must be >= 0".toList
  | emptySeparator => "empty separator".toList
  | limitNotPositive limit => "history_limit must be positive, got ".toList ++ Text.ofInt limit
  | limitWithoutValue =>
    "'<=' not supported between instances of 'list' and 'int'".toList
  | levelWithoutValue => "attribute name must be string, not 'list'".toList
  | actionWithoutText action => action ++ " action requires text".toList
  | unknownAction description => "Unknown action: ".toList ++ description
  | invalidSetting explanation => explanation
  | missingFile path => "[Errno 2] No such file or directory: ".toList ++ path.quoted
  | isDirectory path => "[Errno 21] Is a directory: ".toList ++ path.quoted
  | notDirectory path => "[Errno 20] Not a directory: ".toList ++ path.quoted
  | nameTooLong path => "[Errno 36] File name too long: ".toList ++ path.quoted
  | missingDirectory directory =>
    "Cannot save file into a non-existent directory: '".toList ++ directory ++ ['\'']
  | nulInPath => "embedded null byte".toList
  | undecodable explanation => explanation
  | other _ message => message

end Failure

end Calculator
