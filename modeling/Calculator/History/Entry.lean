import Calculator.Settings

/-!
# History entries

A history entry is one text: the expression, a separator and the result.  `parseEntry` takes it
apart at the last separator, so that an expression may hold the separator as well.
-/

namespace Calculator

/-- The entry of an expression and its result. -/
def formatEntry (s : Settings) (expression result : Text) : Text :=
  expression ++ s.separator ++ result

/-- The expression and the result of an entry; an entry without a separator is all result. -/
def parseEntry (s : Settings) (entry : Text) : Except Failure (Text × Text) :=
  if s.separator.isEmpty then .error .emptySeparator
  else .ok ((entry.splitLast? s.separator).getD ([], entry))

/-- The rows of a table of history entries. -/
def historyRows (s : Settings) (history : List Text) : Except Failure (List (Text × Text)) :=
  history.mapM (parseEntry s)

end Calculator
