import Calculator.Text.Basic

/-!
# Lines of a text

A line ends with a line feed, a carriage return, or both in this order.  `Text.unifyNewlines` writes
every end as a line feed, and `Text.lines` takes the text apart; the last line may lack its end, and
an empty rest behind the last end is no line.
-/

namespace Calculator.Text

/-- The text with every end of a line written as one line feed. -/
def unifyNewlines : Text → Text
  | [] => []
  | '\r' :: '\n' :: rest => '\n' :: unifyNewlines rest
  | c :: rest => (if c = '\r' then '\n' else c) :: unifyNewlines rest

/-- The lines of a text in which every line feed ends a line. -/
def splitLines : Text → List Text
  | [] => []
  | c :: rest =>
    if c = '\n' then
      [] :: splitLines rest
    else
      match splitLines rest with
      | [] => [[c]]
      | line :: more => (c :: line) :: more

/-- The lines of a text, without their ends. -/
def lines (s : Text) : List Text := splitLines (unifyNewlines s)

end Calculator.Text
