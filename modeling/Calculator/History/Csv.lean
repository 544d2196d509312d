import Calculator.Text.Basic

/-!
# Comma-separated values

A table is written as one record per line, its fields separated by commas.  A field is quoted only
if it holds a comma, a quotation mark or a line feed, and every quotation mark in it is doubled.
-/

namespace Calculator.Csv

/-- The field holds a character that means something outside quotation marks. -/
def needsQuotes (field : Text) : Bool := field.any fun c => c == ',' || c == '"' || c == '\n'

/-- The text with every quotation mark doubled. -/
def doubleQuotes (field : Text) : Text :=
  field.flatMap fun c => if c = '"' then ['"', '"'] else [c]

/-- A field of a record. -/
def field (s : Text) : Text :=
  if needsQuotes s then ['"'] ++ doubleQuotes s ++ ['"'] else s

/-- A record of two fields and the end of its line. -/
def record (row : Text × Text) : Text := field row.1 ++ [','] ++ field row.2 ++ ['\n']

/-- The names of the columns of a history table. -/
def header : Text × Text := ("expression".toList, "result".toList)

/-- A history table: the names of the columns and one record for every row. -/
def table (rows : List (Text × Text)) : Text := (header :: rows).flatMap record

end Calculator.Csv
