import Calculator.CommandLine.Script
import Calculator.Proofs.Text.Lines
import Calculator.Proofs.Text.Utf8
import Mathlib.Data.List.TakeWhile

/-!
# The expressions of a file

A file of expressions is a sequence of lines of three kinds: expressions with blanks around them,
blank lines and comments.  Each line ends as it likes, and the last one need not end at all.  Read
back from its bytes, such a file gives the expressions that were written into it, in order
(`read_encode_text`).

Where the lines are cut is not always told by the text: a carriage return and the line feed of an
empty line behind it are one end.  The expressions do not depend on it, as an empty line has none
(`expressions_append_end`).
-/

namespace Calculator

/-! ### Trimming -/

namespace Text

variable {p : Char → Bool} {s : Text}

theorem trimEnd_append (h : ∀ c ∈ s, p c = true) (t : Text) : trimEnd p (t ++ s) = trimEnd p t := by
  have hreverse : ∀ c ∈ s.reverse, p c = true := by simpa using h
  rw [trimEnd, trimEnd, List.reverse_append, List.dropWhile_append_of_pos hreverse]

theorem trimEnd_eq_self (h : ∀ c ∈ s.getLast?, p c = false) : trimEnd p s = s := by
  rcases List.eq_nil_or_concat s with rfl | ⟨rest, c, rfl⟩
  · rfl
  · have hc : p c = false := h c (by simp)
    simp [trimEnd, hc]

theorem trimEnd_cons {c : Char} (h : p c = false) (s : Text) :
    trimEnd p (c :: s) = c :: trimEnd p s := by
  have hstop : [c].dropWhile p = [c] := List.dropWhile_cons_of_neg (by simp [h])
  simp only [trimEnd, List.reverse_cons, List.dropWhile_append, hstop]
  split
  · rename_i hempty
    rw [List.isEmpty_iff.mp hempty]
    rfl
  · rw [List.reverse_append]
    rfl

end Text

namespace Script

/-! ### What stands on a line -/

/-- A text within a line. -/
structure Stretch where
  text : Text
  isInLine : text.IsInLine

/-- Blanks within a line. -/
structure Padding extends Stretch where
  isBlank_of_mem : ∀ c ∈ text, isBlank c = true

/-- An expression as it stands on a line: with no blanks around it, and no comment. -/
structure Body extends Stretch where
  ne_nil : text ≠ []
  head_not_blank : ∀ c ∈ text.head?, isBlank c = false
  last_not_blank : ∀ c ∈ text.getLast?, isBlank c = false
  head_ne : text.head? ≠ some '#'

/-- A line of a file of expressions. -/
inductive Line
  | expression (before : Padding) (body : Body) (behind : Padding)
  | blank (padding : Padding)
  | comment (before : Padding) (remark : Stretch)

/-- The line as it is written, without its end. -/
def Line.text : Line → Text
  | expression before body behind => before.text ++ body.text ++ behind.text
  | blank padding => padding.text
  | comment before remark => before.text ++ '#' :: remark.text

/-- The expression that stands on the line. -/
def Line.expression? : Line → Option Text
  | expression _ body _ => some body.text
  | blank _ => none
  | comment _ _ => none

theorem Line.isInLine_text (line : Line) : line.text.IsInLine := by
  cases line with
  | expression before body behind =>
    exact (before.isInLine.append body.isInLine).append behind.isInLine
  | blank padding => exact padding.isInLine
  | comment before remark =>
    have hsign : Text.IsInLine ['#'] := by decide
    exact before.isInLine.append (hsign.append remark.isInLine)

theorem Body.isExpression_text (body : Body) : isExpression body.text = true := by
  have hsign := body.head_ne
  obtain ⟨c, rest, hbody⟩ := List.exists_cons_of_ne_nil body.ne_nil
  rw [hbody, List.head?_cons, Ne, Option.some.injEq] at hsign
  rw [hbody]
  exact bne_iff_ne.mpr hsign

theorem Body.strip_surrounded (body : Body) (before behind : Padding) :
    Text.strip (before.text ++ (body.text ++ behind.text)) = body.text := by
  obtain ⟨c, rest, hbody⟩ := List.exists_cons_of_ne_nil body.ne_nil
  have hblank : isBlank c = false := body.head_not_blank c (by rw [hbody]; rfl)
  -- from the front, the blanks end where the body begins; from the back, where it ends
  have hfront : (body.text ++ behind.text).dropWhile isBlank = body.text ++ behind.text := by
    rw [hbody, List.cons_append, List.dropWhile_cons_of_neg (by simp [hblank])]
  rw [Text.strip, Text.trim, List.dropWhile_append_of_pos before.isBlank_of_mem, hfront,
    Text.trimEnd_append behind.isBlank_of_mem, Text.trimEnd_eq_self body.last_not_blank]

theorem Padding.strip_text (padding : Padding) : padding.text.strip = [] := by
  rw [Text.strip, Text.trim, List.dropWhile_eq_nil_iff.mpr padding.isBlank_of_mem]
  rfl

/-- A number sign behind blanks is the first character that is left. -/
theorem Padding.strip_append_sign (padding : Padding) (remark : Text) :
    Text.strip (padding.text ++ '#' :: remark) = '#' :: remark.trimEnd isBlank := by
  have hsign : isBlank '#' = false := by decide
  rw [Text.strip, Text.trim, List.dropWhile_append_of_pos padding.isBlank_of_mem,
    List.dropWhile_cons_of_neg (by simp [hsign]), Text.trimEnd_cons hsign]

/-- The expression that is found on a line. -/
def expressionOn? (line : Text) : Option Text := Option.guard isExpression line.strip

theorem expressionOn?_text (line : Line) : expressionOn? line.text = line.expression? := by
  unfold expressionOn?
  cases line with
  | expression before body behind =>
    rw [Line.text, List.append_assoc, body.strip_surrounded, Line.expression?,
      Option.guard_eq_some_iff]
    exact ⟨rfl, body.isExpression_text⟩
  | blank padding =>
    rw [Line.text, padding.strip_text]
    rfl
  | comment before remark =>
    rw [Line.text, before.strip_append_sign]
    rfl

/-! ### Files -/

theorem expressions_eq_filterMap (text : Text) :
    expressions text = text.lines.filterMap expressionOn? := by
  rw [expressions, ← List.filterMap_eq_filter, List.filterMap_map]
  rfl

/-- The expressions of a text are found line by line, however the lines end. -/
theorem expressions_append_end {line : Text} (h : line.IsInLine) (e : Text.LineEnd) (rest : Text) :
    expressions (line ++ (e.text ++ rest)) = (expressionOn? line).toList ++ expressions rest := by
  obtain ⟨more, hlines, hrest⟩ := e.exists_lines_append h rest
  have hmore : rest.lines.filterMap expressionOn? = more.filterMap expressionOn? := by
    rcases hrest with hrest | hrest
    · rw [hrest]
    · -- the line that this end has swallowed is empty and holds no expression
      rw [hrest]
      rfl
  rw [expressions_eq_filterMap, expressions_eq_filterMap, hlines, hmore, List.filterMap_cons]
  cases expressionOn? line <;> rfl

theorem expressions_of_isInLine {line : Text} (h : line.IsInLine) :
    expressions line = (expressionOn? line).toList := by
  by_cases hne : line = []
  · rw [hne]
    rfl
  · rw [expressions_eq_filterMap, Text.lines_eq_singleton h hne, List.filterMap_cons]
    cases expressionOn? line <;> rfl

/-- A file of expressions. -/
structure File where
  /-- The lines that have an end. -/
  ended : List (Line × Text.LineEnd)
  /-- A line without an end behind all others. -/
  last : Option Line

/-- The text of lines in front of what follows. -/
def textOf (ended : List (Line × Text.LineEnd)) (rest : Text) : Text :=
  ended.foldr (fun (line, e) behind => line.text ++ (e.text ++ behind)) rest

/-- The text of the file. -/
def File.text (f : File) : Text := textOf f.ended (f.last.elim [] Line.text)

/-- The expressions that were written into the file. -/
def File.expressions (f : File) : List Text :=
  f.ended.filterMap (·.1.expression?) ++ f.last.toList.filterMap Line.expression?

theorem expressions_textOf (ended : List (Line × Text.LineEnd)) (rest : Text) :
    expressions (textOf ended rest) = ended.filterMap (·.1.expression?) ++ expressions rest := by
  induction ended with
  | nil => rfl
  | cons entry ended ih =>
    obtain ⟨line, e⟩ := entry
    show expressions (line.text ++ (e.text ++ textOf ended rest)) = _
    rw [expressions_append_end line.isInLine_text, expressionOn?_text, ih, List.filterMap_cons]
    cases line.expression? <;> rfl

theorem expressions_text (f : File) : expressions f.text = f.expressions := by
  obtain ⟨ended, last⟩ := f
  rw [File.text, expressions_textOf, File.expressions]
  cases last with
  | none => rfl
  | some line =>
    show _ ++ expressions line.text = _
    rw [expressions_of_isInLine line.isInLine_text, expressionOn?_text, Option.toList_some,
      List.filterMap_cons]
    cases line.expression? <;> rfl

/-- Neither the carriage return in front of an empty line nor the separators U+2028 and U+0085,
which are blanks but end no line, make a difference. -/
example : expressions ['1', '\r', '\n', '\u2028', '2', '\u0085', '\r', ' ', '#', '3'] =
    [['1'], ['2']] := by decide

/-- **A file of expressions is read back from its bytes**: blanks around expressions, blank lines,
comments and the ends of lines make no difference. -/
theorem read_encode_text (f : File) : read (Utf8.encode f.text) = .ok f.expressions := by
  rw [read, Utf8.decode_encode, ← expressions_text]
  rfl

/-- A comment, an expression, an empty line, a blank one and another expression.  The carriage
return behind the first expression and the line feed behind the empty line are read as one end. -/
def mixedFile : File where
  ended := [
    (.comment spaces ⟨" 1+1".toList, by decide⟩, .both),
    (.expression tabulator sum separator, .carriageReturn),
    (.blank nothing, .lineFeed),
    (.blank separator, .lineFeed)]
  last := some (.expression nothing root spaces)
where
  nothing : Padding := ⟨⟨[], by decide⟩, List.all_eq_true.mp (by decide)⟩
  spaces : Padding := ⟨⟨"  ".toList, by decide⟩, List.all_eq_true.mp (by decide)⟩
  tabulator : Padding := ⟨⟨['\t'], by decide⟩, List.all_eq_true.mp (by decide)⟩
  separator : Padding := ⟨⟨['\u2028', '\u0085'], by decide⟩, List.all_eq_true.mp (by decide)⟩
  sum : Body :=
    { text := "1 + 2".toList
      isInLine := by decide
      ne_nil := by decide
      head_not_blank := by rintro _ ⟨⟩; rfl
      last_not_blank := by rintro _ ⟨⟩; rfl
      head_ne := by decide }
  root : Body :=
    { text := "√9 # 4".toList
      isInLine := by decide
      ne_nil := by decide
      head_not_blank := by rintro _ ⟨⟩; rfl
      last_not_blank := by rintro _ ⟨⟩; rfl
      head_ne := by decide }

/-- Only a number sign in front makes a comment. -/
theorem read_encode_text_mixedFile :
    read (Utf8.encode
        "  # 1+1\r\n\t1 + 2\u2028\u0085\r\n\u2028\u0085\n√9 # 4  ".toList) =
      .ok ["1 + 2".toList, "√9 # 4".toList] := by
  have htext : mixedFile.text =
      "  # 1+1\r\n\t1 + 2\u2028\u0085\r\n\u2028\u0085\n√9 # 4  ".toList := by
    decide
  rw [← htext, read_encode_text mixedFile]
  rfl

end Script

end Calculator
