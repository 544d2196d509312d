import Calculator.Text.Basic

/-!
# Blank characters

The characters that separate words in any script: the white space of Unicode 14 together with the
four information separators.  `Text.strip` removes them at both ends of a text, `Text.squeeze`
everywhere.
-/

namespace Calculator

/-- White space in any script, the four information separators included. -/
def isBlank (c : Char) : Bool :=
  let n := c.toNat
  (0x09 ≤ n && n ≤ 0x0D) || (0x1C ≤ n && n ≤ 0x20) || n == 0x85 || n == 0xA0 || n == 0x1680 ||
    (0x2000 ≤ n && n ≤ 0x200A) || n == 0x2028 || n == 0x2029 || n == 0x202F || n == 0x205F ||
    n == 0x3000

/-- The blanks that may surround a written number: all but the four information separators. -/
def isNumberPadding (c : Char) : Bool :=
  isBlank c && !(0x1C ≤ c.toNat && c.toNat ≤ 0x1F)

namespace Text

/-- The text without the blanks at its ends. -/
def strip (s : Text) : Text := trim isBlank s

/-- The text without its blanks. -/
def squeeze (s : Text) : Text := s.filter fun c => !isBlank c

/-- A text of which nothing is left once its blanks are gone. -/
def isAllBlank (s : Text) : Bool := s.all isBlank

end Text

end Calculator
