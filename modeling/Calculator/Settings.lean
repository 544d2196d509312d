import Calculator.Binary64.Arithmetic
import Calculator.Failure

/-!
# Settings

What a calculator can be told to do differently: which displayed characters stand for which
operators, what replaces an operand that is not there, how results are shown, and how much history a
session keeps.  `Settings.check` says whether the settings make sense together.
-/

namespace Calculator

/-- What a calculator can be told to do differently. -/
structure Settings where
  /-- Displayed characters and the operators they stand for, replaced in this order. -/
  glyphs : List (Text × Text)
  /-- What an operator computes with where an operand is missing. -/
  missingOperand : Binary64
  /-- The value of an expression without any. -/
  emptyResult : Binary64
  /-- How many parts a whole has for the operator `%`, which always counts in hundredths. -/
  percentDivisor : Binary64
  /-- The greatest number of decimal places shown. -/
  places : Int
  /-- Shown instead of a result if an expression has no value. -/
  errorText : Text
  /-- Shown for not a number. -/
  nanText : Text
  /-- Shown for an infinity, behind its sign. -/
  infinityText : Text
  /-- Stands between expression and result in a history entry. -/
  separator : Text
  /-- How many history entries a session keeps if it is not told; all if there is no limit. -/
  historyLimit : Option Int

namespace Settings

/-- The usual settings. -/
def standard : Settings where
  glyphs := [(['×'], ['*']), (['÷'], ['/']), (['−'], ['-'])]
  missingOperand := .zero false
  emptyResult := .zero false
  percentDivisor := .hundred
  places := 8
  errorText := "Error".toList
  nanText := "NaN".toList
  infinityText := ['∞']
  separator := [' ', '=', ' ']
  historyLimit := none

/-- The characters of the operators that a glyph may stand for. -/
def glyphOperators : Text := ['+', '-', '*', '/']

/-- A glyph is one character and stands for a piece of `glyphOperators`. -/
def isValidGlyph (entry : Text × Text) : Bool :=
  entry.1.length == 1 && entry.2.occursIn glyphOperators

/-- Zero of either sign. -/
def isZero (x : Binary64) : Bool := x.isFinite && x.quanta == 0

/-- Refuses settings that do not make sense, naming the first that does not. -/
def check (s : Settings) : Except Failure Unit :=
  if s.percentDivisor ≠ .hundred then
    .error (.invalidSetting "百分号按 a * (b / 100) 计算".toList)
  else if !isZero s.missingOperand then
    .error (.invalidSetting "缺少的操作数按 0.0 处理".toList)
  else if s.places ≤ 0 then
    .error (.invalidSetting "小数位数必须为正".toList)
  else if s.historyLimit.any (· ≤ 0) then
    .error (.invalidSetting "history_limit 必须为正数或 None".toList)
  else
    match s.glyphs.find? fun entry => !isValidGlyph entry with
    | some (glyph, symbol) =>
      .error (.invalidSetting ("非法替换: ".toList ++ glyph ++ " -> ".toList ++ symbol))
    | none => .ok ()

/-- What is printed about settings that make sense. -/
def approval : Text := "Configuration validated successfully!\n".toList

end Settings

end Calculator
