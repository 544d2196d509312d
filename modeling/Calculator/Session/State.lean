import Calculator.Text.Quoted

/-!
# The state of a session

What a session shows: the expression typed so far, the result below it, the history of earlier
calculations and whether that is in view.
-/

namespace Calculator

/-- What a session shows. -/
structure SessionState where
  /-- The expression typed so far. -/
  expression : Text
  /-- The last result, until it is cleared. -/
  result : Text
  /-- The entries of earlier calculations, the newest first. -/
  history : List Text
  /-- The history is in view. -/
  historyVisible : Bool
deriving DecidableEq

namespace SessionState

/-- The state of a session that has just begun. -/
def initial : SessionState := ⟨[], [], [], false⟩

/-- The state as a description of itself. -/
def description (s : SessionState) : Text :=
  "CalculatorState(expression=".toList ++ s.expression.quoted ++ ", result=".toList ++
    s.result.quoted ++ ", history=".toList ++ Text.ofNat s.history.length ++
    " entries, visible=".toList ++ (if s.historyVisible then "True".toList else "False".toList) ++
    [')']

/-- What someone makes of a copy of the state by writing over its expression and its result and
adding to its history. -/
def overwritten (s : SessionState) (text : Text) : SessionState :=
  { s with expression := text, result := text, history := s.history ++ [text] }

end SessionState

end Calculator
