import Calculator.Display
import Calculator.Expression.Basic
import Calculator.History.Csv
import Calculator.History.Entry
import Calculator.Session.Action
import Calculator.Session.State
import Calculator.Text.Blank

/-!
# Sessions

A session holds an expression that is typed bit by bit, calculates it on demand and remembers what
it calculated.  `SessionRules` says how: with which evaluator, with how much history, under which
settings.  Every operation takes the state and gives a `Turn`: the next state, and the answer or
failure that the operation ends with.

An expression without a value is shown as an error and leaves the history alone; every other failure
of the evaluator is handed on and leaves the whole state as it was.
-/

namespace Calculator

/-- How a session works. -/
structure SessionRules where
  /-- The settings for what is shown. -/
  settings : Settings
  /-- What finds the value of an expression. -/
  evaluator : Text → Traced Note Binary64
  /-- How many history entries are kept; all if there is no limit. -/
  limit : Option Nat
  /-- A limit leaves room for one entry. -/
  limit_pos : ∀ n ∈ limit, 0 < n

/-- The next state of a session, with the answer or the failure of an operation. -/
structure Turn (α : Type) where
  /-- The state after the operation. -/
  state : SessionState
  /-- What the operation ends with. -/
  ending : Traced Note α

namespace SessionRules

/-- A session with its own limit or, if it has none, the limit of the settings. -/
def create (settings : Settings) (limit : Option Int) (evaluator : Text → Traced Note Binary64) :
    Except Failure SessionRules :=
  match limit.or settings.historyLimit with
  | none => .ok ⟨settings, evaluator, none, by simp⟩
  | some n =>
    if h : n ≤ 0 then .error (.limitNotPositive n)
    else .ok ⟨settings, evaluator, some n.toNat, by simp only [Option.mem_some_iff]; omega⟩

/-- The newest entries, as many as are kept. -/
def trim (rules : SessionRules) (history : List Text) : List Text :=
  match rules.limit with
  | none => history
  | some n => history.take n

end SessionRules

namespace Session

/-! ### What is typed -/

/-- Appends a text to the expression. -/
def append (s : SessionState) (d : Datum) : Turn Unit :=
  match d.appendix with
  | .ok t => ⟨{ s with expression := s.expression ++ t }, pure ()⟩
  | .error failure => ⟨s, .fail failure⟩

/-- Starts a new expression. -/
def clear (s : SessionState) : SessionState := { s with expression := [], result := [] }

/-- Takes back the last character. -/
def delete (s : SessionState) : SessionState := { s with expression := s.expression.dropLast }

/-! ### Calculating -/

/-- The state after a calculation with the given result. -/
def remember (rules : SessionRules) (s : SessionState) (result : Text) : SessionState :=
  { s with
    result := result
    history := rules.trim (formatEntry rules.settings s.expression result :: s.history) }

/-- Calculates the expression and shows its result; a blank expression has none. -/
def calculate (rules : SessionRules) (s : SessionState) : Turn (Option Text) :=
  if s.expression.isAllBlank then
    ⟨s, pure none⟩
  else
    let value := rules.evaluator s.expression
    match value.outcome with
    | .ok x =>
      match displayResult rules.settings x with
      | .ok result => ⟨remember rules s result, ⟨value.trace, .ok (some result)⟩⟩
      | .error failure => ⟨s, ⟨value.trace, .error failure⟩⟩
    | .error failure =>
      if failure.isEvaluationError then
        ⟨{ s with result := rules.settings.errorText },
          ⟨value.trace ++ [.failedEvaluation s.expression failure],
            .ok (some rules.settings.errorText)⟩⟩
      else
        ⟨s, ⟨value.trace, .error failure⟩⟩

/-! ### History -/

/-- Shows the history or puts it out of view. -/
def toggleHistory (s : SessionState) : SessionState :=
  { s with historyVisible := !s.historyVisible }

/-- Forgets all earlier calculations. -/
def clearHistory (s : SessionState) : SessionState := { s with history := [] }

/-- The history as rows of expression and result, the newest first. -/
def frame (rules : SessionRules) (s : SessionState) : Except Failure (List (Text × Text)) :=
  historyRows rules.settings s.history

/-! ### Actions -/

/-- Does what an action stands for. -/
def perform (rules : SessionRules) (s : SessionState) (a : Action) : Turn Unit :=
  match a.key with
  | .number | .operator => append s a.payload
  | .clear => ⟨clear s, pure ()⟩
  | .delete => ⟨delete s, pure ()⟩
  | .calculate =>
    let turn := calculate rules s
    ⟨turn.state, do let _ ← turn.ending⟩
  | .toggleHistory => ⟨toggleHistory s, pure ()⟩
  | .clearHistory => ⟨clearHistory s, pure ()⟩
  | .foreign _ => ⟨s, .fail (.unknownAction a.description)⟩

end Session

end Calculator
