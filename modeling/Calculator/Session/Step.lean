import Calculator.Session.Basic

/-!
# Steps of a session

A `Step` is one thing that a user or a program does with a session, and a `Reply` what it gets back.
`Session.step` takes one step and `Session.run` takes many, each from the state that the one before
it left, whether that failed or not.
-/

namespace Calculator

/-- One thing done with a session. -/
inductive Step where
  /-- Appends text to the expression. -/
  | append (d : Datum)
  /-- Presses a key. -/
  | press (key : Key) (payload : Datum)
  /-- Starts a new expression. -/
  | clear
  /-- Takes back the last character. -/
  | delete
  /-- Calculates the expression. -/
  | calculate
  /-- Shows the history or puts it out of view. -/
  | toggleHistory
  /-- Forgets the history. -/
  | clearHistory
  /-- Reads the history as rows. -/
  | readFrame
  /-- Reads the history as comma-separated values. -/
  | readTable
  /-- Reads the state as a description. -/
  | describe
  /-- Compares the state with another. -/
  | compare (other : SessionState)
  /-- Writes over a copy of the state. -/
  | overwriteCopy (text : Text)

/-- What a step gives back. -/
inductive Reply where
  /-- Nothing. -/
  | nothing
  /-- The text of a result, none for a blank expression. -/
  | result (text : Option Text)
  /-- The action that was performed, and the state after it. -/
  | performed (description : Text) (state : SessionState)
  /-- The rows of the history. -/
  | frame (rows : List (Text × Text))
  /-- The number of rows of the history, and their comma-separated values. -/
  | table (count : Nat) (csv : Text)
  /-- A description of the state. -/
  | description (text : Text)
  /-- Whether two states are the same. -/
  | comparison (same : Bool)
  /-- A copy of the state. -/
  | copy (state : SessionState)

namespace Session

/-- A turn that gives back nothing. -/
def silent (turn : Turn Unit) : Turn Reply :=
  ⟨turn.state, do turn.ending; return .nothing⟩

/-- Presses a key. -/
def press (rules : SessionRules) (s : SessionState) (key : Key) (payload : Datum) : Turn Reply :=
  match Action.ofKey key payload with
  | .error failure => ⟨s, .fail failure⟩
  | .ok a =>
    let turn := perform rules s a
    ⟨turn.state, do turn.ending; return .performed a.description turn.state⟩

/-- Takes one step. -/
def step (rules : SessionRules) (s : SessionState) : Step → Turn Reply
  | .append d => silent (append s d)
  | .press key payload => press rules s key payload
  | .clear => ⟨clear s, pure .nothing⟩
  | .delete => ⟨delete s, pure .nothing⟩
  | .calculate =>
    let turn := calculate rules s
    ⟨turn.state, do return .result (← turn.ending)⟩
  | .toggleHistory => ⟨toggleHistory s, pure .nothing⟩
  | .clearHistory => ⟨clearHistory s, pure .nothing⟩
  | .readFrame => ⟨s, do return .frame (← .ofExcept (frame rules s))⟩
  | .readTable => ⟨s, do
      let rows ← .ofExcept (frame rules s)
      return .table rows.length (Csv.table rows)⟩
  | .describe => ⟨s, pure (.description s.description)⟩
  | .compare other => ⟨s, pure (.comparison (s == other))⟩
  | .overwriteCopy text => ⟨s, pure (.copy (s.overwritten text))⟩

/-- Takes some steps, and gives the turn of each. -/
def turns (rules : SessionRules) : SessionState → List Step → List (Turn Reply)
  | _, [] => []
  | s, x :: rest =>
    let turn := step rules s x
    turn :: turns rules turn.state rest

/-- The state after some steps. -/
def run (rules : SessionRules) (s : SessionState) (steps : List Step) : SessionState :=
  steps.foldl (fun s x => (step rules s x).state) s

end Session

end Calculator
