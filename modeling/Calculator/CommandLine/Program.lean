import Calculator.CommandLine.Arguments
import Calculator.CommandLine.Directory
import Calculator.CommandLine.Script
import Calculator.Session.Basic

/-!
# Program runs

A program run evaluates the expressions of its command line and its input file, or, if there are
none, those that are typed in a dialogue.  Everything it prints and notes is an `Event` of its
trace, and its answer is the exit status together with the history file to be written.
-/

namespace Calculator

/-- Something that a program run shows while it works. -/
inductive Event where
  /-- Text on the standard output. -/
  | printed (text : Text)
  /-- A note. -/
  | noted (note : Note)

/-- A computation that prints and takes notes. -/
abbrev Work (α : Type) := Traced Event α

namespace Program

/-- A computation that takes notes, as part of a program run. -/
def noting {α : Type} (x : Traced Note α) : Work α := x.mapTrace .noted

/-- Prints a text. -/
def print (text : Text) : Work Unit := .record (.printed text)

/-- Prints a text and ends the line. -/
def printLine (text : Text) : Work Unit := print (text ++ ['\n'])

/-- Takes a note. -/
def note (n : Note) : Work Unit := .record (.noted n)

/-- The state of a session, and how many of its expressions had no value. -/
structure Tally where
  /-- The state of the session. -/
  state : SessionState
  /-- How many expressions had no value. -/
  failures : Nat

namespace Tally

/-- Nothing was evaluated yet. -/
def initial : Tally := ⟨.initial, 0⟩

end Tally

/-! ### Evaluating -/

/-- Evaluates one expression as a new one of the session and prints it with its result; a blank
expression is passed over. -/
def evaluateOne (rules : SessionRules) (t : Tally) (expression : Text) : Work Tally := do
  let typed := Session.append (Session.clear t.state) (.text expression)
  noting typed.ending
  let turn := Session.calculate rules typed.state
  match ← noting turn.ending with
  | none => return { t with state := turn.state }
  | some result =>
    printLine (formatEntry rules.settings expression result)
    let failed := result = rules.settings.errorText
    return ⟨turn.state, if failed then t.failures + 1 else t.failures⟩

/-- Evaluates some expressions in order. -/
def evaluateAll (rules : SessionRules) : Tally → List Text → Work Tally
  | t, [] => return t
  | t, expression :: rest => do
    let t ← evaluateOne rules t expression
    evaluateAll rules t rest

/-! ### The dialogue -/

/-- Ends the dialogue. -/
def quitCommand : Text := ":quit".toList

/-- Prints the history. -/
def historyCommand : Text := ":history".toList

/-- Forgets the history. -/
def clearCommand : Text := ":clear".toList

/-- What a dialogue begins with. -/
def greeting : Text :=
  "Commands: ".toList ++ Text.join ", ".toList [historyCommand, clearCommand, quitCommand]

/-- What stands before every line of a user. -/
def prompt : Text := "> ".toList

/-- Answers one line of a user; there is no next tally once the dialogue has ended. -/
def answerLine (rules : SessionRules) (t : Tally) (line : Text) : Work (Option Tally) := do
  let line := line.strip
  if line.isEmpty then
    return some t
  else if line = quitCommand then
    return none
  else if line = historyCommand then
    .recordAll (t.state.history.map fun entry => .printed (entry ++ ['\n']))
    return some t
  else if line = clearCommand then
    return some { t with state := Session.clearHistory t.state }
  else
    return some (← evaluateOne rules t line)

/-- Answers the lines of a user, until one of them or the end of the input ends the dialogue. -/
def answerLines (rules : SessionRules) : Tally → List Text → Work Tally
  | t, [] => do
    print prompt
    printLine []
    return t
  | t, line :: rest => do
    print prompt
    match ← answerLine rules t line with
    | none => return t
    | some t => answerLines rules t rest

/-! ### The whole run -/

/-- What a program run comes to. -/
structure Result where
  /-- The exit status. -/
  status : Nat
  /-- The file to be written, by its path, with its content. -/
  saved : Option (Text × Text)

/-- The rules of the session that a command line asks for; it must also leave a level to show notes
by. -/
def rules (s : Settings) (a : Arguments) : Except Failure SessionRules := do
  let _ ← a.logLevel
  SessionRules.create s (← a.historyLimit) (evaluate s)

/-- All expressions of a command line: its own, then those of its input file. -/
def expressions (a : Arguments) (files : Files) : Work (List Text) := do
  match a.inputPath with
  | none | some [] => return a.expressions
  | some path =>
    let more ← .ofExcept (files.read path >>= Script.read)
    note (.loadedExpressions more.length path)
    return a.expressions ++ more

/-- Tells how many expressions had no value, and makes the history file if one is asked for. -/
def finish (rules : SessionRules) (a : Arguments) (files : Files) (t : Tally) : Work Result := do
  if t.failures ≠ 0 then
    note (.failedExpressions t.failures)
  let status := if t.failures ≠ 0 then 1 else 0
  if a.saveHistory then
    let path := if a.historyPath.isEmpty then Arguments.standardHistoryPath else a.historyPath
    note (.savingHistory path)
    let rows ← .ofExcept (Session.frame rules t.state)
    .ofExcept (files.write path)
    note (.savedHistory rows.length path)
    return ⟨status, some (path, Csv.table rows)⟩
  else
    return ⟨status, none⟩

/-- Runs the program on the arguments of a command line, with the files that it can reach and the
text that is typed in. -/
def run (s : Settings) (a : Arguments) (files : Files) (input : Text) : Work Result := do
  let rules ← .ofExcept (rules s a)
  let expressions ← expressions a files
  let tally ←
    if expressions.isEmpty then do
      printLine greeting
      answerLines rules .initial input.lines
    else
      evaluateAll rules .initial expressions
  finish rules a files tally

end Program

namespace Event

/-- All that was printed. -/
def output (events : List Event) : Text :=
  events.flatMap fun
    | printed text => text
    | noted _ => []

/-- The entries of a log of all notes of a level or a more important one. -/
def log (level : Level) (events : List Event) : Text :=
  events.flatMap fun
    | printed _ => []
    | noted note => if level.rank ≤ note.level.rank then note.logEntry else []

end Event

end Calculator
