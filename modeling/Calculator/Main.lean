import Calculator.CommandLine.Program

/-!
# The command line

The outer layer of the calculator: it reads the input file and the lines that are typed, prints what
a program run prints, writes its notes to the standard error and its history file to disk.  What is
read, printed and written is decided by `Program`.
-/

namespace Calculator.CommandLine

/-- Carries out what a computation shows, as far as its level asks for it. -/
def perform {α : Type} (level : Level) (work : Work α) : IO (Except Failure α) := do
  for event in work.trace do
    match event with
    | .printed text => IO.print (String.ofList text)
    | .noted note =>
      if level.rank ≤ note.level.rank then IO.eprint (String.ofList note.logEntry)
  (← IO.getStdout).flush
  return work.outcome

/-- The files of the machine as far as the arguments name them. -/
def filesFor (a : Arguments) : IO Files := do
  let path := a.inputPath.getD []
  let bytes : Except Failure (List UInt8) ←
    try
      pure (.ok (← IO.FS.readBinFile (String.ofList path)).toList)
    catch
      | .noFileOrDirectory .. => pure (.error (.missingFile path))
      | e => pure (.error (.other "OSError".toList e.toString.toList))
  return ⟨fun _ => bytes, fun _ => .ok ()⟩

/-- Holds the dialogue with a user, one line after another. -/
partial def converse (rules : SessionRules) (level : Level) (t : Program.Tally) :
    IO (Except Failure Program.Tally) := do
  let _ ← perform level (Program.print Program.prompt)
  let line ← (← IO.getStdin).getLine
  if line.isEmpty then
    let _ ← perform level (Program.printLine [])
    return .ok t
  match ← perform level (Program.answerLine rules t line.toList) with
  | .error failure => return .error failure
  | .ok none => return .ok t
  | .ok (some t) => converse rules level t

/-- Evaluates what the arguments ask for. -/
def evaluateArguments (a : Arguments) (files : Files) :
    IO (Except Failure Program.Result) := do
  let setup : Work (SessionRules × List Text) := do
    let rules ← .ofExcept (Program.rules .standard a)
    return (rules, ← Program.expressions a files)
  match ← perform a.shownLevel setup with
  | .error failure => return .error failure
  | .ok (rules, expressions) =>
    let tally ←
      if expressions.isEmpty then do
        let _ ← perform a.shownLevel (Program.printLine Program.greeting)
        converse rules a.shownLevel .initial
      else
        perform a.shownLevel (Program.evaluateAll rules .initial expressions)
    match tally with
    | .error failure => return .error failure
    | .ok t => perform a.shownLevel (Program.finish rules a files t)

/-- Runs the program and gives its exit status. -/
def runArguments (a : Arguments) : IO UInt32 := do
  match ← evaluateArguments a (← filesFor a) with
  | .error failure =>
    IO.eprintln (String.ofList failure.message)
    return 1
  | .ok result =>
    if let some (path, content) := result.saved then
      IO.FS.writeFile (String.ofList path) (String.ofList content)
    return UInt32.ofNat result.status

end Calculator.CommandLine

open Calculator in
/-- The program: evaluates the expressions of its arguments or of a dialogue. -/
def main (words : List String) : IO UInt32 := do
  match Arguments.ofWords (words.map String.toList) with
  | .error .help => return 0
  | .error .rejected => return 2
  | .ok a => CommandLine.runArguments a
