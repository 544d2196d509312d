import Calculator.Binary64.Numeral
import Calculator.Note

/-!
# Command-line arguments

A word of a command line that starts with a hyphen is an option, unless it is a lone hyphen, a
negative number, holds a space, or stands behind a lone double hyphen; every other word is an
expression.  Long options may be cut short as long as they stay unambiguous, and their value is the
next word or follows an equals sign.  All expressions stand in one run.

A lone double hyphen behind the equals sign takes the value away: the option is given, and has none.
That leaves no input file and the standard place of the history, but neither a history limit nor a
level of notes to go by, which fails unless the option is given once more.
-/

namespace Calculator

/-- What a command line asks for. -/
structure Arguments where
  /-- The expressions to evaluate. -/
  expressions : List Text
  /-- A file with more expressions. -/
  inputPath : Option Text
  /-- The history is to be saved. -/
  saveHistory : Bool
  /-- Where the history is saved. -/
  historyPath : Text
  /-- How many history entries are kept. -/
  historyLimit : Except Failure (Option Int)
  /-- The least level of the notes that are shown. -/
  logLevel : Except Failure Level

namespace Arguments

/-- Where a history is saved if nothing else is asked for. -/
def standardHistoryPath : Text := "calc_history.csv".toList

/-- What an empty command line asks for. -/
def standard : Arguments := ⟨[], none, false, standardHistoryPath, .ok none, .ok .warning⟩

/-- The least level of the notes that are shown, the usual one where there is none to go by. -/
def shownLevel (a : Arguments) : Level := a.logLevel.toOption.getD .warning

end Arguments

/-- An option of the command line. -/
inductive CommandOption where
  | help
  | inputPath
  | saveHistory
  | historyPath
  | historyLimit
  | logLevel
deriving DecidableEq

namespace CommandOption

/-- The long name of an option. -/
def name : CommandOption → Text
  | help => "--help".toList
  | inputPath => "--input_path".toList
  | saveHistory => "--save_history".toList
  | historyPath => "--history_path".toList
  | historyLimit => "--history_limit".toList
  | logLevel => "--log_level".toList

/-- Every option. -/
def all : List CommandOption := [help, inputPath, saveHistory, historyPath, historyLimit, logLevel]

/-- The option of a full name. -/
def ofName? (name : Text) : Option CommandOption := all.find? fun o => o.name == name

/-- The options that a name cut short may stand for. -/
def candidates (start : Text) : List CommandOption :=
  all.filter fun o => start.isPrefixOf o.name

end CommandOption

/-- Why a command line starts no calculation. -/
inductive CommandStop where
  /-- It asks for help. -/
  | help
  /-- It makes no sense. -/
  | rejected
deriving DecidableEq

/-- A word of a command line, by its part in it. -/
inductive CommandWord where
  /-- An expression or the value of an option. -/
  | plain (word : Text)
  /-- The lone double hyphen behind which all words are plain. -/
  | separator
  /-- An option, with the value behind its equals sign. -/
  | option (o : CommandOption) (value : Option Text)
  /-- A short request for help that is followed by more letters in the same word. -/
  | clusteredHelp (letters : Text)
  /-- An option that does not exist. -/
  | unknown

namespace CommandWord

/-- A hyphen and digits of any script with at most one point before the last of them; a line feed
at the end is put up with. -/
def isNegativeNumber (word : Text) : Bool :=
  match word with
  | '-' :: rest =>
    let body := if rest.getLast? = some '\n' then rest.dropLast else rest
    match Text.splitFirst? (· = '.') body with
    | none => !body.isEmpty && body.all isDecimalDigit
    | some (before, behind) =>
      before.all isDecimalDigit && !behind.isEmpty && behind.all isDecimalDigit
  | _ => false

/-- The part of a word that starts with two hyphens and is more than these. -/
def ofLong (word : Text) : Except CommandStop CommandWord :=
  let (start, value) : Text × Option Text :=
    match Text.splitFirst? (· = '=') word with
    | some (before, behind) => (before, some behind)
    | none => (word, none)
  match CommandOption.ofName? start with
  | some o => .ok (.option o value)
  | none =>
    match CommandOption.candidates start with
    | [o] => .ok (.option o value)
    | [] => .ok (if word.contains ' ' then .plain word else .unknown)
    | _ => .error .rejected

/-- The part of a word in front of any separator. -/
def ofWord (word : Text) : Except CommandStop CommandWord :=
  match word with
  | ['-', '-'] => .ok .separator
  | '-' :: '-' :: _ => ofLong word
  | ['-', 'h'] => .ok (.option .help none)
  | '-' :: 'h' :: '=' :: letters | '-' :: 'h' :: letters => .ok (.clusteredHelp letters)
  | '-' :: _ :: _ =>
    .ok (if isNegativeNumber word || word.contains ' ' then .plain word else .unknown)
  | _ => .ok (.plain word)

/-- The parts of the words of a command line. -/
def ofWords : List Text → Except CommandStop (List CommandWord)
  | [] => .ok []
  | word :: rest => do
    match ← ofWord word with
    | .separator => return .separator :: rest.map .plain
    | w => return w :: (← ofWords rest)

end CommandWord

namespace Arguments

/-- Where the run of expressions is. -/
inductive Run where
  | ahead
  | current
  | past
deriving DecidableEq

/-- The arguments read so far. -/
structure Reading where
  /-- What they ask for. -/
  arguments : Arguments
  /-- Where the run of expressions is. -/
  run : Run
  /-- Some word had no part to play. -/
  leftover : Bool

namespace Reading

/-- An option ends the run of expressions. -/
def endRun (r : Reading) : Reading := if r.run = .current then { r with run := .past } else r

/-- Takes a word that is not an option: an expression, unless their run is over. -/
def takePlain (r : Reading) (word : Text) : Reading :=
  match r.run with
  | .past => { r with leftover := true }
  | _ =>
    { r with
      arguments := { r.arguments with expressions := r.arguments.expressions ++ [word] }
      run := .current }

/-- Takes the separator, which belongs to the run of expressions. -/
def takeSeparator (r : Reading) : Reading :=
  match r.run with
  | .past => { r with leftover := true }
  | _ => { r with run := .current }

end Reading

/-- The arguments with an option that is given without a value. -/
def withoutValue (a : Arguments) : CommandOption → Except CommandStop Arguments
  | .help | .saveHistory => .error .rejected
  | .inputPath => .ok { a with inputPath := none }
  | .historyPath => .ok { a with historyPath := standardHistoryPath }
  | .historyLimit => .ok { a with historyLimit := .error .limitWithoutValue }
  | .logLevel => .ok { a with logLevel := .error .levelWithoutValue }

/-- The arguments with an option that has a value. -/
def withValue (a : Arguments) (o : CommandOption) (value : Text) :
    Except CommandStop Arguments :=
  match o with
  | .help | .saveHistory => .error .rejected
  | .inputPath => .ok { a with inputPath := some value }
  | .historyPath => .ok { a with historyPath := value }
  | .historyLimit =>
    match integerOfText? value with
    | some n => .ok { a with historyLimit := .ok (some n) }
    | none => .error .rejected
  | .logLevel =>
    match Level.ofName? value with
    | some level => .ok { a with logLevel := .ok level }
    | none => .error .rejected

/-- Takes an option with its value, which a lone double hyphen takes away. -/
def Reading.takeValue (r : Reading) (o : CommandOption) (value : Text) :
    Except CommandStop Reading := do
  let arguments ←
    if value = ['-', '-'] then r.arguments.withoutValue o else r.arguments.withValue o value
  return { r with arguments }

/-- What the letters behind a short request for help come to: each must be one more request, and
there must be some. -/
def clusterStop (letters : Text) : CommandStop :=
  if !letters.isEmpty && letters.all (· == 'h') then .help else .rejected

/-- Reads the words that are left. -/
def readWords : List CommandWord → Reading → Except CommandStop Reading
  | [], r => .ok r
  | .plain word :: rest, r => readWords rest (r.takePlain word)
  | .separator :: rest, r => readWords rest r.takeSeparator
  | .unknown :: rest, r => readWords rest { r.endRun with leftover := true }
  | .clusteredHelp letters :: _, _ => .error (clusterStop letters)
  | .option o (some value) :: rest, r => do
    readWords rest (← r.endRun.takeValue o value)
  | .option .help none :: _, _ => .error .help
  | .option .saveHistory none :: rest, r =>
    let r := r.endRun
    readWords rest { r with arguments := { r.arguments with saveHistory := true } }
  | .option o none :: .plain value :: rest, r => do
    readWords rest (← r.endRun.takeValue o value)
  | .option _ none :: _, _ => .error .rejected

/-- What a command line asks for; no word may be left over. -/
def ofWords (words : List Text) : Except CommandStop Arguments := do
  let r ← readWords (← CommandWord.ofWords words) ⟨standard, .ahead, false⟩
  if r.leftover then .error .rejected else .ok r.arguments

end Arguments

end Calculator
