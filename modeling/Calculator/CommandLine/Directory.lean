import Calculator.CommandLine.Path
import Calculator.Failure

/-!
# Files and directories

A program run reads files and writes files through `Files`, which says of every path what the file
there holds and whether a file may be written there.  `Directory.files` is that view from one
directory, given by the files in and below it.

A path is followed name by name (`Directory.follow`), from this directory or, behind a leading
slash, from outside of it.  An empty name and a point stay where they are and two points lead one
directory up; every other name must lead to a file or a directory.  Whatever is left by a further
name must be a directory.
-/

namespace Calculator

/-- What a program run may do with files. -/
structure Files where
  /-- The bytes of a file. -/
  read : Text → Except Failure (List UInt8)
  /-- Whether a file may be written. -/
  write : Text → Except Failure Unit

/-- A directory: the files in and below it, each with the names that lead there. -/
abbrev Directory := List (List Text × List UInt8)

/-- Where a path leads. -/
inductive Place where
  /-- Out of this directory, where only the directories that it is in are known. -/
  | outside
  /-- What the names lead to from this directory. -/
  | inside (names : List Text)
deriving DecidableEq

/-- Why a path leads nowhere. -/
inductive Obstacle where
  /-- Nothing has that name. -/
  | missing
  /-- A file stands where a directory is due. -/
  | notDirectory
  /-- A name is too long for any file. -/
  | nameTooLong
deriving DecidableEq

namespace Obstacle

/-- The failure that an obstacle on a path means. -/
def failure (path : Text) : Obstacle → Failure
  | missing => .missingFile path
  | notDirectory => .notDirectory path
  | nameTooLong => .nameTooLong path

end Obstacle

namespace Directory

/-! ### Files and directories by name -/

/-- The file of some names. -/
def file? (d : Directory) (names : List Text) : Option (List UInt8) := d.lookup names

/-- Names lead to a directory if there are none of them or some file lies below. -/
def hasDirectory (d : Directory) (names : List Text) : Bool :=
  names.isEmpty || d.any fun (file, _) => names.isPrefixOf file && names.length < file.length

/-- The place is a directory. -/
def isDirectory (d : Directory) : Place → Bool
  | .outside => true
  | .inside names => d.hasDirectory names

/-! ### Following a path -/

/-- The place that a path is followed from. -/
def start (path : Text) : Place := if Path.isAbsolute path then .outside else .inside []

/-- The directory that a place is in. -/
def up : Place → Place
  | .outside | .inside [] => .outside
  | .inside names => .inside names.dropLast

/-- Follows one name of a path. -/
def enter (d : Directory) (place : Place) (name : Text) : Except Obstacle Place :=
  if !d.isDirectory place then .error .notDirectory
  else if Path.isIdle name then .ok place
  else if name = ['.', '.'] then .ok (up place)
  else if Path.nameLimit < name.utf8Size then .error .nameTooLong
  else
    match place with
    | .outside => .error .missing
    | .inside names =>
      let names := names ++ [name]
      if (d.file? names).isSome || d.hasDirectory names then .ok (.inside names)
      else .error .missing

/-- Follows some names of a path. -/
def enterAll (d : Directory) (place : Place) (names : List Text) : Except Obstacle Place :=
  names.foldlM d.enter place

/-- Follows a path. -/
def follow (d : Directory) (path : Text) : Except Obstacle Place :=
  if Path.sizeLimit < path.utf8Size then .error .nameTooLong
  else if path.isEmpty then .error .missing
  else d.enterAll (start path) (Path.names path)

/-! ### Reading -/

/-- The bytes of the file at a path. -/
def read (d : Directory) (path : Text) : Except Failure (List UInt8) :=
  if path.contains Path.terminator then .error .nulInPath
  else
    match d.follow path with
    | .error obstacle => .error (obstacle.failure path)
    | .ok .outside => .error (.isDirectory path)
    | .ok (.inside names) =>
      match d.file? names with
      | some bytes => .ok bytes
      | none => .error (.isDirectory path)

/-! ### Writing -/

/-- The directory that the file at a path is to be in must be there. -/
def checkParent (d : Directory) (path : Text) : Except Failure Unit :=
  let parent := Path.parent path
  if parent.contains Path.terminator then .error (.missingDirectory parent)
  else
    match d.follow parent with
    | .ok place => if d.isDirectory place then .ok () else .error (.missingDirectory parent)
    | .error .nameTooLong => .error (.nameTooLong parent)
    | .error _ => .error (.missingDirectory parent)

/-- The place of the file that is written at a path.  It need not be there yet, but the directory
that it is in must; a slash at the end asks for a directory, which is no place for a file. -/
def target (d : Directory) (path : Text) : Except Failure Place :=
  if path.contains Path.terminator then .error .nulInPath
  else if Path.sizeLimit < path.utf8Size then .error (.nameTooLong path)
  else
    let body := path.trimEnd (· = '/')
    let last := (Path.names body).getLastD []
    match d.enterAll (start path) (Path.names body).dropLast with
    | .error obstacle => .error (obstacle.failure path)
    | .ok place =>
      if !d.isDirectory place then .error (.notDirectory path)
      else if body ≠ path then .error (.isDirectory path)
      else
        match d.enter place last, place with
        | .ok place, _ => if d.isDirectory place then .error (.isDirectory path) else .ok place
        | .error .missing, .inside names => .ok (.inside (names ++ [last]))
        | .error .missing, .outside => .ok .outside
        | .error obstacle, _ => .error (obstacle.failure path)

/-- Whether a file may be written at a path. -/
def write (d : Directory) (path : Text) : Except Failure Unit := do
  d.checkParent path
  let _ ← d.target path

/-- The view that a program run has from a directory. -/
def files (d : Directory) : Files := ⟨d.read, d.write⟩

/-- The names of the file that is written at a path, if it lies in the directory or below. -/
def written? (d : Directory) (path : Text) : Option (List Text) :=
  match d.target path with
  | .ok (.inside names) => some names
  | _ => none

end Directory

end Calculator
