import Calculator.Text.Basic

/-!
# Paths in writing

A path is a text: its names stand between slashes, and one that begins with a slash is absolute.
`Path.parent` writes the path of the directory that a path is in, in its short form, without what
has no effect; two points stay, since what they undo need not be a directory.
-/

namespace Calculator.Path

/-- The greatest number of bytes in a name. -/
def nameLimit : Nat := 255

/-- The greatest number of bytes in a path. -/
def sizeLimit : Nat := 4095

/-- The character that no path may hold. -/
def terminator : Char := '\x00'

/-- The path does not depend on the directory that it is followed from. -/
def isAbsolute (path : Text) : Bool := path.head? = some '/'

/-- What stands between the slashes of a path, in order. -/
def names (path : Text) : List Text := path.splitOn '/'

/-- A name that stays in its directory: the empty one and a point. -/
def isIdle (name : Text) : Bool := name.isEmpty || name == ['.']

/-- The slashes at the start of a path in its short form: two are told from one and from more. -/
def root : Text → Text
  | '/' :: '/' :: '/' :: _ => ['/']
  | '/' :: '/' :: _ => ['/', '/']
  | '/' :: _ => ['/']
  | _ => []

/-- The directory that a path is in, in its short form. -/
def parent (path : Text) : Text :=
  let above := ((names path).filter fun name => !isIdle name).dropLast
  let short := root path ++ Text.join ['/'] above
  if short.isEmpty then ['.'] else short

end Calculator.Path
