import BinarySize.Text.Utf8

/-!
# Paths

A path is text in which slashes separate names. The empty names that several slashes in a row
would make do not count. A path that starts with a slash starts at the top of all directories,
and any other at the working directory.
-/

namespace BinarySize

abbrev Path := Text

namespace Path

/-- The name of a directory inside itself. -/
def here : Text := ".".toList

def above : Text := "..".toList

/-- What stands for the top of all directories among the names of a path. -/
def top : Text := "/".toList

/-- The names of a path, first to last; the top of all directories counts as one. -/
def names (path : Path) : List Text :=
  (if path.head? = some '/' then [top] else [])
    ++ (Text.pieces (· == '/') path).filter (!·.isEmpty)

/-- Whether a path ends with a slash, and so can only be a directory's. -/
def endsWithSlash (path : Path) : Bool := path.getLast? == some '/'

/-- The path of a name below a path. Nothing is put before a name below the empty path, and no
second slash after one. -/
def join (path : Path) (name : Text) : Path :=
  if path.isEmpty || path.endsWithSlash then path ++ name else path ++ '/' :: name

/-- The names of a path without those that stay where they are, but for one that the path starts
with. -/
def components (path : Path) : List Text :=
  match path.names with
  | [] => []
  | first :: rest => first :: rest.filter (· ≠ here)

/-- The path without its last component, if it has one that stands in a directory. -/
def parent? (path : Path) : Option Path :=
  match path.components.reverse with
  | [] => none
  | last :: before => if last = top then none else some (before.reverse.foldl join [])

def fileName? (path : Path) : Option Text :=
  path.components.getLast?.filter fun name => name ≠ here ∧ name ≠ above ∧ name ≠ top

/-- The directory in which the file of a path lies: the parent, or the working directory for a
bare name. -/
def directory (path : Path) : Path :=
  match path.parent? with
  | some (c :: cs) => c :: cs
  | _ => here

/-- Whether a path holds a NUL, at which the system would take it to end. -/
def hasNul (path : Path) : Bool := path.contains '\x00'

/-- Whether a path has more octets than the system takes, the closing NUL included. -/
def isTooLong (path : Path) : Bool := 4096 ≤ Text.octetCount path

def isTooLongName (name : Text) : Bool := 255 < Text.octetCount name

end Path

end BinarySize
