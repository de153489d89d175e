import BinarySize.Files.Path
import BinarySize.Text.Utf8

/-!
# File trees

A tree of directories and regular files. Its root, which is always a directory, is the working
directory; the directories above it are part of the tree too, but nothing else is known about
them. Looking a path up, creating a directory, writing a file and moving one onto a path follow
the path name by name, and fail as an operating system does: with the first name that does not
exist, that is too long for a directory, or that a name follows although it is no directory. A
path that the system does not take at all fails before its first name.
-/

namespace BinarySize

inductive FileError where
  | notFound
  | alreadyExists
  | notDirectory
  | isDirectory
  | busy
  /-- A name, or a whole path, is longer than the system takes. -/
  | nameTooLong
  /-- Something about a request makes no sense to the system. -/
  | invalidRequest
  /-- A path holds a NUL. -/
  | nulInPath
  /-- An argument for a program holds a NUL. -/
  | nulInArgument
  /-- An argument for a program is longer than the system takes. -/
  | argumentTooLong
  /-- A cause from outside, in words. -/
  | other (cause : Text)
  deriving DecidableEq

namespace FileError

/-- The cause in words, with the number that the operating system gives it. -/
def message : FileError → Text
  | notFound => "No such file or directory (os error 2)".toList
  | alreadyExists => "File exists (os error 17)".toList
  | notDirectory => "Not a directory (os error 20)".toList
  | isDirectory => "Is a directory (os error 21)".toList
  | busy => "Device or resource busy (os error 16)".toList
  | nameTooLong => "File name too long (os error 36)".toList
  | invalidRequest => "Invalid argument (os error 22)".toList
  | nulInPath => "file name contained an unexpected NUL byte".toList
  | nulInArgument => "nul byte found in provided data".toList
  | argumentTooLong => "Argument list too long (os error 7)".toList
  | other cause => cause

end FileError

inductive FileNode where
  | file (content : Octets)
  | directory
  deriving DecidableEq

/-- A place in a tree: the names that lead to it from the root, the last one first. A place that
is not below the root starts with the way up to the parent, or with the top of all directories. -/
abbrev Location := List Text

/-- Whether a place is the root or leads only up from it. -/
def Location.isUpward (place : Location) : Bool :=
  place.all fun name => name = Path.above ∨ name = Path.top

/-- The directories and files that are known of, each at its place. -/
structure FileTree where
  nodes : List (Location × FileNode) := []
  deriving DecidableEq

/-- An operation that may change a tree, and may fail after some of the changes. -/
abbrev FileAction := ExceptT FileError (StateM FileTree)

namespace FileTree

/-! ## Looking up -/

def node? (tree : FileTree) (place : Location) : Option FileNode :=
  if place.isUpward then some .directory else tree.nodes.lookup place

def enter (tree : FileTree) (place : Location) : Except FileError Unit :=
  match tree.node? place with
  | none => .error .notFound
  | some (.file _) => .error .notDirectory
  | some .directory => .ok ()

/-- The place that a name leads to from a directory. Nothing is above the top. -/
def follow (place : Location) (name : Text) : Location :=
  if name = Path.here then place
  else if name = Path.top then [Path.top]
  else if name = Path.above then
    if place = [Path.top] then place
    else if place.isUpward then Path.above :: place
    else place.tail
  else name :: place

def walk (tree : FileTree) (place : Location) : List Text → Except FileError Location
  | [] => .ok place
  | name :: rest =>
    match tree.enter place with
    | .error e => .error e
    | .ok () =>
      if Path.isTooLongName name then .error .nameTooLong
      else tree.walk (follow place name) rest

/-- Why the system does not take a path at all, if it does not. -/
def refusal? (path : Path) : Option FileError :=
  if path.hasNul then some .nulInPath
  else if path.isEmpty then some .notFound
  else if path.isTooLong then some .nameTooLong
  else none

/-- The place of a path. A slash at the end asks for a directory. -/
def locate (tree : FileTree) (path : Path) : Except FileError Location :=
  match refusal? path with
  | some e => .error e
  | none => tree.walk [] (path.names ++ if path.endsWithSlash then [Path.here] else [])

def find? (tree : FileTree) (path : Path) : Option FileNode :=
  match tree.locate path with
  | .ok place => tree.node? place
  | .error _ => none

def occupied (tree : FileTree) (path : Path) : Bool := (tree.find? path).isSome

def content? (tree : FileTree) (path : Path) : Option Octets :=
  match tree.find? path with
  | some (.file content) => some content
  | _ => none

def isFile (tree : FileTree) (path : Path) : Bool := (tree.content? path).isSome

def isDirectory (tree : FileTree) (path : Path) : Bool := tree.find? path == some .directory

/-! ## Changing -/

/-- The tree without what stands at a place; what stands below it stays. -/
def erase (tree : FileTree) (place : Location) : FileTree :=
  ⟨tree.nodes.filter (·.1 ≠ place)⟩

def put (tree : FileTree) (place : Location) (node : FileNode) : FileTree :=
  ⟨(place, node) :: (tree.erase place).nodes⟩

private theorem lookup_filter_ne (place other : Location) (nodes : List (Location × FileNode)) :
    (nodes.filter (·.1 ≠ place)).lookup other =
      if other = place then none else nodes.lookup other := by
  induction nodes with
  | nil => simp
  | cons entry rest ih =>
    obtain ⟨known, node⟩ := entry
    by_cases hk : known = place
    · subst hk
      have hf : ((known, node) :: rest).filter (·.1 ≠ known) = rest.filter (·.1 ≠ known) := by
        simp
      rw [hf, ih]
      by_cases ho : other = known
      · rw [if_pos ho, if_pos ho]
      · rw [if_neg ho, if_neg ho, List.lookup_cons, beq_false_of_ne ho]
    · have hf : ((known, node) :: rest).filter (·.1 ≠ place)
          = (known, node) :: rest.filter (·.1 ≠ place) := by
        simp [hk]
      rw [hf]
      by_cases ho : other = known
      · subst ho
        rw [if_neg hk, List.lookup_cons_self, List.lookup_cons_self]
      · rw [List.lookup_cons, List.lookup_cons, beq_false_of_ne ho]
        exact ih

theorem node?_erase (tree : FileTree) {place : Location} (h : place.isUpward = false)
    (other : Location) :
    (tree.erase place).node? other = if other = place then none else tree.node? other := by
  unfold node?
  by_cases hu : other.isUpward = true
  · have hne : other ≠ place := by
      intro heq
      rw [heq, h] at hu
      exact absurd hu Bool.false_ne_true
    rw [if_pos hu, if_pos hu, if_neg hne]
  · rw [if_neg hu, if_neg hu]
    exact lookup_filter_ne place other tree.nodes

theorem node?_put (tree : FileTree) {place : Location} (h : place.isUpward = false)
    (node : FileNode) (other : Location) :
    (tree.put place node).node? other =
      if other = place then some node else tree.node? other := by
  by_cases ho : other = place
  · subst ho
    rw [if_pos rfl, node?, h]
    exact List.lookup_cons_self
  · have he := node?_erase tree h other
    rw [if_neg ho] at he
    rw [if_neg ho, ← he]
    simp only [node?, put, List.lookup_cons, beq_false_of_ne ho]

/-- A name that is longer than all others in the tree, and so is none of them. -/
def freshName (tree : FileTree) : Text :=
  let longest := tree.nodes.foldl (fun n (place, _) => max n (place.headD []).length) 0
  '.' :: List.replicate longest '~'

end FileTree

namespace FileAction

open FileTree

def split (tree : FileTree) (names : List Text) : Except FileError (Option (Location × Text)) :=
  match names.reverse with
  | [] => .ok none
  | last :: before => do
    let place ← tree.walk [] before.reverse
    tree.enter place
    .ok (some (place, last))

/-- Whether a name stands for a directory without naming it. -/
def isNameless (name : Text) : Bool := name = Path.here ∨ name = Path.above ∨ name = Path.top

def entry (place : Location) (name : Text) : Except FileError Location :=
  if Path.isTooLongName name then .error .nameTooLong else .ok (name :: place)

def createDirectory (names : List Text) : FileAction Unit := do
  let tree ← get
  match ← split tree names with
  | none => throw .alreadyExists
  | some (place, last) =>
    if isNameless last then throw .alreadyExists
    let place ← entry place last
    if (tree.node? place).isSome then throw .alreadyExists
    set (tree.put place .directory)

def leadsToDirectory (tree : FileTree) (names : List Text) : Bool :=
  match tree.walk [] names with
  | .ok place => tree.node? place == some .directory
  | .error _ => false

def ensureDirectory (names : List Text) : FileAction Unit :=
  tryCatch (createDirectory names) fun e => do
    if leadsToDirectory (← get) names then pure () else throw e

/-- Creates the directory to which names lead, given last name first, and before it those above
it, unless they are there. -/
def ensureDirectories : List Text → FileAction Unit
  | [] => pure ()
  | last :: before =>
    tryCatch (ensureDirectory (last :: before).reverse) fun
      | .notFound => do
        ensureDirectories before
        ensureDirectory (last :: before).reverse
      | e => throw e

/-- Creates the directory of a path and those above it, unless they are there. The empty path
asks for none. -/
def createAll (path : Path) : FileAction Unit := do
  if path.isEmpty then return
  match refusal? path with
  | some e => throw e
  | none => ensureDirectories path.components.reverse

/-- Writes a file. What it held before is lost; a directory is never overwritten. -/
def write (path : Path) (content : Octets) : FileAction Unit := do
  if let some e := refusal? path then throw e
  let tree ← get
  match ← split tree path.names with
  | none => throw .isDirectory
  | some (place, last) =>
    if path.endsWithSlash || isNameless last then throw .isDirectory
    let place ← entry place last
    if tree.node? place = some .directory then throw .isDirectory
    set (tree.put place (.file content))

def writeBelow (path : Path) (content : Octets) : FileAction Unit := do
  match path.parent? with
  | some parent => createAll parent
  | none => pure ()
  write path content

/-- Creates an empty file with a new name in a directory, and says where. -/
def stage (directory : Path) : FileAction Location := do
  let tree ← get
  let place ← tree.locate directory
  tree.enter place
  let staged := tree.freshName :: place
  set (tree.put staged (.file []))
  pure staged

/-- Moves the file at a place onto a path, where it takes the place of another file. A directory
is never replaced. A path with a NUL is passed on to the system, to which it makes no sense. -/
def moveTo (staged : Location) (content : Octets) (path : Path) : FileAction Unit := do
  if path.hasNul then throw .invalidRequest
  if let some e := refusal? path then throw e
  let tree ← get
  match ← split tree path.names with
  | none => throw .busy
  | some (place, last) =>
    if isNameless last then throw .busy
    let place ← entry place last
    if path.endsWithSlash then throw .notDirectory
    if tree.node? place = some .directory then throw .isDirectory
    set ((tree.erase staged).put place (.file content))

end FileAction

end BinarySize
