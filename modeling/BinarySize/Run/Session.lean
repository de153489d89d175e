import BinarySize.Log.Event
import BinarySize.Run.Error

/-!
# Sessions

A run is a computation on a session: the file tree, the tool calls made so far and the events
logged so far. A run that fails keeps what it has done to the session.
-/

namespace BinarySize

inductive Tool where
  /-- Writes the debug information of a module as text. -/
  | dumper
  /-- Writes a module as text. -/
  | converter
  deriving DecidableEq

namespace Tool

def name : Tool → String
  | dumper => "llvm-dwarfdump"
  | converter => "wasm2wat"

end Tool

/-- A call of a tool: the module it is to read and the file it is to leave. -/
structure ToolCall where
  tool : Tool
  module : Path
  output : Path
  deriving DecidableEq

structure Session where
  files : FileTree
  calls : List ToolCall := []
  events : List LogEvent := []
  deriving DecidableEq

/-- A computation on a session that may fail. -/
abbrev Run := ExceptT RunError (StateM Session)

namespace Run

def log (event : LogEvent) : Run Unit :=
  modify fun session => { session with events := session.events ++ [event] }

def record (call : ToolCall) : Run Unit :=
  modify fun session => { session with calls := session.calls ++ [call] }

def files : Run FileTree := return (← get).files

def onFiles (action : FileAction α) : Run α := ExceptT.mk fun session =>
  let (result, files) := (action.run).run session.files
  (result.mapError .io, { session with files })

def outcome (run : Run α) : Run (Except RunError α) :=
  tryCatch (Except.ok <$> run) fun e => pure (.error e)

/-- Runs a computation and, if it fails, a second one before failing with the first one's error. -/
def orElseUndo (run : Run α) (undo : Run Unit) : Run α :=
  tryCatch run fun e => do
    undo
    throw e

def requireFile (role : String) (path : Path) : Run Unit := do
  unless (← files).isFile path do throw (.missingInput role.toList path)

/-- The text of the regular file at a path; octets that are not UTF-8 are replaced. -/
def readText (path : Path) : Run Text := do
  match (← files).find? path with
  | some (.file content) => pure (Octets.decode content)
  | some .directory => throw (.io .isDirectory)
  | none => throw (.io .notFound)

/-- Writes a text to a path, below directories that are created if need be. -/
def writeText (path : Path) (text : Text) : Run Unit :=
  onFiles (FileAction.writeBelow path (Text.toOctets text))

end Run

end BinarySize
