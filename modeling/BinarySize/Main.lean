import BinarySize.CommandLine.Execute
import BinarySize.Log.Directive
import BinarySize.Log.Line
import BinarySize.Tools.Installed
import Std.Time.Zoned

/-!
# The executable

Takes the files that the arguments are about from the disk into a tree, lets the program work on
it, and brings what has changed back. The executable starts no other program itself, so a run
that needs a tool ends as it does where the tool is not installed; with `--skip-dump` no run
needs one.
-/

namespace BinarySize.Main

def system (cs : Text) : String := String.ofList cs

def nodeOnDisk (path : Path) : IO (Option FileNode) := do
  try
    let file ← IO.FS.realPath (system path)
    if ← file.isDir then pure (some .directory)
    else pure (some (.file (← IO.FS.readBinFile file).toList))
  catch _ => pure none

/-- Takes what stands at a path, and the directories above it, from the disk into a tree. -/
def load (tree : FileTree) (path : Path) : IO FileTree := do
  let mut tree := tree
  let mut place : Location := []
  let mut reached : Path := []
  for name in path.names do
    place := FileTree.follow place name
    reached := reached.join name
    match ← nodeOnDisk reached with
    | some node => unless place.isUpward do tree := tree.put place node
    | none => break
  pure tree

/-- Brings what stands at a path back to the disk if it has changed. -/
def store (before after : FileTree) (path : Path) : IO Unit := do
  let directory := path.directory
  if after.isDirectory directory && !before.isDirectory directory then
    IO.FS.createDirAll (system directory)
  if after.find? path != before.find? path then
    match after.content? path with
    | some content => IO.FS.writeBinFile (system path) ⟨content.toArray⟩
    | none => pure ()

def pathsOf (request : CommandLine.Request) : List Path :=
  match request.verb with
  | .dump =>
    let options := request.dumpReportOptions
    [options.module, options.dump, options.report]
  | .merge =>
    let options := request.sizeReportOptions
    [options.dump, options.map, options.out] ++ options.module.toList
      ++ options.moduleText.toList

def now : IO DateTime := do
  let t ← Std.Time.PlainDateTime.now
  let nanosecond : Int := t.nanosecond.val
  pure ⟨t.year, t.month.val.toNat, t.day.val.toNat, t.hour.val.toNat, t.minute.val.toNat,
    t.second.val.toNat, nanosecond.toNat⟩

def run (arguments : List Text) : IO UInt32 := do
  let time ← now
  let settings ← ["RUST_LOG", "SIZELENS_LOG_FORMAT", "SIZELENS_LOG_FILE"].mapM fun name => do
    pure (name, (← IO.getEnv name).map (·.toList))
  let environment := CommandLine.Environment.ofVariables fun name =>
    (settings.lookup name).join
  let logPath := environment.logFile.map (CommandLine.logPath · time)
  let paths := match CommandLine.Request.read arguments with
    | .ok request => pathsOf request ++ logPath.toList
    | .error _ => []
  let before ← paths.foldlM load {}
  let outcome := CommandLine.execute LogDirective.readFilter (.installed fun _ => .absent)
    environment time arguments before
  let lines := Text.unlines (outcome.events.map (·.line environment.format))
  for path in paths do store before outcome.files path
  match logPath with
  | some path =>
    if outcome.files.isFile path then
      let log ← IO.FS.Handle.mk (system path) .append
      log.putStr (system lines)
  | none => pure ()
  IO.eprint (system lines)
  IO.eprint (system (outcome.complaint.getD []))
  IO.print (system outcome.printed)
  pure (UInt32.ofNat outcome.status)

end BinarySize.Main

def main (arguments : List String) : IO UInt32 :=
  BinarySize.Main.run (arguments.map (·.toList))
