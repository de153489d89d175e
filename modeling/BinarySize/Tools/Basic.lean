import BinarySize.Run.Session

/-!
# Tool sets

A run reaches the external tools only through a tool set, which says what becomes of a call: of
the files, and of the run if the call fails. The tools of a scripted set do as they are told.
-/

namespace BinarySize

structure Toolset where
  run : Tool → (module output : Path) → Run Unit

namespace Toolset

def call (tools : Toolset) (tool : Tool) (module output : Path) : Run Unit := do
  Run.record ⟨tool, module, output⟩
  tools.run tool module output

end Toolset

/-- What a scripted tool does when it is called. -/
inductive Script where
  /-- It is not installed. -/
  | absent
  /-- It gives up. -/
  | failing (status report : Text)
  /-- It succeeds and writes nothing. -/
  | silent
  /-- It writes its output. -/
  | writing (content : Octets)
  deriving DecidableEq

def Toolset.scripted (script : Tool → Script) : Toolset where
  run tool _ output :=
    match script tool with
    | .absent => throw (.toolNotFound tool.name.toList)
    | .failing status report => throw (.toolFailed tool.name.toList status report)
    | .silent => pure ()
    | .writing content => Run.onFiles (FileAction.write output content)

end BinarySize
