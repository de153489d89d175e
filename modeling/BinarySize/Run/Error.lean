import BinarySize.Files.Tree

/-!
# Failed runs

Why a run ends without its report.
-/

namespace BinarySize

inductive RunError where
  /-- A file that the run needs is not there; the role says what it is needed for. -/
  | missingInput (role : Text) (path : Path)
  /-- A tool is not installed. -/
  | toolNotFound (tool : Text)
  /-- A tool ran and gave up; `report` is what it said about it. -/
  | toolFailed (tool status report : Text)
  /-- An option has a value that no run can have. -/
  | invalidArgument (reason : Text)
  /-- A file could not be read or written, or a tool not be started. -/
  | io (cause : FileError)
  deriving DecidableEq

namespace RunError

def message : RunError → Text
  | missingInput role path => "missing ".toList ++ role ++ ": ".toList ++ path
  | toolNotFound tool => tool ++ " not found in PATH".toList
  | toolFailed tool status report =>
    tool ++ " failed (".toList ++ status ++ "): ".toList ++ report
  | invalidArgument reason => "Invalid argument: ".toList ++ reason
  | io cause => "IO error: ".toList ++ cause.message

end RunError

end BinarySize
