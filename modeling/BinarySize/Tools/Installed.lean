import BinarySize.Text.Blank
import BinarySize.Tools.Basic

/-!
# Installed tools

An installed tool is a program. It is started with a file that was made for its output beside
the place where the output belongs, and that file is moved there only if the program succeeds.
Otherwise it is removed, so a failed call leaves all files as they were.
-/

namespace BinarySize

inductive ExitStatus where
  | code (n : Nat)
  | signal (n : Nat)
  deriving DecidableEq

namespace ExitStatus

def isSuccess (status : ExitStatus) : Bool := status == code 0

/-- The names of the signals that have one, from signal 1 on. -/
def signalNames : List String :=
  ["SIGHUP", "SIGINT", "SIGQUIT", "SIGILL", "SIGTRAP", "SIGABRT", "SIGBUS", "SIGFPE", "SIGKILL",
   "SIGUSR1", "SIGSEGV", "SIGUSR2", "SIGPIPE", "SIGALRM", "SIGTERM", "SIGSTKFLT", "SIGCHLD",
   "SIGCONT", "SIGSTOP", "SIGTSTP", "SIGTTIN", "SIGTTOU", "SIGURG", "SIGXCPU", "SIGXFSZ",
   "SIGVTALRM", "SIGPROF", "SIGWINCH", "SIGIO", "SIGPWR", "SIGSYS"]

def message : ExitStatus → Text
  | code n => "exit status: ".toList ++ Text.decimal n
  | signal n =>
    let name := if n = 0 then none else signalNames[n - 1]?
    "signal: ".toList ++ Text.decimal n
      ++ (name.map fun name => " (".toList ++ name.toList ++ ")".toList).getD []

end ExitStatus

/-- What a program did: what it printed, what it wrote to the file it was given if it wrote to
it at all, and how it ended. -/
structure ProgramRun where
  printed : Octets := []
  complaints : Octets := []
  written : Option Octets := none
  status : ExitStatus := .code 0
  deriving DecidableEq

/-- A program: what it does, given its arguments and the files that it can read. -/
abbrev Program := List Text → FileTree → ProgramRun

inductive Installation where
  /-- Nothing that could be started. -/
  | absent
  /-- Something that cannot be started after all. -/
  | broken (cause : FileError)
  /-- A program. -/
  | program (behaviour : Program)

namespace Tool

/-- The arguments of a tool: the module, and for the converter also where the output goes. -/
def arguments (module staged : Path) : Tool → List Text
  | dumper => [module]
  | converter => [module, "-o".toList, staged]

/-- The output of a tool: what the dumper printed, what the converter wrote. -/
def output (run : ProgramRun) : Tool → Octets
  | dumper => run.printed
  | converter => run.written.getD []

def announcement (module output : Path) (tool : Tool) : LogEvent where
  level := .info
  target := "sizelens_core::tools"
  message := match tool with
    | dumper => "dumping debug info".toList
    | converter => "converting module to text".toList
  fields := [("tool", .text tool.name.toList), ("input", .text module), ("output", .text output)]

/-- The failure of a tool that ran and gave up. A tool that says nothing about it is spoken
for. -/
def failure (tool : Tool) (run : ProgramRun) : RunError :=
  let complaint := Text.trim (Octets.decode run.complaints)
  .toolFailed tool.name.toList run.status.message
    (if complaint.isEmpty then tool.name.toList ++ " failed".toList else complaint)

end Tool

namespace Installation

/-- Why the system does not take the arguments of a program, if it does not: one of them holds a
NUL, or is longer than it takes. -/
def argumentRefusal? (arguments : List Text) : Option FileError :=
  if arguments.any (·.contains '\x00') then some .nulInArgument
  else if arguments.any (131072 ≤ Text.octetCount ·) then some .argumentTooLong
  else none

/-- What a tool leaves as its output when it is started, or why it fails. -/
def start (installation : Installation) (tool : Tool) (arguments : List Text)
    (files : FileTree) : Except RunError Octets :=
  match installation, argumentRefusal? arguments with
  | .absent, _ => .error (.toolNotFound tool.name.toList)
  | _, some cause => .error (.io cause)
  | .broken cause, none => .error (.io cause)
  | .program behaviour, none =>
    let run := behaviour arguments files
    if run.status.isSuccess then .ok (tool.output run) else .error (tool.failure run)

def isFound : Installation → Bool
  | absent => false
  | _ => true

end Installation

namespace Toolset

/-- Makes an empty file beside the place where an output belongs. -/
def stageBeside (output : Path) : Run Location :=
  Run.onFiles do
    FileAction.createAll output.directory
    FileAction.stage output.directory

def discard (staged : Location) : Run Unit :=
  modify fun session => { session with files := session.files.erase staged }

/-- Lets a tool fill the file that was made for its output, and moves that to its place. -/
def produce (installation : Installation) (tool : Tool) (module output : Path)
    (staged : Location) : Run Unit := do
  let stagedPath := output.directory.join (staged.headD [])
  match installation.start tool (tool.arguments module stagedPath) (← Run.files) with
  | .error e => throw e
  | .ok content => Run.onFiles (FileAction.moveTo staged content output)

def installed (installation : Tool → Installation) : Toolset where
  run tool module output := do
    unless (installation tool).isFound do throw (.toolNotFound tool.name.toList)
    Run.log (tool.announcement module output)
    let staged ← stageBeside output
    Run.orElseUndo (produce (installation tool) tool module output staged) (discard staged)

end Toolset

end BinarySize
