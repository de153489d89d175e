import BinarySize.CommandLine.Arguments
import BinarySize.Log.Filter
import BinarySize.Run.SizeReport

/-!
# The program

What the program does with its arguments, its environment and the file tree: it sets up the log,
makes the run that is asked for, prints one line about it, and ends with status 0, or with
status 1 if that fails, or with status 2 if it cannot tell what is asked for. If it breaks down
before the log is set up, it ends with status 101.
-/

namespace BinarySize.CommandLine

/-- The parts of the environment that matter: the filter of the log, the format of the log and
the file to which the log goes as well. -/
structure Environment where
  logFilter : Option Text := none
  logFormat : Option Text := none
  logFile : Option Path := none
  deriving DecidableEq

namespace Environment

def ofVariables (value? : String → Option Text) : Environment where
  logFilter := value? "RUST_LOG"
  logFormat := value? "SIZELENS_LOG_FORMAT"
  logFile := value? "SIZELENS_LOG_FILE"

def format (environment : Environment) : LogFormat :=
  (environment.logFormat.bind fun name => (LogFormat.read name).toOption).getD .pretty

/-- The filter of the log. A level among the arguments goes first; a filter that does not have
the form of one counts as the usual one. There is none if the reader of filters breaks down. -/
def filter? (environment : Environment) (readFilter : LogFilter.Reader)
    (level : Option LogLevel) : Option LogFilter :=
  match level, environment.logFilter with
  | some level, _ => some (LogFilter.upTo level)
  | none, none => some (LogFilter.upTo .info)
  | none, some written =>
    match readFilter written with
    | .ok filter => some filter
    | .error .malformed => some (LogFilter.upTo .info)
    | .error .breakdown => none

end Environment

structure Outcome where
  status : Nat
  /-- What it printed. -/
  printed : Text := []
  /-- What it said about its failure. -/
  complaint : Option Text := none
  /-- The events that passed the filter of the log. -/
  events : List LogEvent := []
  files : FileTree

def target : String := "sizelens"

/-- The file of a day to which the log goes as well. -/
def logPath (file : Path) (time : DateTime) : Path :=
  file.directory.join <|
    match file.fileName? with
    | some name => name ++ '.' :: time.dateText
    | none => time.dateText

def makeLogDirectory (file : Path) : FileAction Unit := FileAction.createAll file.directory

/-- Creates a file to which the log goes as well, unless it is there. -/
def openLog (file : Path) (time : DateTime) : FileAction Unit := do
  let path := logPath file time
  FileAction.write path (((← get).content? path).getD [])

/-- The run that is asked for. It answers with the line to print. -/
def run (request : Request) (tools : Toolset) (time : DateTime) : Run Text :=
  match request.verb with
  | .dump => do
    let options := request.dumpReportOptions
    Run.log ⟨.info, target, "Writing DWARF report to ".toList ++ options.report, []⟩
    let functions ← Run.dumpReport options tools
    return Text.decimal functions.length ++ " functions -> ".toList ++ options.report ++ ['\n']
  | .merge => do
    let options := request.sizeReportOptions
    Run.log ⟨.info, target, "Writing size report to ".toList ++ options.out, []⟩
    let _ ← Run.sizeReport options tools time
    return options.out ++ ['\n']

def failureEvent (e : RunError) : LogEvent :=
  ⟨.error, target, "run failed".toList, [("error", .text e.message)]⟩

/-- Does what is asked for once the log is set up. -/
def perform (request : Request) (tools : Toolset) (time : DateTime) (filter : LogFilter)
    (files : FileTree) : Outcome :=
  let (result, session) := ((run request tools time).run).run { files }
  match result with
  | .ok line =>
    { status := 0
      printed := line
      events := session.events.filter filter
      files := session.files }
  | .error e =>
    { status := 1
      complaint := some ("Error: ".toList ++ e.message ++ ['\n'])
      events := (session.events ++ [failureEvent e]).filter filter
      files := session.files }

def versionText : Text := "sizelens 0.0.0\n".toList

def helpText : Option Verb → Text
  | none =>
    "Attribute WebAssembly binary size to functions, sections and object files\n\n".toList
      ++ "Usage: sizelens [OPTIONS] <COMMAND>\n\nCommands: dwarf, merge, help\n".toList
  | some verb =>
    "Usage: sizelens ".toList ++ verb.word.toList ++ " [OPTIONS]\n\nOptions:".toList
      ++ verb.switches.flatMap (" --".toList ++ ·.word.toList) ++ ['\n']

/-- What the program does if the reading of its arguments ends early. -/
def stopped (files : FileTree) : Stop → Outcome
  | .help verb => { status := 0, printed := helpText verb, files }
  | .version => { status := 0, printed := versionText, files }
  | .refused => { status := 2, complaint := some (helpText none), files }

def brokenDown (files : FileTree) : Outcome where
  status := 101
  complaint := some "The log cannot be set up\n".toList
  files

/-- Does what is asked for, with the log going to a file as well. -/
def performWithLog (request : Request) (tools : Toolset) (time : DateTime) (filter : LogFilter)
    (file : Path) (files : FileTree) : Outcome :=
  match ((makeLogDirectory file).run).run files with
  | (.error cause, files) =>
    { status := 1
      complaint := some
        ("Failed to initialize logging: File logging error: ".toList ++ cause.message ++ ['\n'])
      files }
  | (.ok (), files) =>
    match ((openLog file time).run).run files with
    | (.error _, files) => brokenDown files
    | (.ok (), files) => perform request tools time filter files

/-- What the program does, with the filter of its log read by `readFilter`. -/
def execute (readFilter : LogFilter.Reader) (tools : Toolset) (environment : Environment)
    (time : DateTime) (arguments : List Text) (files : FileTree) : Outcome :=
  match Request.read arguments with
  | .error stop => stopped files stop
  | .ok request =>
    match environment.filter? readFilter request.level?, environment.logFile with
    | none, _ => brokenDown files
    | some filter, none => perform request tools time filter files
    | some filter, some file => performWithLog request tools time filter file files

end BinarySize.CommandLine
