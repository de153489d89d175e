import BinarySize.Log.Setting
import BinarySize.Number
import BinarySize.Run.Options

/-!
# Arguments

The command line has two verbs, each with options of its own, and one option that may stand
before or behind the verb. An option is written `--name value`, `--name=value` or, if it takes
no value, `--name`; options come in any order, but none twice in one place. Arguments are taken
from left to right, and the first that asks for help, asks for the version or is not as it
should be ends the reading. The value of an option that stands apart from it is looked at when
the next option starts.
-/

namespace BinarySize.CommandLine

inductive Switch where
  | logLevel | root | module | dump | report | map | moduleText | out
  | limit | snippetLines | skipDump | skipConversion
  deriving DecidableEq

namespace Switch

def word : Switch → String
  | logLevel => "log-level"
  | root => "root"
  | module => "wasm"
  | dump => "dwarf"
  | report => "report"
  | map => "map"
  | moduleText => "wat"
  | out => "out"
  | limit => "top-n"
  | snippetLines => "snippet-lines"
  | skipDump => "skip-dump"
  | skipConversion => "skip-wat"

def takesValue : Switch → Bool
  | skipDump | skipConversion => false
  | _ => true

/-- Whether a text can be the value of an option: the name of a level, a number, or a path,
which is not empty. -/
def accepts (value : Text) : Switch → Bool
  | logLevel => (LogLevel.read value).toOption.isSome
  | limit | snippetLines => (Number.read? 10 value).isSome
  | skipDump | skipConversion => value.isEmpty
  | _ => !value.isEmpty

end Switch

inductive Verb where
  /-- Report on a dump alone. -/
  | dump
  /-- Make a size report. -/
  | merge
  deriving DecidableEq

namespace Verb

def word : Verb → String
  | dump => "dwarf"
  | merge => "merge"

def ofText? (cs : Text) : Option Verb := [dump, merge].find? (·.word.toList == cs)

def switches : Verb → List Switch
  | dump => [.logLevel, .root, .module, .dump, .report, .skipDump]
  | merge =>
    [.logLevel, .root, .dump, .map, .module, .moduleText, .out, .limit, .snippetLines, .skipDump,
     .skipConversion]

end Verb

inductive Token where
  /-- `--name` or `--name=value`. -/
  | long (word : Text) (value : Option Text)
  /-- A dash and letters. -/
  | short (letters : Text)
  /-- Two dashes, behind which no options follow. -/
  | dashes
  /-- Any other text. -/
  | plain (word : Text)
  deriving DecidableEq

namespace Token

def ofText : Text → Token
  | ['-', '-'] => dashes
  | '-' :: '-' :: cs =>
    match cs.dropWhile (· ≠ '=') with
    | _ :: value => long (cs.takeWhile (· ≠ '=')) (some value)
    | [] => long cs none
  | '-' :: c :: cs => short (c :: cs)
  | cs => plain cs

/-- Whether a token can be the value of an option before it. -/
def isPlain : Token → Bool
  | plain _ => true
  | _ => false

end Token

/-- Why the reading of arguments ends before its end. -/
inductive Stop where
  /-- Help is asked for, with a verb or with all of them. -/
  | help (verb : Option Verb)
  /-- The version is asked for. -/
  | version
  /-- An argument is not as it should be, or one is missing. -/
  | refused
  deriving DecidableEq

/-- The options that are given, with their values; those that take none have the empty one. -/
abbrev Given := List (Switch × Text)

namespace Given

/-- Adds an option. Its value has to be a possible one, and it must not be given already. -/
def add (given : Given) (switch : Switch) (value : Text) : Except Stop Given :=
  if switch.accepts value && (given.lookup switch).isNone then .ok (given ++ [(switch, value)])
  else .error .refused

/-- Adds the option that is still to be looked at, if there is one. -/
def settle (given : Given) : Option (Switch × Text) → Except Stop Given
  | none => .ok given
  | some (switch, value) => given.add switch value

def path (given : Given) (switch : Switch) (default : Path) : Path :=
  (given.lookup switch).getD default

def number (given : Given) (switch : Switch) (default : Nat) : Nat :=
  ((given.lookup switch).bind (Number.read? 10)).getD default

def has (given : Given) (switch : Switch) : Bool := (given.lookup switch).isSome

def level? (given : Given) : Option LogLevel :=
  (given.lookup .logLevel).bind fun value => (LogLevel.read value).toOption

end Given

/-- The options that may stand before the verb, and those behind it. -/
def switchesOf : Option Verb → List Switch
  | none => [.logLevel]
  | some verb => verb.switches

def longStop (verb : Option Verb) (word : Text) : Stop :=
  if word = "help".toList then .help verb
  else if word = "version".toList ∧ verb = none then .version
  else .refused

def shortStop (verb : Option Verb) (letters : Text) : Stop :=
  if letters.head? = some 'h' then .help verb
  else if letters.head? = some 'V' ∧ verb = none then .version
  else .refused

def helpStop : List Text → Stop
  | [] => .help none
  | [word] =>
    match Verb.ofText? word with
    | some verb => .help (some verb)
    | none => if word = "help".toList then .help none else .refused
  | _ => .refused

/-- What the arguments on one side of the verb say: the options, the last one perhaps still to
be looked at, and, before the verb, the verb and what stands behind it. -/
structure Side where
  given : Given
  pending : Option (Switch × Text)
  verb : Option (Verb × List Text)
  deriving DecidableEq

def readSide (verb : Option Verb) (given : Given) (pending : Option (Switch × Text)) :
    List Text → Except Stop Side
  | [] => .ok ⟨given, pending, none⟩
  | argument :: rest =>
    match Token.ofText argument with
    | .dashes => if rest.isEmpty then .ok ⟨given, pending, none⟩ else .error .refused
    | .short letters =>
      match given.settle pending with
      | .error stop => .error stop
      | .ok _ => .error (shortStop verb letters)
    | .plain word =>
      if verb.isSome then .error .refused
      else if word = "help".toList then .error (helpStop rest)
      else match Verb.ofText? word with
        | some verb => .ok ⟨given, pending, some (verb, rest)⟩
        | none => .error .refused
    | .long word attached =>
      match given.settle pending with
      | .error stop => .error stop
      | .ok given =>
        match (switchesOf verb).find? (·.word.toList == word), attached with
        | none, none => .error (longStop verb word)
        | none, some _ => .error .refused
        | some switch, attached =>
          if switch.takesValue then
            match attached, rest with
            | some value, rest =>
              match given.add switch value with
              | .error stop => .error stop
              | .ok given => readSide verb given none rest
            | none, value :: rest =>
              if (Token.ofText value).isPlain then readSide verb given (some (switch, value)) rest
              else .error .refused
            | none, [] => .error .refused
          else if attached.isSome then .error .refused
          else match given.add switch [] with
            | .error stop => .error stop
            | .ok given => readSide verb given none rest

structure Request where
  verb : Verb
  /-- The options before the verb. -/
  before : Given
  /-- The options behind the verb. -/
  behind : Given
  deriving DecidableEq

namespace Request

def read (arguments : List Text) : Except Stop Request :=
  match readSide none [] none arguments with
  | .error stop => .error stop
  | .ok ⟨_, _, none⟩ => .error .refused
  | .ok ⟨before, pending, some (verb, rest)⟩ =>
    match readSide (some verb) [] none rest with
    | .error stop => .error stop
    | .ok side => do
      let behind ← side.given.settle side.pending
      let before ← before.settle pending
      .ok ⟨verb, before, behind⟩

/-- The level of the log; one given behind the verb goes first. -/
def level? (request : Request) : Option LogLevel :=
  request.behind.level?.or request.before.level?

/-- The conventional paths below the root that is given, or the working directory. -/
def paths (request : Request) : ProjectPaths :=
  ProjectPaths.below (request.behind.path .root ".".toList)

def dumpReportOptions (request : Request) : DumpReportOptions :=
  let options := DumpReportOptions.ofPaths request.paths
  { module := request.behind.path .module options.module
    dump := request.behind.path .dump options.dump
    report := request.behind.path .report options.report
    skipDump := request.behind.has .skipDump }

def sizeReportOptions (request : Request) : SizeReportOptions :=
  let options := SizeReportOptions.ofPaths request.paths
  { dump := request.behind.path .dump options.dump
    map := request.behind.path .map options.map
    module := options.module.map (request.behind.path .module)
    moduleText := options.moduleText.map (request.behind.path .moduleText)
    out := request.behind.path .out options.out
    limit := request.behind.number .limit options.limit
    snippetLines := request.behind.number .snippetLines options.snippetLines
    skipDump := request.behind.has .skipDump
    skipConversion := request.behind.has .skipConversion }

end Request

end BinarySize.CommandLine
