import BinarySize.Log.Event

/-!
# Log settings

The names under which levels and formats of the log can be asked for, in letters of any case.
-/

namespace BinarySize

inductive LogFormat where
  | pretty | json
  deriving DecidableEq

inductive LogSettingError where
  | invalidLevel (given : Text)
  | invalidFormat (given : Text)
  deriving DecidableEq

namespace LogSettingError

def message : LogSettingError → Text
  | invalidLevel given =>
    "Invalid log level: ".toList ++ given
      ++ ". Use 'error', 'warn', 'info', 'debug', or 'trace'".toList
  | invalidFormat given =>
    "Invalid log format: ".toList ++ given ++ ". Use 'pretty' or 'json'".toList

end LogSettingError

/-- Whether a text is a word, where capital letters count as small ones. -/
def Text.isWord (cs : Text) (word : String) : Bool := cs.map Char.toLower == word.toList

namespace LogLevel

def words : LogLevel → List String
  | error => ["error", "err"]
  | warn => ["warn", "warning"]
  | info => ["info"]
  | debug => ["debug", "dbg"]
  | trace => ["trace"]

def read (given : Text) : Except LogSettingError LogLevel :=
  match [error, warn, info, debug, trace].find? (·.words.any (Text.isWord given)) with
  | some level => .ok level
  | none => .error (.invalidLevel given)

end LogLevel

namespace LogFormat

def words : LogFormat → List String
  | pretty => ["pretty", "dev", "development"]
  | json => ["json", "prod", "production"]

def read (given : Text) : Except LogSettingError LogFormat :=
  match [pretty, json].find? (·.words.any (Text.isWord given)) with
  | some format => .ok format
  | none => .error (.invalidFormat given)

end LogFormat

end BinarySize
