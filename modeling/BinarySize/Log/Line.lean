import BinarySize.Log.Setting

/-!
# Log lines

An event as it is written to the log: in words, or as a JSON object.
-/

namespace BinarySize.LogEvent

def jsonChar (c : Char) : Text :=
  if c = '"' ∨ c = '\\' then ['\\', c]
  else if c = '\n' then ['\\', 'n']
  else if c.toNat < 0x20 then
    "\\u00".toList ++ (if c.toNat < 0x10 then ['0'] else []) ++ Nat.toDigits 16 c.toNat
  else [c]

def jsonText (cs : Text) : Text := '"' :: cs.flatMap jsonChar ++ ['"']

/-- A member of a JSON object whose name needs no escapes. -/
def jsonMember (name : String) (value : Text) : Text :=
  jsonText name.toList ++ ':' :: value

def jsonObject (members : List Text) : Text := '\x7b' :: List.intercalate [','] members ++ ['\x7d']

def jsonLine (event : LogEvent) : Text :=
  let fields := event.fields.map fun (name, value) =>
    jsonMember name <| match value with
      | .count n => Text.decimal n
      | .text cs => jsonText cs
  jsonObject
    [jsonMember "level" (jsonText event.level.name.toList),
     jsonMember "fields" (jsonObject (jsonMember "message" (jsonText event.message) :: fields)),
     jsonMember "target" (jsonText event.target.toList)]

def plainLine (event : LogEvent) : Text :=
  let fields := event.fields.flatMap fun (name, value) =>
    ' ' :: name.toList ++ '=' :: match value with
      | .count n => Text.decimal n
      | .text cs => cs
  Text.padLeft 5 event.level.name.toList ++ ' ' :: event.target.toList ++ ": ".toList
    ++ event.message ++ fields

def line (event : LogEvent) : LogFormat → Text
  | .pretty => event.plainLine
  | .json => event.jsonLine

end BinarySize.LogEvent
