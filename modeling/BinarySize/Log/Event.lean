import BinarySize.Text.Basic

/-!
# Log events

What a run reports about itself: an event has a level, a target that says which part of the
program it comes from, a message, and named fields.
-/

namespace BinarySize

inductive LogLevel where
  | error | warn | info | debug | trace
  deriving DecidableEq

namespace LogLevel

/-- The place of a level in the order; events at a place up to a filter's pass it. -/
def rank : LogLevel → Nat
  | error => 1
  | warn => 2
  | info => 3
  | debug => 4
  | trace => 5

def name : LogLevel → String
  | error => "ERROR"
  | warn => "WARN"
  | info => "INFO"
  | debug => "DEBUG"
  | trace => "TRACE"

end LogLevel

inductive FieldValue where
  | count (n : Nat)
  | text (text : Text)
  deriving DecidableEq

structure LogEvent where
  level : LogLevel
  target : String
  message : Text
  fields : List (String × FieldValue) := []
  deriving DecidableEq

/-- The names of the fields of an event; the message counts as one. -/
def LogEvent.fieldNames (event : LogEvent) : List String :=
  "message" :: event.fields.map (·.1)

end BinarySize
