import BinarySize.Log.Event

/-!
# Log filters

A filter decides which events pass into the log. Filters are asked for by texts, and what filter a
text writes is left to a reader that the program is given.
-/

namespace BinarySize

abbrev LogFilter := LogEvent → Bool

namespace LogFilter

def upTo (level : LogLevel) : LogFilter := fun event => event.level.rank ≤ level.rank

inductive Misread where
  /-- It does not have the form of one. -/
  | malformed
  /-- The reader breaks down on it. -/
  | breakdown
  deriving DecidableEq

abbrev Reader := Text → Except Misread LogFilter

end LogFilter

end BinarySize
