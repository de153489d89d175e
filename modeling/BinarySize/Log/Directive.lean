import BinarySize.Log.Filter
import BinarySize.Log.Pattern
import BinarySize.Text.Blank
import BinarySize.Text.Letter
import BinarySize.Text.Utf8

/-!
# Log directives

A directive says up to which level some events pass. In full it reads
`target[span{field=value}]=level`: the events meant are those whose target starts with a text and
which have a field of a name, and of a span with a name. All parts may be missing. A word without
a level is a level for all events if it names one; else it is a target, of which all events pass.

Blanks at both ends of a directive are skipped. The parts are all the same cut out of the
directive with its blanks, at the distances, in octets, that they would have from its start
without them. So blanks at the start move all parts to the left, and then the cuts may even
fall inside characters, where the reader breaks down.

A text writes a filter as directives separated by commas. Of the directives that mean an event, the
most specific one decides whether it passes; an event that none means does not pass.
-/

namespace BinarySize

/-- A test of a field: that there is one of a name, perhaps also what value it has. -/
structure FieldTest where
  name : Text
  hasValue : Bool
  deriving DecidableEq

/-- The events that a directive means pass up to a rank; rank zero lets none pass. The empty
target means all targets. -/
structure LogDirective where
  target : Text := []
  span : Option Text := none
  fields : List FieldTest := []
  upTo : Nat := LogLevel.trace.rank
  deriving DecidableEq

namespace LogDirective

open LogFilter (Misread)

def rankNames : List (String × Nat) :=
  [("off", 0), ("error", 1), ("warn", 2), ("info", 3), ("debug", 4), ("trace", 5)]

/-- The rank that a text names, or writes as a number from 0 to 5. -/
def rank? (cs : Text) : Option Nat :=
  match rankNames.find? fun named => named.1.toList == cs.map Char.toLower with
  | some named => some named.2
  | none => (Number.read? 10 cs).filter (· ≤ 5)

/-- Whether a directive can start with a character, other than the one that opens a span. -/
def startsWord (c : Char) : Bool :=
  c = '-' || c = ':' || c = '_' || Text.isLetterOrNumber c

/-- Whether a text is a decimal number: digits, perhaps with a point among them or at either end,
perhaps with an exponent. -/
def isDecimal (cs : Text) : Bool :=
  let whole := cs.takeWhile Char.isDigit
  let rest := cs.dropWhile Char.isDigit
  let (fraction, rest) := match rest with
    | '.' :: rest => (rest.takeWhile Char.isDigit, rest.dropWhile Char.isDigit)
    | rest => ([], rest)
  let exponent := match rest with
    | [] => true
    | e :: rest =>
      let digits := match rest with
        | '+' :: digits | '-' :: digits => digits
        | digits => digits
      e.toLower = 'e' && !digits.isEmpty && digits.all Char.isDigit
  !(whole ++ fraction).isEmpty && exponent

/-- Whether a text can be asked for as a value: a number, or a pattern. A number is a pattern too
unless it starts with a plus sign. -/
def isValue (cs : Text) : Bool :=
  match cs with
  | '+' :: number =>
    isDecimal number
      || ["inf", "infinity", "nan"].any (·.toList == number.map Char.toLower)
  | cs => Pattern.isWellFormed cs

def fieldTest? (cs : Text) : Option FieldTest :=
  let name := cs.takeWhile (· ≠ '=')
  match cs.dropWhile (· ≠ '=') with
  | [] => if name.isEmpty then none else some ⟨name, false⟩
  | _ :: rest => if isValue (rest.takeWhile (· ≠ '=')) then some ⟨name, true⟩ else none

/-- Where the reader of a directive stands; parts that are still to be cut out start at `first`
octets. -/
inductive Place where
  /-- Before the first character. -/
  | start
  /-- In the first word. -/
  | word (first : Nat)
  /-- In the name of a span. -/
  | span (first : Nat)
  /-- In the test of a field. -/
  | field (first : Nat)
  /-- Behind the test of a field. -/
  | tested
  /-- Behind a span. -/
  | spanned
  /-- In the level. -/
  | level (first : Nat)
  deriving DecidableEq

def cut (written : Text) (first last : Nat) : Except Misread Text :=
  match (Text.dropOctets? first written).bind (Text.takeOctets? (last - first)) with
  | some part => .ok part
  | none => .error .breakdown

def cutFrom (written : Text) (first : Nat) : Except Misread Text :=
  match Text.dropOctets? first written with
  | some part => .ok part
  | none => .error .breakdown

def step (written : Text) (here : Nat) (c : Char) (directive : LogDirective) :
    Place → Except Misread (Place × LogDirective)
  | .start =>
    if c = '[' then .ok (.span (here + 1), directive)
    else if startsWord c then .ok (.word here, directive)
    else .error .malformed
  | .word first =>
    if c = '=' then do
      let target ← cut written first here
      .ok (.level (here + 1), { directive with target })
    else if c = '[' then do
      let target ← cut written first here
      .ok (.span (here + 1), { directive with target })
    else .ok (.word first, directive)
  | .span first =>
    if c = ']' then do
      let name ← cut written first here
      .ok (.spanned, { directive with span := some name })
    else if c = '\x7b' then do
      let name ← cut written first here
      .ok (.field (here + 1),
        { directive with span := if name.isEmpty then none else some name })
    else .ok (.span first, directive)
  | .field first =>
    if c = '\x7d' then do
      let part ← cut written first here
      match fieldTest? part with
      | some test => .ok (.tested, { directive with fields := directive.fields ++ [test] })
      | none => .error .malformed
    else .ok (.field first, directive)
  | .tested => if c = ']' then .ok (.spanned, directive) else .error .malformed
  | .spanned =>
    if c = '=' then .ok (.level (here + 1), directive)
    else if c = '[' then .ok (.span (here + 1), directive)
    else .error .malformed
  | .level first => .ok (.level first, directive)

def finish (written : Text) (directive : LogDirective) : Place → Except Misread LogDirective
  | .word first => do
    let word ← cutFrom written first
    match rank? word with
    | some upTo => .ok { directive with upTo }
    | none => .ok { directive with target := word }
  | .level first => do
    let word ← cutFrom written first
    if word.isEmpty then .ok directive
    else match rank? word with
      | some upTo => .ok { directive with upTo }
      | none => .error .malformed
  | .spanned => .ok directive
  | _ => .error .malformed

def scan (written : Text) (here : Nat) (place : Place) (directive : LogDirective) :
    Text → Except Misread LogDirective
  | [] => finish written directive place
  | c :: cs =>
    match step written here c directive place with
    | .ok (place, directive) => scan written (here + c.utf8Size) place directive cs
    | .error e => .error e

def read (written : Text) : Except Misread LogDirective :=
  scan written 0 .start {} (Text.trim written)

/-- Whether a directive means an event. An event has no span, and its fields are not asked for
their values, so a directive with a span or a value means none. -/
def means (directive : LogDirective) (event : LogEvent) : Bool :=
  directive.span.isNone
    && directive.target.isPrefixOf event.target.toList
    && directive.fields.all fun test =>
      !test.hasValue && event.fieldNames.any (·.toList == test.name)

/-- Whether the first of two directives that mean an event gives way to the second: to a longer
target, of two as long to more fields, of as many to the greater names, and of two alike to the
later one. -/
def yieldsTo (a b : LogDirective) : Bool :=
  let names (d : LogDirective) : List Text := d.fields.map FieldTest.name
  a.target.length < b.target.length
    || (a.target.length == b.target.length
      && (a.fields.length < b.fields.length
        || (a.fields.length == b.fields.length && !decide (names b < names a))))

def deciding? (directives : List LogDirective) (event : LogEvent) : Option LogDirective :=
  (directives.filter (·.means event)).foldl
    (fun best next =>
      match best with
      | some best => if best.yieldsTo next then some next else some best
      | none => some next)
    none

def filter (directives : List LogDirective) : LogFilter := fun event =>
  match deciding? directives event with
  | some directive => event.level.rank ≤ directive.upTo
  | none => false

def readFilter : LogFilter.Reader := fun written =>
  (((Text.pieces (· == ',') written).filter (!·.isEmpty)).mapM read).map filter

end LogDirective

end BinarySize
