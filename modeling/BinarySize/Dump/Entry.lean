import BinarySize.Dump.Function
import BinarySize.Dump.Line
import BinarySize.Text.Lines

/-!
# Entries of a dump

The entries that matter are compile units, whose name stands in for an unknown file, and
functions. What a function's attribute lines say is collected in slots; the first line that has
a value for a slot fills it for good.
-/

namespace BinarySize.Dump

/-- What is known about a function after some of its attribute lines. -/
structure Attributes where
  name : Option Text := none
  lowPc : Option Nat := none
  highPc : Option Nat := none
  declFile : Option Text := none
  declLine : Option Nat := none
  callFile : Option Text := none
  callLine : Option Nat := none
  deriving DecidableEq

namespace Attributes

/-- Fills the slots that are still empty and for which a line has a value. -/
def absorb (known : Attributes) (line : Text) : Attributes where
  name := known.name.or (name? line)
  lowPc := known.lowPc.or (lowPc? line)
  highPc := known.highPc.or (highPc? line)
  declFile := known.declFile.or (declFile? line)
  declLine := known.declLine.or (declLine? line)
  callFile := known.callFile.or (callFile? line)
  callLine := known.callLine.or (callLine? line)

/-- The size of the code from `low` on. An end below the start is no address but the length. -/
def codeSize (low high : Nat) : Nat := if low ≤ high then high - low else high

/-- The declaration's file, else the call's, else that of the compile unit, else none. -/
def file (known : Attributes) (unitFile : Option Text) : Text :=
  (known.declFile.or (known.callFile.or unitFile)).getD []

/-- The declaration's line unless that is zero, else the call's, else zero. -/
def line (known : Attributes) : Nat :=
  ((known.declLine.filter (· ≠ 0)).or known.callLine).getD 0

/-- The sized function that the attributes describe, if they name it and give both ends of a
piece of code that is not empty. -/
def function? (known : Attributes) (kind : FunctionKind) (unitFile : Option Text) :
    Option SizedFunction := do
  let low ← known.lowPc
  let high ← known.highPc
  let name ← known.name
  let size := codeSize low high
  if size = 0 then none
  else some ⟨ByteSize.ofNat size, known.file unitFile, known.line, name, kind⟩

end Attributes

/-- The entry to which an attribute line belongs. -/
inductive Entry where
  /-- None, or one that does not matter. -/
  | other
  /-- A compile unit. -/
  | compileUnit
  /-- A function, and what is known about it. -/
  | function (kind : FunctionKind) (known : Attributes)
  deriving DecidableEq

namespace Entry

def opened (tag : Text) : Entry :=
  if tag = "DW_TAG_compile_unit".toList then compileUnit
  else match FunctionKind.ofTag? tag with
    | some kind => function kind {}
    | none => other

/-- The sized function that an entry turns out to be when it ends. -/
def closed (unitFile : Option Text) : Entry → Option SizedFunction
  | function kind known => known.function? kind unitFile
  | _ => none

end Entry

/-- Where the reader of a dump stands: the open entry, and the name of the compile unit that the
last entries belong to, once a line has given it. -/
structure Position where
  entry : Entry := .other
  unitFile : Option Text := none
  deriving DecidableEq

namespace Position

/-- The position after a line that starts an entry. A compile unit's name is unknown at first. -/
def atEntry (position : Position) (tag : Text) : Position :=
  match Entry.opened tag with
  | .compileUnit => ⟨.compileUnit, none⟩
  | entry => ⟨entry, position.unitFile⟩

def atAttribute (position : Position) (line : Text) : Position :=
  match position.entry with
  | .other => position
  | .compileUnit => { position with unitFile := position.unitFile.or (declaredName? line) }
  | .function kind known => { position with entry := .function kind (known.absorb line) }

def closed (position : Position) : Option SizedFunction :=
  position.entry.closed position.unitFile

end Position

/-- The sized functions that end in some lines or behind the last of them, in their order. -/
def functionsFrom (position : Position) : List Text → List SizedFunction
  | [] => position.closed.toList
  | line :: rest =>
    match entryTag? line with
    | some tag => position.closed.toList ++ functionsFrom (position.atEntry tag) rest
    | none => functionsFrom (position.atAttribute line) rest

def functionsOfLines (lines : List Text) : List SizedFunction :=
  SizedFunction.sort (functionsFrom {} lines)

def functions (dump : Text) : List SizedFunction := functionsOfLines (Text.lines dump)

end BinarySize.Dump
