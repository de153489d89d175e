import BinarySize.ByteSize
import BinarySize.Text.Recogniser

/-!
# Rows of a linker map

A row has three columns, the address, the file offset and the size, and then the description:

        Addr      Off     Size Out     In      Symbol
           -        8       10 CODE
           -       20        5         obj/a.o:(foo)

Offset and size are hexadecimal. A line that is not such a row, the column header among them,
says nothing.
-/

namespace BinarySize.LinkMap

open Text

/-- A row: its offset and size as they are written, the size they denote, and the description
without blanks at either end. -/
structure Row where
  offset : Text
  sizeToken : Text
  size : ByteSize
  description : Text
  deriving DecidableEq

/-- The number that a column's text denotes in hexadecimal, blanks at either end apart. Nothing
and a dash are zero. -/
def columnNumber? (token : Text) : Option Nat :=
  match trim token with
  | [] => some 0
  | ['-'] => some 0
  | numeral => Number.read? 16 numeral

def isHeader (line : Text) : Bool :=
  Option.isSome do
    let rest ← after? "Addr".toList (dropBlanks line)
    let rest ← afterBlanks? rest
    let rest ← after? "Off".toList rest
    let rest ← afterBlanks? rest
    let rest ← after? "Size".toList rest
    afterBlanks? rest

/-- A column, which is a run without blanks, and what follows the blanks behind it. -/
def column? (cs : Text) : Option (Text × Text) := do
  let (token, rest) ← run? (!isBlank ·) cs
  let rest ← afterBlanks? rest
  some (token, rest)

/-- The columns of a line: offset, size and description. The description does not run over a
line feed. -/
def columns? (line : Text) : Option (Text × Text × Text) := do
  let (_, rest) ← column? (dropBlanks line)
  let (offset, rest) ← column? rest
  let (sizeToken, rest) ← column? rest
  if rest.contains '\n' then none else some (offset, sizeToken, trim rest)

def row? (line : Text) : Option Row := do
  if isHeader line then none
  let (offset, sizeToken, description) ← columns? line
  let _ ← columnNumber? offset
  let size ← columnNumber? sizeToken
  some ⟨offset, sizeToken, ByteSize.ofNat size, description⟩

end BinarySize.LinkMap
