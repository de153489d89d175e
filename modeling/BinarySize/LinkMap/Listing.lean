import BinarySize.LinkMap.Description
import BinarySize.LinkMap.Row
import BinarySize.Tally
import BinarySize.Text.Lines

/-!
# Reading a linker map

A row whose description is a section label opens that section. Every other row below the first
label is about a symbol of the open section. The linker may spread one symbol over several rows
with the same offset and size, of which only the first has the form `file:(symbol)`; the others
give the name anew and count for nothing.
-/

namespace BinarySize

/-- A symbol of a linker map. An empty file is unknown. -/
structure MapSymbol where
  sectionLabel : Text
  offset : Text
  size : ByteSize
  file : Text
  name : Text
  deriving DecidableEq

namespace LinkMap

open Text

structure Listing where
  totals : Tally
  symbols : List MapSymbol
  deriving DecidableEq

namespace Listing

def symbolsIn (listing : Listing) (label : Text) : List MapSymbol :=
  listing.symbols.filter (·.sectionLabel == label)

end Listing

/-- What two rows about one symbol have in common: the section and, as they are written, the
offset and the size. -/
structure RowKey where
  label : Text
  offset : Text
  sizeToken : Text
  deriving DecidableEq

/-- Where the reader of a map stands: the open section, the key of the last row that opened a
symbol, the totals so far, and the symbols so far, the last one first. -/
structure Reading where
  label : Option Text := none
  key : Option RowKey := none
  totals : Tally := .empty
  newest : List MapSymbol := []
  deriving DecidableEq

namespace Reading

def openSection (reading : Reading) (row : Row) : Reading :=
  { reading with
    label := some row.description
    totals := reading.totals.add row.description row.size }

/-- Gives the last symbol a new name; an empty one changes nothing. -/
def rename (name : Text) : List MapSymbol → List MapSymbol
  | symbol :: older => if name.isEmpty then symbol :: older else { symbol with name } :: older
  | [] => []

def openSymbol (reading : Reading) (key : RowKey) (row : Row) : Reading :=
  let (file, name) := splitFileSymbol row.description
  { reading with
    key := some key
    totals := reading.totals.add key.label row.size
    newest := ⟨key.label, row.offset, row.size, file, name⟩ :: reading.newest }

/-- Takes a row about a symbol of a section: another row of the last symbol if it has that
symbol's key and no delimiter, else the first one of a symbol. -/
def atSymbol (reading : Reading) (label : Text) (row : Row) : Reading :=
  let key : RowKey := ⟨label, row.offset, row.sizeToken⟩
  if reading.key = some key ∧ occursIn delimiter row.description = false then
    { reading with newest := rename row.description reading.newest }
  else reading.openSymbol key row

/-- Takes a row. Rows above the first section label are left out. -/
def atRow (reading : Reading) (row : Row) : Reading :=
  if isSectionLabel row.description then reading.openSection row
  else match reading.label with
    | none => reading
    | some label => reading.atSymbol label row

def atLine (reading : Reading) (line : Text) : Reading :=
  match row? line with
  | none => reading
  | some row => reading.atRow row

def listing (reading : Reading) : Listing := ⟨reading.totals, reading.newest.reverse⟩

end Reading

def listingOfLines (lines : List Text) : Listing :=
  (lines.foldl Reading.atLine {}).listing

def listing (map : Text) : Listing := listingOfLines (Text.lines map)

end LinkMap

end BinarySize
