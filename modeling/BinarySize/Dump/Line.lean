import BinarySize.Number
import BinarySize.Text.Digit
import BinarySize.Text.Recogniser
import BinarySize.Text.Word

/-!
# Lines of a dump

A dump of debug information is read line by line. A line either starts an entry, such as

    0x0000004e:   DW_TAG_subprogram

or shows an attribute of the entry above it, such as

    DW_AT_low_pc    (0x00000100)

and every other line says nothing. An entry starts at the beginning of its line, blanks apart;
an attribute may stand anywhere in a line, and of several the first one that is well formed
counts.
-/

namespace BinarySize.Dump

open Text

def entryTag? (line : Text) : Option Text := do
  let rest ← after? "0x".toList (dropBlanks line)
  let (_, rest) ← run? Number.isHexDigit rest
  let rest ← after? ":".toList rest
  let rest ← afterBlanks? rest
  let rest ← after? "DW_TAG_".toList rest
  let (name, _) ← run? isWordChar rest
  some ("DW_TAG_".toList ++ name)

/-- The first well-formed attribute of a label in a line: the label, blanks, and between
parentheses what `value?` reads. -/
def attribute? (label : Text) (value? : Text → Option (α × Text)) (line : Text) : Option α :=
  firstMatch (fun cs => do
    let rest ← after? label cs
    let rest ← afterBlanks? rest
    let rest ← after? "(".toList rest
    let (value, rest) ← value? rest
    let _ ← after? ")".toList rest
    some value) line

/-- A run of decimal digits, those of other scripts included. -/
def digits? : Text → Option (Text × Text) := run? isDecimalDigit

def prefixedHex? (cs : Text) : Option (Text × Text) := do
  let rest ← (after? "0x".toList cs).or (after? "0X".toList cs)
  let (digits, rest) ← run? Number.isHexDigit rest
  some (cs.take 2 ++ digits, rest)

def numeral? (cs : Text) : Option (Text × Text) := (prefixedHex? cs).or (digits? cs)

/-- The quoted name of the entry that an entry refers to, which stands behind its offset. -/
def reference? (cs : Text) : Option (Text × Text) := do
  let rest ← after? "0x".toList cs
  let (_, rest) ← run? Number.isHexDigit rest
  let rest ← afterBlanks? rest
  quotedNonempty? rest

/-- The number that an attribute's text denotes: hexadecimal after `0x` or `0X`, decimal
otherwise, blanks at either end apart. -/
def attributeNumber? (value : Text) : Option Nat :=
  match trim value with
  | '0' :: 'x' :: digits => Number.read? 16 digits
  | '0' :: 'X' :: digits => Number.read? 16 digits
  | digits => Number.read? 10 digits

def declaredName? (line : Text) : Option Text :=
  (attribute? "DW_AT_name".toList quoted? line).filter fun name => !name.isEmpty

/-- The name that a line takes over from another entry. -/
def originName? (line : Text) : Option Text :=
  attribute? "DW_AT_abstract_origin".toList reference? line

/-- The name that a line gives; one that it declares itself goes first. -/
def name? (line : Text) : Option Text := (declaredName? line).or (originName? line)

def lowPc? (line : Text) : Option Nat :=
  (attribute? "DW_AT_low_pc".toList numeral? line).bind attributeNumber?

/-- The address at which a line lets the code end, or its length. -/
def highPc? (line : Text) : Option Nat :=
  (attribute? "DW_AT_high_pc".toList numeral? line).bind attributeNumber?

def declFile? (line : Text) : Option Text :=
  attribute? "DW_AT_decl_file".toList quotedNonempty? line

def declLine? (line : Text) : Option Nat :=
  (attribute? "DW_AT_decl_line".toList digits? line).bind (Number.read? 10)

def callFile? (line : Text) : Option Text :=
  attribute? "DW_AT_call_file".toList quotedNonempty? line

def callLine? (line : Text) : Option Nat :=
  (attribute? "DW_AT_call_line".toList digits? line).bind (Number.read? 10)

end BinarySize.Dump
