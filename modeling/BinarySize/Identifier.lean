import BinarySize.Number
import BinarySize.Text.Blank
import BinarySize.Text.Utf8

/-!
# Identifiers

Module text writes an identifier after a dollar sign, and an octet of it that the text format
does not allow as a backslash and two hexadecimal digits. Debug information carries plain names.
Neither side is sure to agree with the other, so names are compared loosely: one has to stand
inside the other.
-/

namespace BinarySize.Identifier

def hexOctet? (octet : UInt8) : Option Nat := Number.hexDigit? (Char.ofNat octet.toNat)

/-- Puts the octet it spells in place of each escape: a backslash followed by two hexadecimal
digits. A backslash that starts no escape stays. -/
def unescapeOctets : Octets → Octets
  | [] => []
  | 0x5C :: high :: low :: rest =>
    match hexOctet? high, hexOctet? low with
    | some h, some l => UInt8.ofNat (16 * h + l) :: unescapeOctets rest
    | _, _ => 0x5C :: unescapeOctets (high :: low :: rest)
  | octet :: rest => octet :: unescapeOctets rest

def unescape (identifier : Text) : Text :=
  Octets.decode (unescapeOctets (Text.toOctets identifier))

def dropSigil : Text → Text
  | '$' :: name => name
  | name => name

/-- The plain name of an identifier: escapes undone, then the dollar sign dropped. -/
def plainName (identifier : Text) : Text := dropSigil (unescape identifier)

/-- Whether one plain name stands inside the other; the empty name matches nothing. -/
def namesMatch (a b : Text) : Bool :=
  !a.isEmpty && !b.isEmpty && (Text.occursIn b a || Text.occursIn a b)

end BinarySize.Identifier
