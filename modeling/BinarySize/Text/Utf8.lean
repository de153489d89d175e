import BinarySize.Text.Basic

/-!
# UTF-8

Encoding, and decoding that never fails: each longest stretch of octets that starts a character
but does not complete one becomes one U+FFFD, and so does each octet that starts none. The
decoder is a machine that takes one octet at a time; its state says how many octets the pending
character still owes and in which range the next of them must be.
-/

namespace BinarySize

abbrev Octets := List UInt8

namespace Text

def toOctets (cs : Text) : Octets := cs.flatMap String.utf8EncodeChar

def octetCount (cs : Text) : Nat := (toOctets cs).length

/-- What follows the first `n` octets of a text, unless they end inside a character. -/
def dropOctets? : Nat → Text → Option Text
  | 0, cs => some cs
  | _ + 1, [] => none
  | n + 1, c :: cs => if c.utf8Size ≤ n + 1 then dropOctets? (n + 1 - c.utf8Size) cs else none

def takeOctets? : Nat → Text → Option Text
  | 0, _ => some []
  | _ + 1, [] => none
  | n + 1, c :: cs =>
    if c.utf8Size ≤ n + 1 then (takeOctets? (n + 1 - c.utf8Size) cs).map (c :: ·) else none

/-- What stands for octets that are not UTF-8. -/
def replacement : Char := '\uFFFD'

end Text

namespace Octets

/-- Where the decoder stands between two octets. -/
inductive Pending where
  /-- Between characters. -/
  | idle
  /-- Inside a character that owes `owed` octets, the next one from `least` to `greatest`;
  `value` holds the bits read so far. -/
  | inside (owed : Nat) (least greatest : Nat) (value : Nat)
  deriving DecidableEq, Repr

/-- An octet between characters: what it completes, and the state it leaves. -/
def start (octet : UInt8) : Text × Pending :=
  let n := octet.toNat
  if n < 0x80 then ([Char.ofNat n], .idle)
  else if 0xC2 ≤ n ∧ n ≤ 0xDF then ([], .inside 1 0x80 0xBF (n - 0xC0))
  else if n = 0xE0 then ([], .inside 2 0xA0 0xBF 0)
  else if n = 0xED then ([], .inside 2 0x80 0x9F 0xD)
  else if 0xE1 ≤ n ∧ n ≤ 0xEF then ([], .inside 2 0x80 0xBF (n - 0xE0))
  else if n = 0xF0 then ([], .inside 3 0x90 0xBF 0)
  else if 0xF1 ≤ n ∧ n ≤ 0xF3 then ([], .inside 3 0x80 0xBF (n - 0xF0))
  else if n = 0xF4 then ([], .inside 3 0x80 0x8F 4)
  else ([Text.replacement], .idle)

/-- One octet. An octet that cannot continue the pending character ends it with a replacement
and is then taken as one between characters. -/
def step : Pending → UInt8 → Text × Pending
  | .idle, octet => start octet
  | .inside owed least greatest value, octet =>
    let n := octet.toNat
    if least ≤ n ∧ n ≤ greatest then
      let value := value * 64 + (n - 0x80)
      if owed ≤ 1 then ([Char.ofNat value], .idle)
      else ([], .inside (owed - 1) 0x80 0xBF value)
    else
      let (found, pending) := start octet
      (Text.replacement :: found, pending)

/-- The text of the octets from a state on; a character cut off by the end is replaced. -/
def decodeFrom : Pending → Octets → Text
  | .idle, [] => []
  | .inside .., [] => [Text.replacement]
  | pending, octet :: rest =>
    let (found, pending) := step pending octet
    found ++ decodeFrom pending rest

/-- The text that octets spell in UTF-8, with replacements where they spell none. -/
def decode (octets : Octets) : Text := decodeFrom .idle octets

end Octets

end BinarySize
