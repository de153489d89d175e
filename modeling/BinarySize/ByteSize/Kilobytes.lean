import BinarySize.ByteSize

/-!
# Kilobytes

The kilobyte column shows a size divided by 1024 with two decimals. The quotient is held with a
significand of 53 bits, so two roundings are made, both to the nearest with ties to the even
neighbour: of the number of bytes to 53 significant bits, and of the quotient to hundredths.
Dividing by 1024 only moves the binary point and rounds nothing. All of it is exact arithmetic
on natural numbers.
-/

namespace BinarySize

/-- The integer nearest to a quotient; of two equally near ones, the even one. -/
def roundToEven (num den : Nat) : Nat :=
  let quotient := num / den
  let twice := 2 * (num % den)
  if twice < den then quotient
  else if den < twice then quotient + 1
  else quotient + quotient % 2

def roundToSignificand (n : Nat) : Nat :=
  if n < 1 <<< 53 then n
  else
    let unit := 1 <<< (n.log2 - 52)
    roundToEven n unit * unit

namespace ByteSize

def hundredths (size : ByteSize) : Nat :=
  roundToEven (100 * roundToSignificand size.bytes) 1024

/-- The size in kilobytes in words: `0.06 KB`. -/
def kilobytesLabel (size : ByteSize) : Text :=
  let h := size.hundredths
  Text.decimal (h / 100) ++ '.' :: Text.decimal (h % 100 / 10) ++ Text.decimal (h % 10)
    ++ " KB".toList

/-- The size in kilobytes as the bit pattern of a binary64 number: eleven bits for the exponent
plus 1023 and then the significand's 52 bits below the leading one. -/
def kilobytesBits (size : ByteSize) : Nat :=
  let r := roundToSignificand size.bytes
  if r = 0 then 0
  else (1013 + r.log2) <<< 52 + (r <<< 52 >>> r.log2 - 1 <<< 52)

end ByteSize

end BinarySize
