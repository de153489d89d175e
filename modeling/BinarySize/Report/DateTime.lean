import BinarySize.Text.Basic

/-!
# Date and time

The moment that a report names, and its text `2024-05-01 12:30:00`. A leap second is written as
second sixty, and is held as nanoseconds beyond a billion in second fifty-nine.
-/

namespace BinarySize

structure DateTime where
  year : Int
  month : Nat
  day : Nat
  hour : Nat
  minute : Nat
  second : Nat
  nanosecond : Nat := 0
  deriving DecidableEq

namespace DateTime

/-- The numeral of a number, with as many zeros before it as the width asks for. -/
def zeroPadded (width n : Nat) : Text :=
  let digits := Text.decimal n
  List.replicate (width - digits.length) '0' ++ digits

/-- A year has at least four digits, and a sign unless it is one of the years 0 to 9999. -/
def yearText (year : Int) : Text :=
  if year < 0 then '-' :: zeroPadded 4 year.natAbs
  else if 9999 < year then '+' :: zeroPadded 4 year.natAbs
  else zeroPadded 4 year.natAbs

def dateText (t : DateTime) : Text :=
  yearText t.year ++ '-' :: zeroPadded 2 t.month ++ '-' :: zeroPadded 2 t.day

def clockText (t : DateTime) : Text :=
  zeroPadded 2 t.hour ++ ':' :: zeroPadded 2 t.minute
    ++ ':' :: zeroPadded 2 (t.second + t.nanosecond / 1000000000)

def text (t : DateTime) : Text := t.dateText ++ ' ' :: t.clockText

end DateTime

end BinarySize
