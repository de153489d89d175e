import BinarySize.Text.Basic

/-!
# Numerals

Readers for the numbers of the inputs. A numeral is one or more digits of a base, with at most
one plus sign before them and any number of leading zeros, and it is read only if its value
fits in 64 bits. Digits are ASCII digits and letters of either case.
-/

namespace BinarySize.Number

def limit : Nat := 1 <<< 64

def hexDigit? (c : Char) : Option Nat :=
  if '0' ≤ c ∧ c ≤ '9' then some (c.toNat - '0'.toNat)
  else if 'a' ≤ c ∧ c ≤ 'f' then some (c.toNat - 'a'.toNat + 10)
  else if 'A' ≤ c ∧ c ≤ 'F' then some (c.toNat - 'A'.toNat + 10)
  else none

def isHexDigit (c : Char) : Bool := (hexDigit? c).isSome

def digit? (base : Nat) (c : Char) : Option Nat :=
  (hexDigit? c).filter (· < base)

/-- The number whose digits are those of `n` followed by the given ones. -/
def appendDigits? (base : Nat) : Nat → Text → Option Nat
  | n, [] => some n
  | n, c :: cs =>
    match digit? base c with
    | none => none
    | some d => appendDigits? base (n * base + d) cs

def unsigned : Text → Text
  | '+' :: digits => digits
  | digits => digits

/-- The number that a numeral denotes, if it is one and fits in 64 bits. -/
def read? (base : Nat) (numeral : Text) : Option Nat :=
  match unsigned numeral with
  | [] => none
  | digits => (appendDigits? base 0 digits).filter (· < limit)

theorem lt_limit_of_read? {base n : Nat} {numeral : Text} (h : read? base numeral = some n) :
    n < limit := by
  unfold read? at h
  split at h
  · cases h
  · rw [Option.filter_eq_some_iff] at h
    exact of_decide_eq_true h.2

end BinarySize.Number
