import BinarySize.Number

/-!
# Byte sizes

A size is a number of bytes that fits in 64 bits. Sums that do not fit stop at the largest
size, so a sum is the exact one, clamped.
-/

namespace BinarySize

structure ByteSize where
  bytes : Nat
  bytes_lt : bytes < Number.limit
  deriving DecidableEq

namespace ByteSize

def maximum : Nat := Number.limit - 1

/-- The size nearest to a number of bytes: the number itself if it fits. -/
def ofNat (n : Nat) : ByteSize where
  bytes := min n maximum
  bytes_lt := by simp only [maximum, Number.limit]; omega

instance : Zero ByteSize := ⟨ofNat 0⟩

instance : Inhabited ByteSize := ⟨0⟩

instance : Add ByteSize := ⟨fun a b => ofNat (a.bytes + b.bytes)⟩

def total (sizes : List ByteSize) : ByteSize := sizes.foldl (· + ·) 0

@[ext] theorem ext {a b : ByteSize} (h : a.bytes = b.bytes) : a = b := by
  cases a
  cases b
  simp_all

@[simp] theorem bytes_ofNat (n : Nat) : (ofNat n).bytes = min n maximum := rfl

@[simp] theorem bytes_zero : (0 : ByteSize).bytes = 0 := rfl

@[simp] theorem bytes_add (a b : ByteSize) :
    (a + b).bytes = min (a.bytes + b.bytes) maximum := rfl

theorem bytes_ofNat_of_lt {n : Nat} (h : n < Number.limit) : (ofNat n).bytes = n := by
  simp only [bytes_ofNat, maximum]
  omega

protected theorem zero_add (size : ByteSize) : 0 + size = size := by
  apply ext
  have h := size.bytes_lt
  simp only [bytes_add, bytes_zero, maximum]
  omega

/-- The number of bytes in words: `64 B`. -/
def bytesLabel (size : ByteSize) : Text := Text.decimal size.bytes ++ " B".toList

end ByteSize

end BinarySize
