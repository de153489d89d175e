import BinarySize.Number
import BinarySize.Text.Blank
import BinarySize.Text.Digit
import Mathlib.Data.List.Induction
import Mathlib.Tactic.IntervalCases

/-!
# Written numbers

A number is written as one digit, or as another number and one more digit behind it; zeros in
front do no harm (`isNumeral_zeros`). Every number can be written in every base up to sixteen
(`isNumeral_toDigits`), and the reader of numerals accepts exactly the written numbers that fit in
64 bits (`read?_eq_some_iff`). It makes no difference whether that is asked of the number or of
every partial value on the way to it (`appendFitting?_eq`).
-/

namespace BinarySize.Number

open Text

/-! ## Digits -/

/-- Hexadecimal digits are ASCII digits and letters. -/
theorem toNat_of_isHexDigit {c : Char} (h : isHexDigit c = true) :
    48 ≤ c.toNat ∧ c.toNat ≤ 57 ∨ 97 ≤ c.toNat ∧ c.toNat ≤ 102 ∨ 65 ≤ c.toNat ∧ c.toNat ≤ 70 := by
  unfold isHexDigit hexDigit? at h
  split at h
  · next hdigit => exact .inl hdigit
  · split at h
    · next hlower => exact .inr (.inl hlower)
    · split at h
      · next hupper => exact .inr (.inr hupper)
      · cases h

theorem isBlank_of_isHexDigit {c : Char} (h : isHexDigit c = true) : isBlank c = false := by
  have hrange := toNat_of_isHexDigit h
  simp only [isBlank, Bool.or_eq_false_iff, Bool.and_eq_false_iff, decide_eq_false_iff_not,
    beq_eq_false_iff_ne]
  omega

theorem isHexDigit_of_isBlank {c : Char} (h : isBlank c = true) : isHexDigit c = false := by
  rw [← Bool.not_eq_true]
  intro hdigit
  rw [isBlank_of_isHexDigit hdigit] at h
  cases h

theorem isHexDigit_of_digit? {base d : Nat} {c : Char} (h : digit? base c = some d) :
    isHexDigit c = true := by
  rw [isHexDigit, (Option.filter_eq_some_iff.mp h).1]
  rfl

theorem isDecimalDigit_of_digit? {d : Nat} {c : Char} (h : digit? 10 c = some d) :
    isDecimalDigit c = true := by
  obtain ⟨hhex, hlt⟩ := Option.filter_eq_some_iff.mp h
  have hrange := toNat_of_isHexDigit (isHexDigit_of_digit? h)
  have hdigit : c.isDigit = true := by
    unfold hexDigit? at hhex
    split at hhex
    · next hdigit =>
      exact Bool.and_eq_true_iff.mpr ⟨decide_eq_true hdigit.1, decide_eq_true hdigit.2⟩
    · have hlt' := of_decide_eq_true hlt
      split at hhex
      · cases hhex
        omega
      · split at hhex
        · cases hhex
          omega
        · cases hhex
  rw [isDecimalDigit, if_pos (by omega), hdigit]

/-- The digits of a base are those of the standard numerals, letters of either case. -/
theorem digit?_eq_some_iff {base d : Nat} {c : Char} (hbase : base ≤ 16) :
    digit? base c = some d ↔
      d < base ∧ (c = Nat.digitChar d ∨ c = (Nat.digitChar d).toUpper) := by
  rw [digit?, Option.filter_eq_some_iff, decide_eq_true_iff, and_comm]
  refine and_congr_right fun hd => ⟨fun h => ?_, ?_⟩
  · have hrange : isHexDigit c = true := by rw [isHexDigit, h]; rfl
    have hrange := toNat_of_isHexDigit hrange
    rw [← Char.ofNat_toNat c] at h ⊢
    generalize c.toNat = code at h hrange
    rcases hrange with ⟨hlow, hhigh⟩ | ⟨hlow, hhigh⟩ | ⟨hlow, hhigh⟩
    · interval_cases code <;> cases h <;> decide
    · interval_cases code <;> cases h <;> decide
    · interval_cases code <;> cases h <;> decide
  · have hdigits : ∀ d < 16, hexDigit? (Nat.digitChar d) = some d ∧
        hexDigit? (Nat.digitChar d).toUpper = some d := by decide
    obtain ⟨hlower, hupper⟩ := hdigits d (by omega)
    rintro (rfl | rfl)
    · exact hlower
    · exact hupper

/-! ## Numerals -/

/-- The texts that write a number in a base, most significant digit first. -/
inductive IsNumeral (base : Nat) : Nat → Text → Prop
  | digit {c : Char} {d : Nat} (h : digit? base c = some d) : IsNumeral base d [c]
  | snoc {n d : Nat} {c : Char} {cs : Text} (hcs : IsNumeral base n cs)
      (h : digit? base c = some d) : IsNumeral base (n * base + d) (cs ++ [c])

theorem appendDigits?_concat (base n : Nat) (cs : Text) (c : Char) :
    appendDigits? base n (cs ++ [c]) =
      (appendDigits? base n cs).bind fun m => (digit? base c).map (m * base + ·) := by
  induction cs generalizing n with
  | nil =>
    rw [List.nil_append, appendDigits?, appendDigits?]
    cases digit? base c <;> rfl
  | cons d cs ih =>
    rw [List.cons_append, appendDigits?, appendDigits?]
    cases digit? base d with
    | none => rfl
    | some value => exact ih _

theorem isNumeral_iff {base n : Nat} {cs : Text} :
    IsNumeral base n cs ↔ cs ≠ [] ∧ appendDigits? base 0 cs = some n := by
  constructor
  · intro h
    induction h with
    | digit h => exact ⟨List.cons_ne_nil _ _, by simp [appendDigits?, h]⟩
    | snoc hcs h ih => exact ⟨by simp, by rw [appendDigits?_concat, ih.2, h]; rfl⟩
  · rintro ⟨hne, h⟩
    induction cs using List.reverseRecOn generalizing n with
    | nil => exact absurd rfl hne
    | append_singleton cs c ih =>
      rw [appendDigits?_concat, Option.bind_eq_some_iff] at h
      obtain ⟨m, hm, hc⟩ := h
      obtain ⟨d, hd, rfl⟩ := Option.map_eq_some_iff.mp hc
      by_cases hcs : cs = []
      · subst hcs
        cases hm
        rw [Nat.zero_mul, Nat.zero_add]
        exact .digit hd
      · exact .snoc (ih hcs hm) hd

instance (base n : Nat) (cs : Text) : Decidable (IsNumeral base n cs) :=
  decidable_of_iff _ isNumeral_iff.symm

theorem digit?_digitChar {base d : Nat} (hbase : base ≤ 16) (hd : d < base) :
    digit? base (Nat.digitChar d) = some d :=
  (digit?_eq_some_iff hbase).mpr ⟨hd, .inl rfl⟩

theorem isNumeral_toDigits {base : Nat} (hlow : 1 < base) (hhigh : base ≤ 16) (n : Nat) :
    IsNumeral base n (Nat.toDigits base n) := by
  induction n using Nat.strongRecOn with
  | ind n ih =>
    by_cases hn : n < base
    · rw [Nat.toDigits_of_lt_base hn]
      exact .digit (digit?_digitChar hhigh hn)
    · have hpos : 0 < n / base := Nat.div_pos (by omega) (by omega)
      have hmod : n % base < base := Nat.mod_lt n (by omega)
      have hcut := Nat.toDigits_append_toDigits hlow hpos hmod
      rw [Nat.div_add_mod, Nat.toDigits_of_lt_base hmod] at hcut
      have hless : n / base < n := Nat.div_lt_self (by omega) hlow
      have hsnoc := IsNumeral.snoc (ih (n / base) hless) (digit?_digitChar hhigh hmod)
      rwa [hcut, Nat.div_add_mod'] at hsnoc

namespace IsNumeral

variable {base n : Nat} {cs : Text}

theorem ne_nil (h : IsNumeral base n cs) : cs ≠ [] := (isNumeral_iff.mp h).1

theorem exists_digit? (h : IsNumeral base n cs) : ∀ c ∈ cs, ∃ d, digit? base c = some d := by
  induction h with
  | digit h =>
    intro c hc
    rw [List.mem_singleton.mp hc]
    exact ⟨_, h⟩
  | snoc hcs h ih =>
    intro c hc
    rcases List.mem_append.mp hc with hc | hc
    · exact ih c hc
    · rw [List.mem_singleton.mp hc]
      exact ⟨_, h⟩

theorem isHexDigit_of_mem (h : IsNumeral base n cs) : ∀ c ∈ cs, isHexDigit c = true := by
  intro c hc
  obtain ⟨d, hd⟩ := h.exists_digit? c hc
  exact isHexDigit_of_digit? hd

theorem unique {m : Nat} (h : IsNumeral base n cs) (h' : IsNumeral base m cs) : n = m :=
  Option.some.inj ((isNumeral_iff.mp h).2.symm.trans (isNumeral_iff.mp h').2)

theorem unsigned_eq (h : IsNumeral base n cs) : unsigned cs = cs := by
  unfold unsigned
  split
  · next digits => exact absurd (h.isHexDigit_of_mem '+' List.mem_cons_self) (by decide)
  · rfl

end IsNumeral

/-! ## Signs -/

/-- The texts that write a number with at most one plus sign before its digits. -/
inductive IsSigned (base n : Nat) : Text → Prop
  | plain {digits : Text} (h : IsNumeral base n digits) : IsSigned base n digits
  | plus {digits : Text} (h : IsNumeral base n digits) : IsSigned base n ('+' :: digits)

theorem isSigned_iff {base n : Nat} {cs : Text} :
    IsSigned base n cs ↔ IsNumeral base n (unsigned cs) := by
  constructor
  · rintro (h | h)
    · rwa [h.unsigned_eq]
    · exact h
  · intro h
    unfold unsigned at h
    split at h
    · exact .plus h
    · exact .plain h

theorem IsSigned.unique {base n m : Nat} {cs : Text} (h : IsSigned base n cs)
    (h' : IsSigned base m cs) : n = m :=
  (isSigned_iff.mp h).unique (isSigned_iff.mp h')

/-- The reader accepts the numerals that fit in 64 bits, with or without a sign, and nothing
else. -/
theorem read?_eq_some_iff {base n : Nat} {cs : Text} :
    read? base cs = some n ↔ n < limit ∧ IsSigned base n cs := by
  rw [isSigned_iff, isNumeral_iff, read?]
  split
  · next hnil => simp [hnil]
  · next hne =>
    have hdigits : unsigned cs ≠ [] := hne
    rw [Option.filter_eq_some_iff, decide_eq_true_iff, and_comm]
    simp only [ne_eq, hdigits, not_false_eq_true, true_and]

theorem IsNumeral.read? {base n : Nat} {cs : Text} (h : IsNumeral base n cs) (hn : n < limit) :
    Number.read? base cs = some n :=
  read?_eq_some_iff.mpr ⟨hn, .plain h⟩

/-! ## Zeros in front -/

theorem digit?_zero {base : Nat} (h : 0 < base) : digit? base '0' = some 0 :=
  Option.filter_eq_some_iff.mpr ⟨rfl, decide_eq_true h⟩

theorem appendDigits?_zeros {base : Nat} (h : 0 < base) (k : Nat) (cs : Text) :
    appendDigits? base 0 (List.replicate k '0' ++ cs) = appendDigits? base 0 cs := by
  induction k with
  | zero => rfl
  | succ k ih =>
    rw [List.replicate_succ, List.cons_append, appendDigits?, digit?_zero h]
    simp only [Nat.zero_mul, Nat.add_zero]
    exact ih

/-- Zeros in front of a numeral do not change its number. -/
theorem isNumeral_zeros {base n : Nat} {cs : Text} (hbase : 0 < base) (hcs : cs ≠ []) (k : Nat) :
    IsNumeral base n (List.replicate k '0' ++ cs) ↔ IsNumeral base n cs := by
  rw [isNumeral_iff, isNumeral_iff, appendDigits?_zeros hbase]
  simp [hcs]

/-! ## Partial values -/

/-- The number whose digits are those of `n` followed by the given ones, read in 64 bits: the
first partial value that does not fit ends the reading. -/
def appendFitting? (base : Nat) : Nat → Text → Option Nat
  | n, [] => some n
  | n, c :: cs =>
    match digit? base c with
    | none => none
    | some d => if n * base + d < limit then appendFitting? base (n * base + d) cs else none

/-- Partial values only grow. -/
theorem le_of_appendDigits? {base : Nat} (hbase : 0 < base) {n m : Nat} {cs : Text}
    (h : appendDigits? base n cs = some m) : n ≤ m := by
  induction cs generalizing n with
  | nil =>
    cases h
    exact Nat.le_refl _
  | cons c cs ih =>
    rw [appendDigits?] at h
    split at h
    · cases h
    · next d _ =>
      have hgrow : n ≤ n * base := Nat.le_mul_of_pos_right n hbase
      have hrest := ih h
      omega

/-- So a partial value that does not fit shows that the number does not. -/
theorem appendFitting?_eq {base : Nat} (hbase : 0 < base) {n : Nat} (hn : n < limit) (cs : Text) :
    appendFitting? base n cs = (appendDigits? base n cs).filter (· < limit) := by
  induction cs generalizing n with
  | nil =>
    have hkept : (some n).filter (fun m => decide (m < limit)) = some n :=
      Option.filter_eq_some_iff.mpr ⟨rfl, decide_eq_true hn⟩
    exact hkept.symm
  | cons c cs ih =>
    rw [appendFitting?, appendDigits?]
    cases digit? base c with
    | none => rfl
    | some d =>
      by_cases hfits : n * base + d < limit
      · simp only [if_pos hfits]
        exact ih hfits
      · simp only [if_neg hfits]
        refine (Option.filter_eq_none_iff.mpr fun m hm => ?_).symm
        have hle := le_of_appendDigits? hbase hm
        simpa using Nat.le_trans (Nat.le_of_not_lt hfits) hle

end BinarySize.Number
