import BinarySize.Dump.Line
import BinarySize.LinkMap.Row
import BinarySize.Proofs.Numerals

/-!
# What the number readers accept

Attributes of a dump and columns of a map hold numbers, each in a language of its own. Either reader
accepts the texts of its language that write a number of 64 bits, and no others
(`number_readers_exact`).
-/

namespace BinarySize

open Number

/-! ## Attributes -/

namespace Dump

/-- The texts that write a number as an attribute: hexadecimal behind `0x` or `0X`, or decimal. -/
inductive IsAttributeNumber (n : Nat) : Text → Prop
  | hexadecimal {x : Char} {digits : Text} (hx : x = 'x' ∨ x = 'X') (h : IsSigned 16 n digits) :
      IsAttributeNumber n ('0' :: x :: digits)
  | decimal {digits : Text} (h : IsSigned 10 n digits) : IsAttributeNumber n digits

theorem not_isSigned_prefixed {x : Char} (hx : x = 'x' ∨ x = 'X') (n : Nat) (digits : Text) :
    ¬ IsSigned 10 n ('0' :: x :: digits) := by
  intro h
  have hnumeral : IsNumeral 10 n ('0' :: x :: digits) := isSigned_iff.mp h
  obtain ⟨d, hd⟩ := hnumeral.exists_digit? x (by simp)
  rcases hx with rfl | rfl
  · cases hd
  · cases hd

theorem IsAttributeNumber.unique {n m : Nat} {cs : Text} (h : IsAttributeNumber n cs)
    (h' : IsAttributeNumber m cs) : n = m := by
  cases h with
  | hexadecimal hx h =>
    cases h' with
    | hexadecimal _ h' => exact h.unique h'
    | decimal h' => exact absurd h' (not_isSigned_prefixed hx m _)
  | decimal h =>
    cases h' with
    | hexadecimal hx _ => exact absurd h (not_isSigned_prefixed hx n _)
    | decimal h' => exact h.unique h'

theorem attributeNumber?_eq_some_iff {text : Text} {n : Nat} :
    attributeNumber? text = some n ↔ n < limit ∧ IsAttributeNumber n (Text.trim text) := by
  unfold attributeNumber?
  split
  · next digits htrim =>
    rw [htrim, read?_eq_some_iff]
    refine and_congr_right fun _ => ⟨.hexadecimal (.inl rfl), ?_⟩
    rintro (⟨-, h⟩ | h)
    · exact h
    · exact absurd h (not_isSigned_prefixed (.inl rfl) n digits)
  · next digits htrim =>
    rw [htrim, read?_eq_some_iff]
    refine and_congr_right fun _ => ⟨.hexadecimal (.inr rfl), ?_⟩
    rintro (⟨-, h⟩ | h)
    · exact h
    · exact absurd h (not_isSigned_prefixed (.inr rfl) n digits)
  · next hlower hupper =>
    rw [read?_eq_some_iff]
    refine and_congr_right fun _ => ⟨.decimal, fun h => ?_⟩
    generalize Text.trim text = trimmed at hlower hupper h
    cases h with
    | hexadecimal hx h =>
      rcases hx with rfl | rfl
      · exact absurd rfl (hlower _)
      · exact absurd rfl (hupper _)
    | decimal h => exact h

end Dump

/-! ## Columns -/

namespace LinkMap

/-- The texts that write a number in a column: nothing and a dash for zero, or hexadecimal. -/
inductive IsColumnNumber : Nat → Text → Prop
  | nothing : IsColumnNumber 0 []
  | dash : IsColumnNumber 0 ['-']
  | numeral {n : Nat} {digits : Text} (h : IsSigned 16 n digits) : IsColumnNumber n digits

theorem not_isSigned_nil (n : Nat) : ¬ IsSigned 16 n [] := fun h =>
  (isSigned_iff.mp h).ne_nil rfl

theorem not_isSigned_dash (n : Nat) : ¬ IsSigned 16 n ['-'] := by
  intro h
  have hnumeral : IsNumeral 16 n ['-'] := isSigned_iff.mp h
  exact absurd (hnumeral.isHexDigit_of_mem '-' List.mem_cons_self) (by decide)

theorem IsColumnNumber.unique {n m : Nat} {cs : Text} (h : IsColumnNumber n cs)
    (h' : IsColumnNumber m cs) : n = m := by
  cases h with
  | nothing =>
    cases h' with
    | nothing => rfl
    | numeral h' => exact absurd h' (not_isSigned_nil m)
  | dash =>
    cases h' with
    | dash => rfl
    | numeral h' => exact absurd h' (not_isSigned_dash m)
  | numeral h =>
    cases h' with
    | nothing => exact absurd h (not_isSigned_nil n)
    | dash => exact absurd h (not_isSigned_dash n)
    | numeral h' => exact h.unique h'

theorem columnNumber?_eq_some_iff {token : Text} {n : Nat} :
    columnNumber? token = some n ↔ n < limit ∧ IsColumnNumber n (Text.trim token) := by
  have hzero : ∀ {cs : Text}, IsColumnNumber 0 cs →
      (some 0 = some n ↔ n < limit ∧ IsColumnNumber n cs) := by
    intro cs hcs
    constructor
    · rintro ⟨⟩
      exact ⟨by decide, hcs⟩
    · rintro ⟨-, h⟩
      exact congrArg some (hcs.unique h)
  unfold columnNumber?
  split
  · next htrim => rw [htrim, hzero .nothing]
  · next htrim => rw [htrim, hzero .dash]
  · next hnothing hdash =>
    rw [read?_eq_some_iff]
    refine and_congr_right fun _ => ⟨.numeral, fun h => ?_⟩
    generalize Text.trim token = trimmed at hnothing hdash h
    cases h with
    | nothing => exact absurd rfl hnothing
    | dash => exact absurd rfl hdash
    | numeral h => exact h

end LinkMap

/-! ## Both -/

/-- **Number readers.** A text is read as a number exactly if, blanks at its ends apart, it writes
that number in the language of its reader and the number fits in 64 bits. A text that writes a
larger number is not read at all. The digits of either base are the ASCII ones, and zeros in front
of them make no difference, however many they are. A reader that works with 64 bits and stops where
a partial value does not fit reads the same. -/
theorem number_readers_exact (text : Text) (n : Nat) :
    (Dump.attributeNumber? text = some n ↔
      n < 2 ^ 64 ∧ Dump.IsAttributeNumber n (Text.trim text)) ∧
    (LinkMap.columnNumber? text = some n ↔
      n < 2 ^ 64 ∧ LinkMap.IsColumnNumber n (Text.trim text)) ∧
    (2 ^ 64 ≤ n → (Dump.IsAttributeNumber n (Text.trim text) → Dump.attributeNumber? text = none) ∧
      (LinkMap.IsColumnNumber n (Text.trim text) → LinkMap.columnNumber? text = none)) ∧
    ∀ base digits, (base = 10 ∨ base = 16) → digits ≠ [] →
      (∀ c d, digit? base c = some d ↔
        d < base ∧ (c = Nat.digitChar d ∨ c = (Nat.digitChar d).toUpper)) ∧
      (∀ k, IsNumeral base n (List.replicate k '0' ++ digits) ↔ IsNumeral base n digits) ∧
      (appendFitting? base 0 digits = some n ↔ n < 2 ^ 64 ∧ IsNumeral base n digits) := by
  have hlimit : limit = 2 ^ 64 := by decide
  refine ⟨?attributes, ?columns, ?large, ?digits⟩
  case attributes => rw [← hlimit, Dump.attributeNumber?_eq_some_iff]
  case columns => rw [← hlimit, LinkMap.columnNumber?_eq_some_iff]
  case large =>
    intro hn
    refine ⟨fun h => Option.eq_none_iff_forall_ne_some.mpr fun m hm => ?_,
      fun h => Option.eq_none_iff_forall_ne_some.mpr fun m hm => ?_⟩
    · obtain ⟨hlt, hm⟩ := Dump.attributeNumber?_eq_some_iff.mp hm
      have heq := h.unique hm
      omega
    · obtain ⟨hlt, hm⟩ := LinkMap.columnNumber?_eq_some_iff.mp hm
      have heq := h.unique hm
      omega
  case digits =>
    intro base digits hbase hdigits
    have hpos : 0 < base := by omega
    refine ⟨fun c d => digit?_eq_some_iff (by omega), isNumeral_zeros hpos hdigits, ?_⟩
    rw [appendFitting?_eq hpos (by decide), Option.filter_eq_some_iff, isNumeral_iff, ← hlimit]
    simp [hdigits, and_comm]

/-- The largest number of 64 bits with zeros in front of it, and the next one, which neither reader
takes and which does not fit digit by digit either. -/
theorem number_readers_exact_limit :
    let largest := "\t0X+000FFFFFFFFffffffff ".toList
    let decimal := " +18446744073709551616".toList
    let hexadecimal := "10000000000000000".toList
    Dump.attributeNumber? largest = some (2 ^ 64 - 1) ∧
      2 ^ 64 ≤ 2 ^ 64 ∧ Dump.attributeNumber? decimal = none ∧
      LinkMap.columnNumber? hexadecimal = none ∧
      (16 = 10 ∨ 16 = 16) ∧ hexadecimal ≠ [] ∧ appendFitting? 16 0 hexadecimal ≠ some (2 ^ 64) := by
  intro largest decimal hexadecimal
  have hlargest : Dump.IsAttributeNumber (2 ^ 64 - 1) (Text.trim largest) := by
    have htrim : Text.trim largest = '0' :: 'X' :: "+000FFFFFFFFffffffff".toList := by
      decide +kernel
    rw [htrim]
    exact .hexadecimal (.inr rfl) (isSigned_iff.mpr (by decide +kernel))
  have hdecimal : Dump.IsAttributeNumber (2 ^ 64) (Text.trim decimal) :=
    .decimal (isSigned_iff.mpr (by decide +kernel))
  have hhexadecimal : LinkMap.IsColumnNumber (2 ^ 64) (Text.trim hexadecimal) :=
    .numeral (isSigned_iff.mpr (by decide +kernel))
  have hbase : 16 = 10 ∨ 16 = 16 := .inr rfl
  have hne : hexadecimal ≠ [] := by decide +kernel
  refine ⟨(number_readers_exact largest _).1.mpr ⟨by decide, hlargest⟩, Nat.le_refl _,
    ((number_readers_exact decimal _).2.2.1 (Nat.le_refl _)).1 hdecimal,
    ((number_readers_exact hexadecimal _).2.2.1 (Nat.le_refl _)).2 hhexadecimal, hbase, hne,
    fun h => ?_⟩
  have hfits := ((number_readers_exact hexadecimal _).2.2.2 16 _ hbase hne).2.2.mp h
  exact absurd hfits.1 (Nat.lt_irrefl _)

end BinarySize
