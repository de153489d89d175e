import BinarySize.Proofs.ByteSize.Rounding
import BinarySize.Proofs.Numerals

/-!
# The kilobyte column

A kilobyte label shows a number with two decimals (`shows_kilobytesLabel_iff`). It is the size over
1024, rounded twice: at most half a hundredth away for sizes of up to 53 bits, and never less for a
larger size (`kilobytesLabel_rounded`).
-/

namespace BinarySize

open Text Number

namespace ByteSize

/-- The number that a kilobyte label shows: a decimal numeral and two decimals behind a point. -/
inductive Shows : Text → ℚ → Prop
  | label {whole decimals : Text} {a b : Nat} (hwhole : IsNumeral 10 a whole)
      (hdecimals : IsNumeral 10 b decimals) (htwo : decimals.length = 2) :
      Shows (whole ++ '.' :: decimals ++ " KB".toList) (a + b / 100)

def labelOf (h : Nat) : Text :=
  decimal (h / 100) ++ ['.', Nat.digitChar (h % 100 / 10), Nat.digitChar (h % 100 % 10)]
    ++ " KB".toList

theorem kilobytesLabel_eq (size : ByteSize) : size.kilobytesLabel = labelOf size.hundredths := by
  have htens : size.hundredths % 100 / 10 < 10 := by omega
  have hones : size.hundredths % 10 < 10 := by omega
  have hmod : size.hundredths % 100 % 10 = size.hundredths % 10 := by omega
  rw [kilobytesLabel, labelOf, hmod]
  simp only [decimal, Nat.toDigits_of_lt_base htens, Nat.toDigits_of_lt_base hones]
  simp

theorem shows_labelOf_iff (h : Nat) (v : ℚ) : Shows (labelOf h) v ↔ v = h / 100 := by
  have hwhole : IsNumeral 10 (h / 100) (decimal (h / 100)) :=
    isNumeral_toDigits (by decide) (by decide) _
  have hdecimals : IsNumeral 10 (h % 100)
      [Nat.digitChar (h % 100 / 10), Nat.digitChar (h % 100 % 10)] := by
    have htens : IsNumeral 10 (h % 100 / 10) [Nat.digitChar (h % 100 / 10)] :=
      .digit (digit?_digitChar (by decide) (by omega))
    have hboth := IsNumeral.snoc htens
      (digit?_digitChar (by decide) (by omega : h % 100 % 10 < 10))
    rwa [Nat.div_add_mod'] at hboth
  have hvalue : ((h / 100 : Nat) : ℚ) + (h % 100 : Nat) / 100 = h / 100 := by
    have hcut : ((h / 100 : Nat) : ℚ) * 100 + (h % 100 : Nat) = h := by
      exact_mod_cast Nat.div_add_mod' h 100
    linarith
  constructor
  · intro hshows
    generalize hlabel : labelOf h = text at hshows
    cases hshows with
    | @label whole decimals a b ha hb htwo =>
      rw [labelOf, List.append_left_inj] at hlabel
      obtain ⟨rfl, hcons⟩ := List.append_inj' hlabel (by simp [htwo])
      obtain ⟨-, rfl⟩ := List.cons.inj hcons
      rw [hwhole.unique ha, hdecimals.unique hb] at hvalue
      exact hvalue
  · rintro rfl
    rw [← hvalue]
    exact .label hwhole hdecimals rfl

theorem shows_kilobytesLabel_iff (size : ByteSize) (v : ℚ) :
    Shows size.kilobytesLabel v ↔ v = size.hundredths / 100 := by
  rw [kilobytesLabel_eq, shows_labelOf_iff]

theorem hundredths_mono {size other : ByteSize} (h : size.bytes ≤ other.bytes) :
    size.hundredths ≤ other.hundredths :=
  roundToEven_mono (Nat.mul_le_mul_left 100 (roundToSignificand_mono h)) (by decide)

theorem shows_mono {size other : ByteSize} (h : size.bytes ≤ other.bytes) {v w : ℚ}
    (hv : Shows size.kilobytesLabel v) (hw : Shows other.kilobytesLabel w) : v ≤ w := by
  rw [shows_kilobytesLabel_iff] at hv hw
  rw [hv, hw]
  have hmono : (size.hundredths : ℚ) ≤ other.hundredths := by exact_mod_cast hundredths_mono h
  linarith

theorem abs_shows_sub_le {size : ByteSize} (h : size.bytes ≤ 2 ^ 53) {v : ℚ}
    (hv : Shows size.kilobytesLabel v) : |v - size.bytes / 1024| ≤ 1 / 200 := by
  rw [shows_kilobytesLabel_iff, hundredths, roundToSignificand_of_le h] at hv
  have hnear := abs_roundToEven_sub_le (100 * size.bytes) (by decide : 0 < 1024)
  rw [hv]
  push_cast at hnear
  rw [abs_le] at hnear ⊢
  constructor
  · linarith
  · linarith

/-- **The kilobyte column.** Let `r` be the number of bytes rounded to the nearest number with a
significand of 53 bits, and `h` the integer nearest to `100 * r / 1024`, both with ties to even.
The label shows `h` hundredths, in this form. So up to 53 bits it is at most half a hundredth away
from the size over 1024, a larger size never shows less, and the column falls wherever the sizes
do. -/
theorem kilobytesLabel_rounded (size other : ByteSize) :
    (∃ r h, (∀ s, IsNearestSignificand size.bytes s ↔ s = r) ∧
      (∀ k, IsNearestInteger (100 * r / 1024) k ↔ k = h) ∧
      size.kilobytesLabel = decimal (h / 100)
        ++ ['.', Nat.digitChar (h % 100 / 10), Nat.digitChar (h % 100 % 10)] ++ " KB".toList ∧
      ∀ v, Shows size.kilobytesLabel v ↔ v = h / 100) ∧
    (size.bytes ≤ 2 ^ 53 → ∀ v, Shows size.kilobytesLabel v →
      |v - size.bytes / 1024| ≤ 1 / 200) ∧
    (size.bytes ≤ other.bytes → ∀ v w, Shows size.kilobytesLabel v →
      Shows other.kilobytesLabel w → v ≤ w) ∧
    ∀ sizes : List ByteSize, sizes.Pairwise (fun a b => b.bytes ≤ a.bytes) →
      (sizes.map kilobytesLabel).Pairwise fun a b => ∀ v w, Shows a v → Shows b w → w ≤ v := by
  refine ⟨⟨roundToSignificand size.bytes, size.hundredths,
    isNearest_roundToSignificand_iff size.bytes, fun k => ?_, kilobytesLabel_eq size,
    shows_kilobytesLabel_iff size⟩, fun h v hv => abs_shows_sub_le h hv,
    fun h v w hv hw => shows_mono h hv hw, fun sizes hsizes => ?_⟩
  · have hrounded := isNearest_roundToEven_iff (100 * roundToSignificand size.bytes)
      (by decide : 0 < 1024) k
    push_cast at hrounded
    exact hrounded
  · exact List.pairwise_map.mpr (hsizes.imp fun h v w hv hw => shows_mono h hw hv)

/-- An eighth and three eighths of a kilobyte lie half way between two hundredths, and both show the
even one. -/
theorem kilobytesLabel_rounded_ties :
    let eighth := ofNat 128
    let more := ofNat 384
    eighth.bytes ≤ 2 ^ 53 ∧ Shows eighth.kilobytesLabel (12 / 100) ∧
      |(12 / 100 : ℚ) - eighth.bytes / 1024| ≤ 1 / 200 ∧
      eighth.bytes ≤ more.bytes ∧ Shows more.kilobytesLabel (38 / 100) ∧
      (12 / 100 : ℚ) ≤ 38 / 100 ∧
      [more, eighth].Pairwise (fun a b => b.bytes ≤ a.bytes) ∧
      ([more, eighth].map kilobytesLabel).Pairwise fun a b =>
        ∀ v w, Shows a v → Shows b w → w ≤ v := by
  intro eighth more
  have hfits : eighth.bytes ≤ 2 ^ 53 := by decide
  have hless : eighth.bytes ≤ more.bytes := by decide
  have heighth : Shows eighth.kilobytesLabel (12 / 100) := by
    rw [shows_kilobytesLabel_iff, show eighth.hundredths = 12 by decide]
    norm_num
  have hmore : Shows more.kilobytesLabel (38 / 100) := by
    rw [shows_kilobytesLabel_iff, show more.hundredths = 38 by decide]
    norm_num
  have hfalls : [more, eighth].Pairwise fun a b => b.bytes ≤ a.bytes := by simp [hless]
  have hrounded := kilobytesLabel_rounded eighth more
  exact ⟨hfits, heighth, hrounded.2.1 hfits _ heighth, hless, hmore,
    hrounded.2.2.1 hless _ _ heighth hmore, hfalls, hrounded.2.2.2 _ hfalls⟩

end ByteSize

end BinarySize
