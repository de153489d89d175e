import BinarySize.ByteSize.Kilobytes
import Mathlib.Algebra.Order.Field.Rat
import Mathlib.Algebra.Order.Ring.Abs
import Mathlib.Tactic.Linarith
import Mathlib.Tactic.LinearCombination
import Mathlib.Tactic.Positivity
import Mathlib.Tactic.Ring

/-!
# Rounding to the nearest

Both roundings of the kilobyte column choose, among the numbers of some kind, a nearest one to a
point, and of two that are equally near the one that is even in its kind. Proved here:

* `isNearest_roundToEven_iff`: rounding a quotient gives the integer that is nearest in this sense;
* `isNearest_roundToSignificand_iff`: rounding to 53 significant bits gives the nearest number with
  a significand of that length, where the even ones have a significand of one bit less;
* `IsNearest.le_of_lt`: roundings of the same kind keep the order of their points.
-/

namespace BinarySize

/-- `m` is an allowed number, no other is nearer to the point `x`, and if another is as near, `m` is
an even one. -/
structure IsNearest (allowed even : Nat → Prop) (x : ℚ) (m : Nat) : Prop where
  isAllowed : allowed m
  nearest : ∀ k, allowed k → |(m : ℚ) - x| ≤ |(k : ℚ) - x|
  ties : ∀ k, allowed k → k ≠ m → |(k : ℚ) - x| = |(m : ℚ) - x| → even m

/-! ## Distances -/

/-- The greater of two numbers is no farther from a point that lies no lower than half way. -/
theorem greater_nearer_iff {a b x : ℚ} (h : a < b) : |b - x| ≤ |a - x| ↔ a + b ≤ 2 * x := by
  rw [← sq_le_sq]
  constructor
  · intro hle
    nlinarith
  · intro hle
    nlinarith

theorem lesser_nearer_iff {a b x : ℚ} (h : a < b) : |a - x| ≤ |b - x| ↔ 2 * x ≤ a + b := by
  rw [← sq_le_sq]
  constructor
  · intro hle
    nlinarith
  · intro hle
    nlinarith

namespace IsNearest

variable {allowed even : Nat → Prop} {x y : ℚ} {k m : Nat}

theorem add_le (h : IsNearest allowed even x m) (hk : allowed k) (hlt : k < m) :
    (k : ℚ) + m ≤ 2 * x :=
  (greater_nearer_iff (by exact_mod_cast hlt)).mp (h.nearest k hk)

theorem le_add (h : IsNearest allowed even x m) (hk : allowed k) (hlt : m < k) :
    2 * x ≤ (m : ℚ) + k :=
  (lesser_nearer_iff (by exact_mod_cast hlt)).mp (h.nearest k hk)

theorem le_of_lt (h : IsNearest allowed even x m) (h' : IsNearest allowed even y k) (hxy : x < y) :
    m ≤ k := by
  by_contra hlt
  have hbelow := h.add_le h'.isAllowed (Nat.lt_of_not_le hlt)
  have habove := h'.le_add h.isAllowed (Nat.lt_of_not_le hlt)
  linarith

/-- Two numbers that are nearest to one point lie at the same distance on its two sides, and both
are even. -/
theorem eq_or_midpoint (h : IsNearest allowed even x k) (h' : IsNearest allowed even x m)
    (hlt : k < m) : even k ∧ even m ∧ (k : ℚ) + m = 2 * x := by
  have heq : |(m : ℚ) - x| = |(k : ℚ) - x| :=
    le_antisymm (h'.nearest k h.isAllowed) (h.nearest m h'.isAllowed)
  exact ⟨h.ties m h'.isAllowed hlt.ne' heq, h'.ties k h.isAllowed hlt.ne heq.symm,
    le_antisymm (h'.add_le h.isAllowed hlt) (h.le_add h'.isAllowed hlt)⟩

/-- If there is an allowed number between any two even ones around a point, only one number is
nearest to it. -/
theorem unique (hbetween : ∀ k m, allowed k → allowed m → even k → even m → k < m →
      (k : ℚ) + m = 2 * x → ∃ l, allowed l ∧ k < l ∧ l < m)
    (h : IsNearest allowed even x k) (h' : IsNearest allowed even x m) : k = m := by
  have hone : ∀ {k m}, IsNearest allowed even x k → IsNearest allowed even x m → ¬ k < m := by
    intro k m h h' hlt
    obtain ⟨hk, hm, hmid⟩ := h.eq_or_midpoint h' hlt
    obtain ⟨l, hl, hkl, hlm⟩ := hbetween k m h.isAllowed h'.isAllowed hk hm hlt hmid
    have hfar := h.le_add hl hkl
    have hlm' : (l : ℚ) < m := by exact_mod_cast hlm
    linarith
  rcases Nat.lt_trichotomy k m with hlt | heq | hlt
  · exact absurd hlt (hone h h')
  · exact heq
  · exact absurd hlt (hone h' h)

end IsNearest

/-! ## Quotients -/

def IsNearestInteger (x : ℚ) (m : Nat) : Prop := IsNearest (fun _ => True) Even x m

/-- A rounded quotient lies at most half way to its neighbours, and exactly half way only if it is
even. -/
theorem roundToEven_bounds (num : Nat) {den : Nat} (hden : 0 < den) :
    2 * num ≤ 2 * (roundToEven num den * den) + den ∧
      2 * (roundToEven num den * den) ≤ 2 * num + den ∧
      (2 * num = 2 * (roundToEven num den * den) + den → Even (roundToEven num den)) ∧
      (2 * (roundToEven num den * den) = 2 * num + den → Even (roundToEven num den)) := by
  have hcut : num / den * den + num % den = num := Nat.div_add_mod' num den
  have hmod : num % den < den := Nat.mod_lt num hden
  have hnext : (num / den + 1) * den = num / den * den + den := Nat.succ_mul _ _
  simp only [roundToEven]
  split
  · omega
  · split
    · rw [hnext]
      omega
    · rcases Nat.mod_two_eq_zero_or_one (num / den) with heven | hodd
      · rw [heven, Nat.add_zero]
        have hq : Even (num / den) := Nat.even_iff.mpr heven
        exact ⟨by omega, by omega, fun _ => hq, fun _ => hq⟩
      · rw [hodd, hnext]
        have hq : Even (num / den + 1) := (Nat.odd_iff.mpr hodd).add_one
        exact ⟨by omega, by omega, fun _ => hq, fun _ => hq⟩

theorem abs_roundToEven_sub_le (num : Nat) {den : Nat} (hden : 0 < den) :
    |(roundToEven num den : ℚ) - num / den| ≤ 1 / 2 := by
  obtain ⟨hlow, hhigh, -, -⟩ := roundToEven_bounds num hden
  have hpos : (0 : ℚ) < den := by exact_mod_cast hden
  have hlow' : 2 * (num : ℚ) ≤ 2 * (roundToEven num den * den) + den := by exact_mod_cast hlow
  have hhigh' : 2 * ((roundToEven num den : ℚ) * den) ≤ 2 * num + den := by exact_mod_cast hhigh
  have hcancel : (num : ℚ) / den * den = num := div_mul_cancel₀ _ hpos.ne'
  rw [abs_le]
  constructor
  · nlinarith
  · nlinarith

/-- Rounding a quotient gives the nearest integer. -/
theorem isNearestInteger_roundToEven (num : Nat) {den : Nat} (hden : 0 < den) :
    IsNearestInteger (num / den) (roundToEven num den) := by
  obtain ⟨-, -, hlow, hhigh⟩ := roundToEven_bounds num hden
  have hhalf := abs_le.mp (abs_roundToEven_sub_le num hden)
  have hpos : (0 : ℚ) < den := by exact_mod_cast hden
  have hcancel : (num : ℚ) / den * den = num := div_mul_cancel₀ _ hpos.ne'
  generalize (num : ℚ) / den = x at hhalf hcancel ⊢
  generalize roundToEven num den = m at hlow hhigh hhalf ⊢
  refine ⟨trivial, fun k _ => ?nearest, fun k _ hne heq => ?ties⟩
  case nearest =>
    rcases Nat.lt_trichotomy k m with hlt | rfl | hlt
    · have hlt' : (k : ℚ) + 1 ≤ m := by exact_mod_cast hlt
      exact (greater_nearer_iff (by linarith)).mpr (by linarith)
    · exact le_rfl
    · have hlt' : (m : ℚ) + 1 ≤ k := by exact_mod_cast hlt
      exact (lesser_nearer_iff (by linarith)).mpr (by linarith)
  case ties =>
    -- another integer is as near only if the point is half way between the two
    rcases Nat.lt_or_gt_of_ne hne with hlt | hlt
    · have hlt' : (k : ℚ) + 1 ≤ m := by exact_mod_cast hlt
      have hmid := (lesser_nearer_iff (by linarith)).mp heq.le
      refine hhigh ?_
      have hpoint : 2 * x = 2 * m - 1 := by linarith
      have hnum : 2 * ((m : ℚ) * den) = 2 * num + den := by
        rw [← hcancel]
        linear_combination -(den : ℚ) * hpoint
      exact_mod_cast hnum
    · have hlt' : (m : ℚ) + 1 ≤ k := by exact_mod_cast hlt
      have hmid := (greater_nearer_iff (by linarith)).mp heq.le
      refine hlow ?_
      have hpoint : 2 * x = 2 * m + 1 := by linarith
      have hnum : 2 * (num : ℚ) = 2 * (m * den) + den := by
        rw [← hcancel]
        linear_combination (den : ℚ) * hpoint
      exact_mod_cast hnum

theorem isNearestInteger_unique {x : ℚ} {k m : Nat} (h : IsNearestInteger x k)
    (h' : IsNearestInteger x m) : k = m := by
  refine IsNearest.unique (fun k m _ _ hk hm hlt _ => ⟨k + 1, trivial, Nat.lt_succ_self k, ?_⟩) h h'
  have hne : m ≠ k + 1 := by
    rintro rfl
    exact Nat.even_add_one.mp hm hk
  omega

/-- Rounding a quotient gives the nearest integer, and there is no other. -/
theorem isNearest_roundToEven_iff (num : Nat) {den : Nat} (hden : 0 < den) (m : Nat) :
    IsNearestInteger (num / den) m ↔ m = roundToEven num den := by
  constructor
  · exact fun h => isNearestInteger_unique h (isNearestInteger_roundToEven num hden)
  · rintro rfl
    exact isNearestInteger_roundToEven num hden

/-! ## Significands -/

def HasSignificand (bits r : Nat) : Prop := ∃ m e, m < 2 ^ bits ∧ r = m * 2 ^ e

/-- `r` is the number with a significand of 53 bits that is nearest to `n`, ties to even: a
significand that ends with a zero is one of 52 bits. -/
def IsNearestSignificand (n r : Nat) : Prop :=
  IsNearest (HasSignificand 53) (HasSignificand 52) n r

theorem hasSignificand_of_le {bits q : Nat} (hbits : 0 < bits) (h : q ≤ 2 ^ bits) (e : Nat) :
    HasSignificand bits (q * 2 ^ e) := by
  rcases Nat.lt_or_eq_of_le h with hlt | rfl
  · exact ⟨q, e, hlt, rfl⟩
  · exact ⟨1, bits + e, Nat.one_lt_two_pow hbits.ne', by rw [one_mul, pow_add]⟩

/-- The place of the last bit of a significand that a number of some bits leaves over. -/
def lastPlace (bits n : Nat) : Nat := n.log2 + 1 - bits

theorem lt_two_pow_lastPlace (bits n : Nat) : n < 2 ^ bits * 2 ^ lastPlace bits n := by
  have hlt : n < 2 ^ (n.log2 + 1) := Nat.lt_log2_self
  have hle : 2 ^ (n.log2 + 1) ≤ 2 ^ (bits + lastPlace bits n) :=
    Nat.pow_le_pow_right (by decide) (by unfold lastPlace; omega)
  rw [← pow_add]
  exact hlt.trans_le hle

/-- The numbers with a significand of some bits are the multiples of the place of its last bit. -/
theorem hasSignificand_iff {bits r : Nat} :
    HasSignificand bits r ↔ 2 ^ lastPlace bits r ∣ r := by
  constructor
  · rintro ⟨m, e, hm, rfl⟩
    by_cases hzero : m * 2 ^ e = 0
    · rw [hzero]
      exact dvd_zero _
    · refine dvd_mul_of_dvd_right (pow_dvd_pow 2 ?_) m
      have hlt : m * 2 ^ e < 2 ^ (bits + e) := by
        rw [pow_add]
        exact Nat.mul_lt_mul_of_pos_right hm (by positivity)
      have hlog := (Nat.log2_lt hzero).mpr hlt
      unfold lastPlace
      omega
  · intro hdvd
    refine ⟨r / 2 ^ lastPlace bits r, lastPlace bits r, ?_, (Nat.div_mul_cancel hdvd).symm⟩
    exact Nat.div_lt_of_lt_mul (mul_comm (2 ^ bits) _ ▸ lt_two_pow_lastPlace bits r)

theorem roundToSignificand_eq (n : Nat) :
    roundToSignificand n = roundToEven n (2 ^ lastPlace 53 n) * 2 ^ lastPlace 53 n := by
  unfold roundToSignificand
  by_cases hn : n < 1 <<< 53
  · have hplace : lastPlace 53 n = 0 := by
      by_cases hzero : n = 0
      · subst hzero
        decide
      · have hlog := (Nat.log2_lt hzero).mpr (Nat.one_shiftLeft 53 ▸ hn)
        unfold lastPlace
        omega
    rw [if_pos hn, hplace]
    simp [roundToEven, Nat.mod_one]
  · have hplace : n.log2 - 52 = lastPlace 53 n := by
      unfold lastPlace
      omega
    rw [if_neg hn]
    simp only [Nat.one_shiftLeft, hplace]

/-- A number with a short significand that is no multiple of the last place of `n` lies below a
multiple of it that is no greater than `n`. -/
theorem exists_multiple_between {n s : Nat} (hs : HasSignificand 53 s)
    (hnot : ¬ 2 ^ lastPlace 53 n ∣ s) : ∃ j, s < j * 2 ^ lastPlace 53 n ∧
      j * 2 ^ lastPlace 53 n ≤ n := by
  have hdvd := hasSignificand_iff.mp hs
  have hless : lastPlace 53 s < lastPlace 53 n := by
    by_contra hle
    exact hnot ((pow_dvd_pow 2 (Nat.le_of_not_lt hle)).trans hdvd)
  unfold lastPlace at hless
  have hn : n ≠ 0 := by
    rintro rfl
    simp at hless
  refine ⟨2 ^ 52, ?_, ?_⟩
  · rw [← pow_add]
    refine Nat.lt_log2_self.trans_le (Nat.pow_le_pow_right (by decide) ?_)
    unfold lastPlace
    omega
  · rw [← pow_add]
    refine le_trans (Nat.pow_le_pow_right (by decide) ?_) (Nat.log2_self_le hn)
    unfold lastPlace
    omega

theorem abs_multiple_sub {unit : Nat} (hunit : 0 < unit) (j n : Nat) :
    |((j * unit : Nat) : ℚ) - n| = |(j : ℚ) - n / unit| * unit := by
  have hpos : (0 : ℚ) < unit := by exact_mod_cast hunit
  rw [← abs_of_pos hpos, ← abs_mul, abs_of_pos hpos, sub_mul, div_mul_cancel₀ _ hpos.ne']
  push_cast
  rfl

theorem roundToSignificand_nearest_multiple (n j : Nat) :
    |(roundToSignificand n : ℚ) - n| ≤ |((j * 2 ^ lastPlace 53 n : Nat) : ℚ) - n| := by
  have hunit : 0 < 2 ^ lastPlace 53 n := by positivity
  rw [roundToSignificand_eq, abs_multiple_sub hunit, abs_multiple_sub hunit]
  exact mul_le_mul_of_nonneg_right ((isNearestInteger_roundToEven n hunit).nearest j trivial)
    (Nat.cast_nonneg _)

/-- Numbers with a short significand that are no multiples of the last place lie farther below. -/
theorem roundToSignificand_nearer {n s : Nat} (hs : HasSignificand 53 s)
    (hnot : ¬ 2 ^ lastPlace 53 n ∣ s) : |(roundToSignificand n : ℚ) - n| < |(s : ℚ) - n| := by
  obtain ⟨j, hlow, hhigh⟩ := exists_multiple_between hs hnot
  have hlow' : (s : ℚ) < (j * 2 ^ lastPlace 53 n : Nat) := by exact_mod_cast hlow
  have hhigh' : ((j * 2 ^ lastPlace 53 n : Nat) : ℚ) ≤ n := by exact_mod_cast hhigh
  refine (roundToSignificand_nearest_multiple n j).trans_lt ?_
  rw [abs_of_nonpos (by linarith), abs_of_neg (by linarith)]
  linarith

theorem roundToEven_lastPlace_le (n : Nat) : roundToEven n (2 ^ lastPlace 53 n) ≤ 2 ^ 53 := by
  have hunit : 0 < 2 ^ lastPlace 53 n := by positivity
  have hbounds := roundToEven_bounds n hunit
  have hbound := lt_two_pow_lastPlace 53 n
  generalize 2 ^ lastPlace 53 n = unit at hbounds hbound ⊢
  have hlt : roundToEven n unit * unit < (2 ^ 53 + 1) * unit := by
    rw [add_mul]
    omega
  exact Nat.le_of_lt_succ (Nat.lt_of_mul_lt_mul_right hlt)

/-- Rounding to 53 significant bits gives a nearest number with such a significand. -/
theorem isNearestSignificand_roundToSignificand (n : Nat) :
    IsNearestSignificand n (roundToSignificand n) := by
  have hunit : 0 < 2 ^ lastPlace 53 n := by positivity
  have hle := roundToEven_lastPlace_le n
  refine ⟨?kept, fun s hs => ?nearest, fun s hs hne heq => ?ties⟩
  case kept =>
    rw [roundToSignificand_eq]
    exact hasSignificand_of_le (by decide) hle _
  case nearest =>
    by_cases hdvd : 2 ^ lastPlace 53 n ∣ s
    · obtain ⟨j, rfl⟩ := exists_eq_mul_left_of_dvd hdvd
      exact roundToSignificand_nearest_multiple n j
    · exact (roundToSignificand_nearer hs hdvd).le
  case ties =>
    by_cases hdvd : 2 ^ lastPlace 53 n ∣ s
    · -- what is as near is a multiple with another factor, so the factor is even
      obtain ⟨j, rfl⟩ := exists_eq_mul_left_of_dvd hdvd
      rw [roundToSignificand_eq] at hne heq ⊢
      have hpos : ((2 ^ lastPlace 53 n : Nat) : ℚ) ≠ 0 := by exact_mod_cast hunit.ne'
      rw [abs_multiple_sub hunit, abs_multiple_sub hunit] at heq
      have heven := (isNearestInteger_roundToEven n hunit).ties j trivial
        (fun h => hne (h ▸ rfl)) (mul_right_cancel₀ hpos heq)
      obtain ⟨half, hhalf⟩ := heven.two_dvd
      have hshort : HasSignificand 52 (half * 2 ^ (lastPlace 53 n + 1)) :=
        hasSignificand_of_le (by decide) (by omega) _
      rwa [hhalf, mul_comm 2 half, mul_assoc, ← pow_succ']
    · exact absurd heq (roundToSignificand_nearer hs hdvd).ne'

theorem lastPlace_mono {k m : Nat} (bits : Nat) (h : k ≤ m) :
    lastPlace bits k ≤ lastPlace bits m := by
  by_cases hk : k = 0
  · subst hk
    have hzero : Nat.log2 0 = 0 := Nat.log2_zero
    unfold lastPlace
    omega
  · have hlow : 2 ^ k.log2 ≤ k := Nat.log2_self_le hk
    have hhigh : m < 2 ^ (m.log2 + 1) := Nat.lt_log2_self
    have hlog : k.log2 < m.log2 + 1 :=
      (Nat.pow_lt_pow_iff_right (by decide)).mp ((hlow.trans h).trans_lt hhigh)
    unfold lastPlace
    omega

/-- Between any two numbers that could both be the rounding of one there is another one with a
significand of 53 bits. -/
theorem exists_significand_between {k m n : Nat} (hk : HasSignificand 52 k)
    (hm : HasSignificand 52 m) (hlt : k < m) (hmid : k + m = 2 * n) :
    ∃ l, HasSignificand 53 l ∧ k < l ∧ l < m := by
  obtain ⟨a, ha⟩ := hasSignificand_iff.mp hk
  obtain ⟨b, hb⟩ : 2 ^ lastPlace 52 k ∣ m :=
    (pow_dvd_pow 2 (lastPlace_mono 52 hlt.le)).trans (hasSignificand_iff.mp hm)
  have hbound := lt_two_pow_lastPlace 52 k
  cases hplace : lastPlace 52 k with
  | zero =>
    -- no bit is left over, and the next number is not the other one, which is as odd or even
    rw [hplace, pow_zero] at hbound
    have hnext : HasSignificand 53 ((k + 1) * 2 ^ 0) :=
      hasSignificand_of_le (by decide) (by omega) 0
    rw [pow_zero, mul_one] at hnext
    exact ⟨k + 1, hnext, by omega, by omega⟩
  | succ e =>
    rw [hplace, pow_succ' 2 e] at ha hb hbound
    have hpos : 0 < 2 ^ e := by positivity
    generalize hunit : 2 ^ e = unit at ha hb hbound hpos
    have hak : a < 2 ^ 52 := by
      refine Nat.lt_of_mul_lt_mul_left (a := 2 * unit) ?_
      rwa [← ha, mul_comm (2 * unit)]
    have hab : a + 1 ≤ b := by
      refine Nat.lt_of_mul_lt_mul_left (a := 2 * unit) ?_
      rwa [← ha, ← hb]
    have hstep : 2 * unit * (a + 1) ≤ m := hb ▸ Nat.mul_le_mul_left _ hab
    have hmiddle : HasSignificand 53 ((2 * a + 1) * 2 ^ e) :=
      hasSignificand_of_le (by decide) (by omega) e
    have hvalue : (2 * a + 1) * 2 ^ e = k + unit := by
      rw [ha, hunit]
      ring
    rw [mul_add, mul_one, ← ha] at hstep
    exact ⟨k + unit, hvalue ▸ hmiddle, by omega, by omega⟩

/-- Rounding to 53 significant bits gives the nearest number with such a significand, and there is
no other. -/
theorem isNearest_roundToSignificand_iff (n r : Nat) :
    IsNearestSignificand n r ↔ r = roundToSignificand n := by
  constructor
  · intro h
    refine IsNearest.unique ?_ h (isNearestSignificand_roundToSignificand n)
    intro k m _ _ hk hm hlt hmid
    exact exists_significand_between hk hm hlt (by exact_mod_cast hmid)
  · rintro rfl
    exact isNearestSignificand_roundToSignificand n

theorem roundToSignificand_of_le {n : Nat} (h : n ≤ 2 ^ 53) : roundToSignificand n = n := by
  have hkept : HasSignificand 53 (n * 2 ^ 0) := hasSignificand_of_le (by decide) h 0
  rw [pow_zero, mul_one] at hkept
  have hself : IsNearestSignificand n n := by
    refine ⟨hkept, fun k _ => ?_, fun k _ hne heq => absurd ?_ hne⟩
    · rw [sub_self, abs_zero]
      exact abs_nonneg _
    · rw [sub_self, abs_zero, abs_eq_zero, sub_eq_zero] at heq
      exact_mod_cast heq
  exact ((isNearest_roundToSignificand_iff n n).mp hself).symm

/-! ## Order -/

theorem roundToEven_mono {a b : Nat} (h : a ≤ b) {den : Nat} (hden : 0 < den) :
    roundToEven a den ≤ roundToEven b den := by
  rcases Nat.lt_or_eq_of_le h with hlt | rfl
  · refine (isNearestInteger_roundToEven a hden).le_of_lt (isNearestInteger_roundToEven b hden) ?_
    have hpos : (0 : ℚ) < den := by exact_mod_cast hden
    have hlt' : (a : ℚ) < b := by exact_mod_cast hlt
    exact div_lt_div_of_pos_right hlt' hpos
  · exact Nat.le_refl _

theorem roundToSignificand_mono {n m : Nat} (h : n ≤ m) :
    roundToSignificand n ≤ roundToSignificand m := by
  rcases Nat.lt_or_eq_of_le h with hlt | rfl
  · exact (isNearestSignificand_roundToSignificand n).le_of_lt
      (isNearestSignificand_roundToSignificand m) (by exact_mod_cast hlt)
  · exact Nat.le_refl _

end BinarySize
