import BinarySize.Tally
import Mathlib.Algebra.Order.BigOperators.Group.List
import Mathlib.Algebra.Order.Ring.Nat
import Mathlib.Data.List.Induction

/-!
# Additions to a tally

A sum of sizes is the exact sum, clamped. So a tally that only ever grew by additions is
determined by them: the total of a label is the clamped sum of what was added to it, the labels
stand in the order in which they first came up, and all totals together come to the clamped sum of
everything that was added.
-/

namespace BinarySize

/-- Duplicates are erased behind the first occurrence, so one more element has a say only if it
is new. -/
theorem eraseDups_concat [BEq α] [LawfulBEq α] [DecidableEq α] (xs : List α) (x : α) :
    (xs ++ [x]).eraseDups = if x ∈ xs then xs.eraseDups else xs.eraseDups ++ [x] := by
  rw [List.eraseDups_append]
  by_cases h : x ∈ xs
  · simp [List.removeAll, h]
  · simp [List.removeAll, h, List.eraseDups_cons]

theorem nodup_eraseDups [BEq α] [LawfulBEq α] [DecidableEq α] (xs : List α) :
    xs.eraseDups.Nodup := by
  induction xs using List.reverseRecOn with
  | nil => simp
  | append_singleton xs x ih =>
    rw [eraseDups_concat]
    split
    · exact ih
    · next h =>
      rw [List.nodup_append]
      refine ⟨ih, by simp, ?_⟩
      intro y hy z hz hyz
      rw [hyz, List.mem_singleton.mp hz] at hy
      exact h (List.mem_eraseDups.mp hy)

/-- Erasing duplicates and leaving elements out may be done in either order. -/
theorem filter_eraseDups [BEq α] [LawfulBEq α] [DecidableEq α] (p : α → Bool) (xs : List α) :
    (xs.filter p).eraseDups = xs.eraseDups.filter p := by
  induction xs using List.reverseRecOn with
  | nil => rfl
  | append_singleton xs x ih =>
    rw [List.filter_append, eraseDups_concat]
    cases hx : p x with
    | true =>
      rw [List.filter_cons_of_pos hx, List.filter_nil, eraseDups_concat, ih]
      simp only [List.mem_filter, hx, and_true]
      split
      · rfl
      · rw [List.filter_append, List.filter_cons_of_pos hx, List.filter_nil]
    | false =>
      have hnot : ¬ p x = true := by simp [hx]
      rw [List.filter_cons_of_neg hnot, List.filter_nil, List.append_nil, ih]
      split
      · rfl
      · rw [List.filter_append, List.filter_cons_of_neg hnot, List.filter_nil, List.append_nil]

/-- Without duplicates, elements stand in the order in which they first came up. -/
theorem pairwise_idxOf_eraseDups [BEq α] [LawfulBEq α] [DecidableEq α] (xs : List α) :
    xs.eraseDups.Pairwise fun x y => xs.idxOf x < xs.idxOf y := by
  induction xs using List.reverseRecOn with
  | nil => exact List.Pairwise.nil
  | append_singleton xs x ih =>
    have hkept : xs.eraseDups.Pairwise fun y z => (xs ++ [x]).idxOf y < (xs ++ [x]).idxOf z := by
      refine ih.imp_of_mem fun hy hz hlt => ?_
      rwa [List.idxOf_append_of_mem (List.mem_eraseDups.mp hy),
        List.idxOf_append_of_mem (List.mem_eraseDups.mp hz)]
    rw [eraseDups_concat]
    split
    · exact hkept
    · next hnew =>
      refine List.pairwise_append.mpr ⟨hkept, List.pairwise_singleton _ _, fun y hy z hz => ?_⟩
      have hmem := List.mem_eraseDups.mp hy
      rw [List.mem_singleton.mp hz, List.idxOf_append_of_mem hmem,
        List.idxOf_append_of_notMem hnew]
      exact (List.idxOf_lt_length_of_mem hmem).trans_le (Nat.le_add_right _ _)

namespace ByteSize

theorem min_maximum (n : Nat) : min n maximum = min (2 ^ 64 - 1) n := by
  have hmaximum : maximum = 2 ^ 64 - 1 := by decide
  rw [hmaximum, Nat.min_comm]

/-- Sizes added one by one to a first one come to the exact sum, clamped: once a sum has stopped
growing, nothing that is added makes it grow again. -/
theorem bytes_foldl_add (sizes : List ByteSize) (start : ByteSize) :
    (sizes.foldl (· + ·) start).bytes =
      min (start.bytes + (sizes.map bytes).sum) maximum := by
  induction sizes generalizing start with
  | nil =>
    have h := start.bytes_lt
    simp only [List.foldl_nil, List.map_nil, List.sum_nil, maximum]
    omega
  | cons size sizes ih =>
    rw [List.foldl_cons, ih, bytes_add, List.map_cons, List.sum_cons]
    omega

/-- A sum of sizes is the exact one, clamped, however early it stops growing. -/
theorem bytes_total (sizes : List ByteSize) :
    (total sizes).bytes = min (sizes.map bytes).sum maximum := by
  rw [total, bytes_foldl_add, bytes_zero, Nat.zero_add]

theorem ofNat_add (n : Nat) (size : ByteSize) : ofNat n + size = ofNat (n + size.bytes) := by
  apply ext
  simp only [bytes_add, bytes_ofNat]
  omega

theorem total_concat (sizes : List ByteSize) (size : ByteSize) :
    total (sizes ++ [size]) = total sizes + size := by
  simp [total]

theorem total_perm {sizes sizes' : List ByteSize} (h : sizes.Perm sizes') :
    total sizes = total sizes' := by
  apply ext
  rw [bytes_total, bytes_total, (h.map bytes).sum_nat]

theorem bytes_total_le {sizes more : List ByteSize} (h : sizes.Sublist more) :
    (total sizes).bytes ≤ (total more).bytes := by
  have hsum : (sizes.map bytes).sum ≤ (more.map bytes).sum :=
    (h.map bytes).sum_le_sum fun _ _ => Nat.zero_le _
  rw [bytes_total, bytes_total]
  omega

end ByteSize

namespace Tally

/-- The tally of some additions, each a label and the size added to it, made one by one. -/
def ofAdditions (adds : List (Text × ByteSize)) : Tally :=
  adds.foldl (fun tally a => tally.add a.1 a.2) empty

def amount (label : Text) (adds : List (Text × ByteSize)) : Nat :=
  ((adds.filter fun a => a.1 == label).map (·.2.bytes)).sum

theorem ofAdditions_concat (adds : List (Text × ByteSize)) (label : Text) (size : ByteSize) :
    ofAdditions (adds ++ [(label, size)]) = (ofAdditions adds).add label size := by
  simp [ofAdditions]

theorem amount_append (label : Text) (adds more : List (Text × ByteSize)) :
    amount label (adds ++ more) = amount label adds + amount label more := by
  simp [amount]

theorem amount_perm (label : Text) {adds adds' : List (Text × ByteSize)}
    (h : adds.Perm adds') : amount label adds = amount label adds' :=
  ((h.filter _).map _).sum_nat

theorem amount_concat (label added : Text) (size : ByteSize) (adds : List (Text × ByteSize)) :
    amount label (adds ++ [(added, size)]) =
      amount label adds + if added = label then size.bytes else 0 := by
  rw [amount_append]
  by_cases h : added = label
  · simp [amount, h]
  · simp [amount, h]

theorem getD_get?_ofAdditions (adds : List (Text × ByteSize)) (label : Text) :
    ((ofAdditions adds).get? label).getD 0 = ByteSize.ofNat (amount label adds) := by
  induction adds using List.reverseRecOn with
  | nil => rfl
  | append_singleton adds a ih =>
    obtain ⟨added, size⟩ := a
    rw [ofAdditions_concat, get?_add, amount_concat]
    by_cases h : label = added
    · subst h
      rw [if_pos rfl, if_pos rfl, Option.getD_some, ih, ByteSize.ofNat_add]
    · rw [if_neg h, if_neg (Ne.symm h), ih, Nat.add_zero]

/-- **Clamped sums.** A label has a total exactly if something was added to it, and the total is
the exact sum, clamped, however early it stopped growing. -/
theorem get?_ofAdditions (adds : List (Text × ByteSize)) (label : Text) :
    (ofAdditions adds).get? label =
      if label ∈ adds.map (·.1) then some (ByteSize.ofNat (amount label adds)) else none := by
  induction adds using List.reverseRecOn with
  | nil => rfl
  | append_singleton adds a ih =>
    obtain ⟨added, size⟩ := a
    rw [ofAdditions_concat, get?_add, amount_concat]
    by_cases h : label = added
    · subst h
      rw [if_pos rfl, if_pos rfl, getD_get?_ofAdditions, ByteSize.ofNat_add, if_pos (by simp)]
    · have hmem : label ∈ (adds ++ [(added, size)]).map (·.1) ↔ label ∈ adds.map (·.1) := by
        simp [h]
      rw [if_neg h, if_neg (Ne.symm h), ih, Nat.add_zero, if_congr hmem rfl rfl]

/-- Additions in another order give every label the same total. -/
theorem get?_ofAdditions_perm {adds adds' : List (Text × ByteSize)} (h : adds.Perm adds')
    (label : Text) : (ofAdditions adds).get? label = (ofAdditions adds').get? label := by
  rw [get?_ofAdditions, get?_ofAdditions, amount_perm label h]
  exact if_congr (h.map _).mem_iff rfl rfl

theorem labels_ofAdditions (adds : List (Text × ByteSize)) :
    (ofAdditions adds).labels = (adds.map (·.1)).eraseDups := by
  induction adds using List.reverseRecOn with
  | nil => rfl
  | append_singleton adds a ih =>
    obtain ⟨added, size⟩ := a
    rw [ofAdditions_concat, labels_add, List.map_append, List.map_singleton, eraseDups_concat, ih]
    simp only [List.mem_eraseDups]

theorem nodup_labels_ofAdditions (adds : List (Text × ByteSize)) :
    (ofAdditions adds).labels.Nodup := by
  rw [labels_ofAdditions]
  exact nodup_eraseDups _

theorem get?_of_mem {tally : Tally} (h : tally.labels.Nodup) {entry : Text × ByteSize}
    (hentry : entry ∈ tally.totals) : tally.get? entry.1 = some entry.2 := by
  obtain ⟨front, back, hcut⟩ := List.append_of_mem hentry
  rw [labels, hcut, List.map_append, List.map_cons, List.nodup_append] at h
  refine List.lookup_eq_some_iff.mpr ⟨front, back, hcut, fun other hother => ?_⟩
  rw [bne_iff_ne]
  exact (h.2.2 _ (List.mem_map_of_mem hother) _ List.mem_cons_self).symm

def sum (entries : List (Text × ByteSize)) : ByteSize :=
  ByteSize.total (entries.map (·.2))

/-- An addition adds its size to what a tally holds, be its label known or new. -/
theorem sum_addTo (label : Text) (size : ByteSize) (entries : List (Text × ByteSize)) :
    sum (addTo label size entries) = sum entries + size := by
  apply ByteSize.ext
  -- in numbers of bytes both sides are clamped once, whether or not a total on the way was
  simp only [sum, ByteSize.bytes_add, ByteSize.bytes_total, List.map_map]
  induction entries with
  | nil => simp [addTo]
  | cons entry rest ih =>
    obtain ⟨known, total⟩ := entry
    by_cases hk : known = label
    · simp only [addTo, hk, if_true, List.map_cons, Function.comp_apply, List.sum_cons,
        ByteSize.bytes_add]
      omega
    · simp only [addTo, hk, if_false, List.map_cons, Function.comp_apply, List.sum_cons]
      omega

/-- **Grouping keeps the sum.** What a tally holds is what was added to it, clamped, whatever
labels it was added to. -/
theorem sum_ofAdditions (adds : List (Text × ByteSize)) :
    sum (ofAdditions adds).totals = sum adds := by
  induction adds using List.reverseRecOn with
  | nil => rfl
  | append_singleton adds a ih =>
    rw [ofAdditions_concat, add, sum_addTo, ih, sum, sum, List.map_append, List.map_singleton,
      ByteSize.total_concat]

end Tally

end BinarySize
