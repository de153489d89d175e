import BinarySize.Proofs.Additions
import Mathlib.Data.Finset.Card

/-!
# Accumulation

A tally that starts empty is told by what was added to it. `Accumulates` says what it answers and
lists without saying how it is kept, and exactly one tally meets that. The order of the additions
shows in the order of the labels alone: a sum that was clamped on its way still is the clamped
exact sum, so no total depends on which addition came first. Proved here:

* `accumulates_ofAdditions`, `Accumulates.unique`: the tally of some additions accumulates them,
  and no other tally does;
* `accumulates_in_any_order`: the totals are clamped exact sums in any order of the additions, as
  are the sums of sizes that are added up from nothing or on top of a first one.
-/

namespace BinarySize.Tally

/-- A tally holds what some additions come to. A label has a total if something was added to it,
and this is the exact sum of that, clamped. Every such label is listed once, with its total, and
the labels stand in the order of their first additions. -/
structure Accumulates (adds : List (Text × ByteSize)) (tally : Tally) : Prop where
  absent : ∀ label, tally.get? label = none ↔ ∀ a ∈ adds, a.1 ≠ label
  clamped : ∀ label total, tally.get? label = some total →
    total.bytes = min (2 ^ 64 - 1) (amount label adds)
  listed : ∀ label, label ∈ tally.labels ↔ ∃ a ∈ adds, a.1 = label
  once : tally.labels.Nodup
  ordered : tally.labels.Pairwise fun k l => (adds.map (·.1)).idxOf k < (adds.map (·.1)).idxOf l
  entries : ∀ entry ∈ tally.totals, tally.get? entry.1 = some entry.2
  size : tally.size = (adds.map (·.1)).toFinset.card

variable {adds : List (Text × ByteSize)} {tally other : Tally}

/-! ## What additions come to -/

theorem size_ofAdditions (adds : List (Text × ByteSize)) :
    (ofAdditions adds).size = (adds.map (·.1)).toFinset.card := by
  have hlabels : (ofAdditions adds).labels.toFinset = (adds.map (·.1)).toFinset := by
    ext label
    rw [List.mem_toFinset, List.mem_toFinset, labels_ofAdditions, List.mem_eraseDups]
  rw [← hlabels, List.toFinset_card_of_nodup (nodup_labels_ofAdditions adds), labels,
    List.length_map, size]

theorem accumulates_ofAdditions (adds : List (Text × ByteSize)) :
    Accumulates adds (ofAdditions adds) := by
  have hadded : ∀ label, label ∈ adds.map (·.1) ↔ ∃ a ∈ adds, a.1 = label := fun label =>
    List.mem_map
  refine ⟨?absent, ?clamped, ?listed, nodup_labels_ofAdditions adds, ?ordered,
    fun entry hentry => get?_of_mem (nodup_labels_ofAdditions adds) hentry, size_ofAdditions adds⟩
  case absent =>
    intro label
    rw [get?_ofAdditions, ite_eq_right_iff, hadded]
    simp only [reduceCtorEq, imp_false, not_exists, not_and, ne_eq]
  case clamped =>
    intro label total htotal
    rw [get?_ofAdditions] at htotal
    split at htotal
    · cases htotal
      rw [ByteSize.bytes_ofNat, ByteSize.min_maximum]
    · cases htotal
  case listed =>
    intro label
    rw [labels_ofAdditions, List.mem_eraseDups, hadded]
  case ordered =>
    rw [labels_ofAdditions]
    exact pairwise_idxOf_eraseDups _

/-! ## No other tally -/

namespace Accumulates

theorem labels_eq (h : Accumulates adds tally) (hother : Accumulates adds other) :
    tally.labels = other.labels := by
  have hperm : tally.labels.Perm other.labels :=
    (List.perm_ext_iff_of_nodup h.once hother.once).mpr fun label =>
      (h.listed label).trans (hother.listed label).symm
  refine hperm.eq_of_pairwise ?_ h.ordered hother.ordered
  intro k l _ _ hkl hlk
  omega

/-- What is listed is each label with the clamped exact sum. -/
theorem totals_eq (h : Accumulates adds tally) :
    tally.totals = tally.labels.map fun label => (label, ByteSize.ofNat (amount label adds)) := by
  have hsame : ∀ entry ∈ tally.totals,
      (entry.1, ByteSize.ofNat (amount entry.1 adds)) = entry := by
    intro entry hentry
    have hbytes := h.clamped entry.1 entry.2 (h.entries entry hentry)
    refine Prod.ext rfl (ByteSize.ext ?_)
    rw [hbytes, ByteSize.bytes_ofNat, ByteSize.min_maximum]
  rw [labels, List.map_map]
  exact ((List.map_congr_left hsame).trans (List.map_id' tally.totals)).symm

theorem unique (h : Accumulates adds tally) (hother : Accumulates adds other) :
    tally = other := by
  have htotals : tally.totals = other.totals := by
    rw [h.totals_eq, hother.totals_eq, h.labels_eq hother]
  cases tally
  cases other
  exact congrArg Tally.mk htotals

end Accumulates

/-- **Clamped sums in any order.** The tally of some additions is the only one that accumulates
them, and the same additions in any other order give every label the same total. Likewise sizes
come to their exact sum, clamped, and so they do on top of any first size. -/
theorem accumulates_in_any_order (adds : List (Text × ByteSize)) :
    (∀ tally, Accumulates adds tally ↔ tally = ofAdditions adds) ∧
      (∀ adds', adds.Perm adds' →
        ∀ label, (ofAdditions adds').get? label = (ofAdditions adds).get? label) ∧
      ∀ sizes : List ByteSize,
        (ByteSize.total sizes).bytes = min (2 ^ 64 - 1) (sizes.map (·.bytes)).sum ∧
        ∀ start : ByteSize, (sizes.foldl (· + ·) start).bytes =
          min (2 ^ 64 - 1) (start.bytes + (sizes.map (·.bytes)).sum) := by
  refine ⟨fun tally => ⟨?unique, ?accumulates⟩, ?order, fun sizes => ⟨?sum, fun start => ?onTop⟩⟩
  case unique => exact fun h => h.unique (accumulates_ofAdditions adds)
  case accumulates =>
    rintro rfl
    exact accumulates_ofAdditions adds
  case order => exact fun adds' hperm label => get?_ofAdditions_perm hperm.symm label
  case sum => rw [ByteSize.bytes_total, ByteSize.min_maximum]
  case onTop => rw [ByteSize.bytes_foldl_add, ByteSize.min_maximum]

/-- A section that is full after its first addition, and the same additions with that one last: the
labels change places and the totals stay. -/
theorem accumulates_in_any_order_full :
    let code := "CODE".toList
    let data := "DATA".toList
    let largest := ByteSize.ofNat (2 ^ 64 - 1)
    let adds := [(code, largest), (data, ByteSize.ofNat 4), (code, ByteSize.ofNat 5)]
    let adds' := [(data, ByteSize.ofNat 4), (code, ByteSize.ofNat 5), (code, largest)]
    adds.Perm adds' ∧
      (ofAdditions adds).labels = [code, data] ∧ (ofAdditions adds').labels = [data, code] ∧
      largest.bytes = min (2 ^ 64 - 1) (amount code adds) ∧ largest.bytes < amount code adds ∧
      (ofAdditions adds').get? code = some largest ∧
      (ofAdditions adds').get? data = some (ByteSize.ofNat 4) ∧
      (ofAdditions adds').get? "BSS".toList = none := by
  intro code data largest adds adds'
  have hperm : adds.Perm adds' := by decide +kernel
  have hcode : (ofAdditions adds).get? code = some largest := by decide +kernel
  obtain ⟨haccumulates, horder, -⟩ := accumulates_in_any_order adds
  have hadds : Accumulates adds (ofAdditions adds) := (haccumulates _).mpr rfl
  refine ⟨hperm, by decide +kernel, by decide +kernel, hadds.clamped code largest hcode,
    by decide +kernel, ?_, ?_, ?_⟩
  · rw [horder adds' hperm, hcode]
  · rw [horder adds' hperm]
    decide +kernel
  · rw [horder adds' hperm, hadds.absent]
    decide +kernel

end BinarySize.Tally
