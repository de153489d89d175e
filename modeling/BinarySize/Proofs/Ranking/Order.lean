import BinarySize.Proofs.Ranking.WithinTotals
import BinarySize.Proofs.StableSort
import Mathlib.Data.List.Perm.Subperm

/-!
# The order of a ranking

Symbols are ranked by what all symbols with their key come to, and keys that come to the same by
which of them comes up first. `IsRanking` says what a ranking with a limit is, and `isRanking_iff`
that the rankings by name and by object file are the only ones.
-/

namespace BinarySize.Ranking

section
variable (key : MapSymbol → Text) (symbols : List MapSymbol)

/-- The exact number of bytes of all symbols with a key. -/
def amountOf (k : Text) : Nat :=
  ((symbols.filter fun symbol => key symbol == k).map (·.size.bytes)).sum

def sumOf (k : Text) : ByteSize := ByteSize.ofNat (amountOf key symbols k)

def firstAt (k : Text) : Nat := (symbols.map key).idxOf k

/-- The first of two keys goes before the second: it comes to more, or to the same and its first
symbol is the earlier one. Sums are compared as they are listed, clamped. -/
def Outranks (k l : Text) : Prop :=
  (sumOf key symbols l).bytes < (sumOf key symbols k).bytes ∨
    sumOf key symbols k = sumOf key symbols l ∧ firstAt key symbols k < firstAt key symbols l

/-- A ranking of symbols by a key, with room for `n` entries: it holds keys of symbols, none of them
empty or twice, with the clamped sums of all their symbols; of two entries the one in front outranks
the other, and so does every entry each key that is left out. There are as many as there is room
for and keys to put in. -/
structure IsRanking (n : Nat) (ranking : List (Text × ByteSize)) : Prop where
  distinct : (ranking.map (·.1)).Nodup
  keys : ∀ entry ∈ ranking, entry.1 ≠ [] ∧ entry.1 ∈ symbols.map key
  sizes : ∀ entry ∈ ranking, entry.2.bytes = min (amountOf key symbols entry.1) ByteSize.maximum
  ordered : ranking.Pairwise fun a b => Outranks key symbols a.1 b.1
  length : ranking.length = min n (groups key symbols).length
  leftOut : ∀ k ∈ symbols.map key, k ≠ [] → k ∉ ranking.map (·.1) →
    ∀ entry ∈ ranking, Outranks key symbols entry.1 k

/-! ## Groups -/

theorem mem_groups {k : Text} : k ∈ groups key symbols ↔ k ≠ [] ∧ k ∈ symbols.map key := by
  simp only [groups, grouped, List.mem_eraseDups, List.mem_map, List.mem_filter,
    Bool.not_eq_true', List.isEmpty_eq_false_iff]
  constructor
  · rintro ⟨symbol, ⟨hsymbol, hne⟩, rfl⟩
    exact ⟨hne, symbol, hsymbol, rfl⟩
  · rintro ⟨hne, symbol, hsymbol, rfl⟩
    exact ⟨symbol, ⟨hsymbol, hne⟩, rfl⟩

theorem pairwise_groups :
    (groups key symbols).Pairwise fun k l => firstAt key symbols k < firstAt key symbols l := by
  have hgroups : groups key symbols = (symbols.map key).eraseDups.filter (!·.isEmpty) := by
    rw [groups, grouped, ← filter_eraseDups, List.filter_map]
    rfl
  rw [hgroups]
  exact (pairwise_idxOf_eraseDups _).sublist List.filter_sublist

theorem nodup_labels_sumBy : (sumBy key symbols).labels.Nodup := by
  rw [sumBy_eq_ofAdditions]
  exact Tally.nodup_labels_ofAdditions _

theorem amount_additions {k : Text} (hk : k ≠ []) :
    Tally.amount k ((grouped key symbols).map fun symbol => (key symbol, symbol.size)) =
      amountOf key symbols k := by
  have hsame : (grouped key symbols).filter (fun symbol => key symbol == k) =
      symbols.filter fun symbol => key symbol == k := by
    rw [grouped, List.filter_filter]
    refine List.filter_congr fun symbol _ => ?_
    by_cases h : key symbol = k
    · simp [h, hk]
    · simp [h]
  rw [Tally.amount, List.filter_map, List.map_map, amountOf, ← hsame]
  rfl

theorem entry_of_mem_sumBy {entry : Text × ByteSize} (h : entry ∈ (sumBy key symbols).totals) :
    entry.1 ∈ groups key symbols ∧ entry.2 = sumOf key symbols entry.1 := by
  have hlabel : entry.1 ∈ groups key symbols := by
    rw [← labels_sumBy]
    exact List.mem_map_of_mem h
  have htotal := Tally.get?_of_mem (nodup_labels_sumBy key symbols) h
  have hsum := Tally.getD_get?_ofAdditions
    ((grouped key symbols).map fun symbol => (key symbol, symbol.size)) entry.1
  rw [← sumBy_eq_ofAdditions, htotal, Option.getD_some,
    amount_additions key symbols ((mem_groups key symbols).mp hlabel).1] at hsum
  exact ⟨hlabel, hsum⟩

/-! ## The order of a ranking -/

/-- Sorting puts every entry before those that it outranks, and behind all others. -/
theorem pairwise_mergeSort_sumBy :
    ((sumBy key symbols).totals.mergeSort noSmaller).Pairwise fun a b =>
      Outranks key symbols a.1 b.1 := by
  have hfirst : (sumBy key symbols).totals.Pairwise fun a b =>
      firstAt key symbols a.1 < firstAt key symbols b.1 := by
    have hgroups := pairwise_groups key symbols
    rw [← labels_sumBy, Tally.labels, List.pairwise_map] at hgroups
    exact hgroups
  refine (pairwise_mergeSort_stable noSmaller_trans noSmaller_total hfirst).imp_of_mem ?_
  rintro a b ha hb ⟨hle, hties⟩
  have hsizeA := (entry_of_mem_sumBy key symbols (List.mem_mergeSort.mp ha)).2
  have hsizeB := (entry_of_mem_sumBy key symbols (List.mem_mergeSort.mp hb)).2
  rw [Outranks, ← hsizeA, ← hsizeB]
  simp only [noSmaller, decide_eq_true_eq] at hle hties
  rcases Nat.lt_or_eq_of_le hle with hlt | heq
  · exact .inl hlt
  · exact .inr ⟨ByteSize.ext heq.symm, hties (Nat.le_of_eq heq.symm)⟩

theorem isRanking_largest (n : Nat) :
    IsRanking key symbols n (largest n (sumBy key symbols).totals) := by
  have hordered := pairwise_mergeSort_sumBy key symbols
  have hperm := List.mergeSort_perm (sumBy key symbols).totals noSmaller
  have hsub : (largest n (sumBy key symbols).totals).Sublist
      ((sumBy key symbols).totals.mergeSort noSmaller) := List.take_sublist _ _
  have hentry : ∀ entry ∈ largest n (sumBy key symbols).totals,
      entry.1 ∈ groups key symbols ∧ entry.2 = sumOf key symbols entry.1 := fun entry h =>
    entry_of_mem_sumBy key symbols (hperm.mem_iff.mp (hsub.subset h))
  refine ⟨?distinct, fun entry h => (mem_groups key symbols).mp (hentry entry h).1, ?sizes,
    hordered.sublist hsub, ?length, ?leftOut⟩
  case distinct =>
    have hall : (((sumBy key symbols).totals.mergeSort noSmaller).map (·.1)).Nodup :=
      (hperm.map _).nodup_iff.mpr (nodup_labels_sumBy key symbols)
    exact hall.sublist (hsub.map _)
  case sizes =>
    intro entry h
    rw [(hentry entry h).2]
    rfl
  case length => rw [largest, List.length_take, List.length_mergeSort, length_sumBy]
  case leftOut =>
    intro k hk hne hnot entry h
    have hgroup : k ∈ (sumBy key symbols).labels := by
      rw [labels_sumBy]
      exact (mem_groups key symbols).mpr ⟨hne, hk⟩
    obtain ⟨other, hother, rfl⟩ := List.mem_map.mp ((hperm.map (·.1)).mem_iff.mpr hgroup)
    rw [← List.take_append_drop n ((sumBy key symbols).totals.mergeSort noSmaller)]
      at hother hordered
    rcases List.mem_append.mp hother with hlisted | hdropped
    · exact absurd (List.mem_map_of_mem hlisted) hnot
    · exact (List.pairwise_append.mp hordered).2.2 entry h other hdropped

/-! ## No other ranking -/

variable {key symbols}

theorem Outranks.asymm {k l : Text} (h : Outranks key symbols k l) :
    ¬ Outranks key symbols l k := by
  rintro (hlt | ⟨heq, hfirst⟩)
  · rcases h with hlt' | ⟨heq', -⟩
    · omega
    · rw [heq'] at hlt
      omega
  · rcases h with hlt' | ⟨-, hfirst'⟩
    · rw [heq] at hlt'
      omega
    · omega

namespace IsRanking

variable {n : Nat} {ranking other : List (Text × ByteSize)}

theorem eq_map (h : IsRanking key symbols n ranking) :
    ranking = (ranking.map (·.1)).map fun k => (k, sumOf key symbols k) := by
  have hsame : ∀ entry ∈ ranking, (entry.1, sumOf key symbols entry.1) = entry := by
    intro entry hentry
    exact Prod.ext rfl (ByteSize.ext (h.sizes entry hentry).symm)
  rw [List.map_map]
  exact ((List.map_congr_left hsame).trans (List.map_id' ranking)).symm

/-- No ranking lists a key in place of one that another lists. -/
theorem subset (h : IsRanking key symbols n ranking) (hother : IsRanking key symbols n other) :
    ranking.map (·.1) ⊆ other.map (·.1) := by
  intro k hk
  by_contra hnot
  obtain ⟨l, hl, hlnot⟩ : ∃ l ∈ other.map (·.1), l ∉ ranking.map (·.1) := by
    by_contra hnone
    push Not at hnone
    have hperm := (hother.distinct.subperm hnone).perm_of_length_le
      (by rw [List.length_map, List.length_map, h.length, hother.length])
    exact hnot (hperm.mem_iff.mpr hk)
  obtain ⟨entry, hentry, rfl⟩ := List.mem_map.mp hk
  obtain ⟨entry', hentry', rfl⟩ := List.mem_map.mp hl
  obtain ⟨hne, hmem⟩ := h.keys entry hentry
  obtain ⟨hne', hmem'⟩ := hother.keys entry' hentry'
  exact (h.leftOut _ hmem' hne' hlnot entry hentry).asymm
    (hother.leftOut _ hmem hne hnot entry' hentry')

theorem unique (h : IsRanking key symbols n ranking) (hother : IsRanking key symbols n other) :
    ranking = other := by
  have hperm : (ranking.map (·.1)).Perm (other.map (·.1)) :=
    (h.distinct.subperm (h.subset hother)).antisymm
      (hother.distinct.subperm (hother.subset h))
  have hkeys : ranking.map (·.1) = other.map (·.1) :=
    List.Perm.eq_of_pairwise (fun _ _ _ _ hkl hlk => absurd hlk hkl.asymm)
      (List.pairwise_map.mpr h.ordered) (List.pairwise_map.mpr hother.ordered) hperm
  rw [h.eq_map, hother.eq_map, hkeys]

end IsRanking

end

/-- **Rankings are exact and stable.** For any symbols and any limit there is one ranking by name
and one by object file, and these are listed. -/
theorem isRanking_iff (symbols : List MapSymbol) (n : Nat) (ranking : List (Text × ByteSize)) :
    (IsRanking MapSymbol.name symbols n ranking ↔ ranking = bySymbol n symbols) ∧
      (IsRanking (objectFileName ·.file) symbols n ranking ↔ ranking = byObjectFile n symbols) := by
  have hiff : ∀ key : MapSymbol → Text, IsRanking key symbols n ranking ↔
      ranking = largest n (sumBy key symbols).totals := by
    intro key
    constructor
    · exact fun h => h.unique (isRanking_largest key symbols n)
    · rintro rfl
      exact isRanking_largest key symbols n
  exact ⟨hiff _, hiff _⟩

/-- Clamped sums are the same, however much was clamped: the one that comes up first is listed. -/
example :
    let symbol (name : String) (bytes : Nat) : MapSymbol :=
      ⟨"CODE".toList, "0".toList, ByteSize.ofNat bytes, [], name.toList⟩
    bySymbol 1 [symbol "f" ByteSize.maximum, symbol "g" 1, symbol "g" ByteSize.maximum] =
      [("f".toList, ByteSize.ofNat ByteSize.maximum)] := by
  cbv

end BinarySize.Ranking
