import BinarySize.Proofs.LinkMap.Totals
import BinarySize.Ranking

/-!
# Rankings within the totals

A ranking groups the symbols of a section, sums each group up and keeps the largest ones, with
every sum clamped on its way. All the same it never comes to more than the total of the section,
which the reader of the map summed up in map order and under another key. Proved here:

* `Ranking.sum_largest_sumBy_le`, `Ranking.sum_largest_sumBy`: what a ranking holds, and that it
  holds all if it has room for every group;
* `LinkMap.bytes_symbolsIn_le`: the symbols of a section come to no more than its total;
* `LinkMap.rankings_within_total`: so do its rankings.
-/

namespace BinarySize

/-! ## Rankings -/

namespace Ranking

variable (key : MapSymbol → Text) (symbols : List MapSymbol)

/-- The symbols that belong to a group. -/
def grouped : List MapSymbol := symbols.filter fun symbol => !(key symbol).isEmpty

def groups : List Text := ((grouped key symbols).map key).eraseDups

theorem sumBy_eq_ofAdditions :
    sumBy key symbols =
      Tally.ofAdditions ((grouped key symbols).map fun symbol => (key symbol, symbol.size)) := by
  rw [Tally.ofAdditions, List.foldl_map, grouped, List.foldl_filter, sumBy]
  congr 1
  funext tally symbol
  cases (key symbol).isEmpty with
  | true => rfl
  | false => rfl

theorem sum_sumBy :
    Tally.sum (sumBy key symbols).totals =
      ByteSize.total ((grouped key symbols).map (·.size)) := by
  rw [sumBy_eq_ofAdditions, Tally.sum_ofAdditions, Tally.sum, List.map_map]
  rfl

theorem labels_sumBy : (sumBy key symbols).labels = groups key symbols := by
  rw [sumBy_eq_ofAdditions, Tally.labels_ofAdditions, List.map_map]
  rfl

theorem length_sumBy : (sumBy key symbols).totals.length = (groups key symbols).length := by
  rw [← labels_sumBy, Tally.labels, List.length_map]

theorem sum_mergeSort (entries : List (Text × ByteSize)) :
    Tally.sum (entries.mergeSort noSmaller) = Tally.sum entries :=
  ByteSize.total_perm ((List.mergeSort_perm entries noSmaller).map _)

theorem sum_largest_le (n : Nat) (entries : List (Text × ByteSize)) :
    (Tally.sum (largest n entries)).bytes ≤ (Tally.sum entries).bytes := by
  rw [← sum_mergeSort entries]
  exact ByteSize.bytes_total_le ((List.take_sublist _ _).map _)

theorem sum_largest {n : Nat} {entries : List (Text × ByteSize)} (h : entries.length ≤ n) :
    Tally.sum (largest n entries) = Tally.sum entries := by
  rw [largest, List.take_of_length_le (by rwa [List.length_mergeSort]), sum_mergeSort]

/-- A ranking comes to no more than the symbols that it ranks. -/
theorem sum_largest_sumBy_le (n : Nat) :
    (Tally.sum (largest n (sumBy key symbols).totals)).bytes ≤
      (ByteSize.total (symbols.map (·.size))).bytes := by
  have hgrouped : (ByteSize.total ((grouped key symbols).map (·.size))).bytes ≤
      (ByteSize.total (symbols.map (·.size))).bytes :=
    ByteSize.bytes_total_le (List.filter_sublist.map _)
  have hlargest := sum_largest_le n (sumBy key symbols).totals
  rw [sum_sumBy] at hlargest
  exact hlargest.trans hgrouped

/-- A ranking with room for all groups comes to what the grouped symbols come to. -/
theorem sum_largest_sumBy {n : Nat} (h : (groups key symbols).length ≤ n) :
    Tally.sum (largest n (sumBy key symbols).totals) =
      ByteSize.total ((grouped key symbols).map (·.size)) := by
  rw [sum_largest (by rwa [length_sumBy]), sum_sumBy]

end Ranking

/-! ## Sections -/

namespace LinkMap

/-- The total of a section, and nothing for a section that the map does not have. -/
def Listing.totalOf (listing : Listing) (label : Text) : ByteSize :=
  (listing.totals.get? label).getD 0

/-- The symbols of a section come to no more than its total, which counts its labels too. -/
theorem bytes_symbolsIn_le (map label : Text) :
    (ByteSize.total (((listing map).symbolsIn label).map (·.size))).bytes ≤
      ((listing map).totalOf label).bytes := by
  obtain ⟨adds, htotals, hposted, -⟩ := exists_additions map
  have hamount : Tally.amount label adds =
      Tally.amount label ((labelRows (rows map)).map Row.addition) +
        (((listing map).symbolsIn label).map (·.size.bytes)).sum := by
    rw [Tally.amount_perm label hposted, Tally.amount_append, amount_symbols]
  rw [Listing.totalOf, htotals, Tally.getD_get?_ofAdditions, ByteSize.bytes_ofNat, hamount,
    ByteSize.bytes_total, List.map_map]
  simp only [Function.comp_def]
  omega

/-- **Rankings within the totals.** The entries of a ranking of the symbols of a section, by name
or by object file, come to no more than the total of the section. With room for all names they
come to what the symbols with a name come to, and with room for all object files to what the
symbols with a file come to. -/
theorem rankings_within_total (map label : Text) (n : Nat) :
    let symbols := (listing map).symbolsIn label
    (Tally.sum (Ranking.bySymbol n symbols)).bytes ≤ ((listing map).totalOf label).bytes ∧
      (Tally.sum (Ranking.byObjectFile n symbols)).bytes ≤
        ((listing map).totalOf label).bytes ∧
      ((Ranking.groups MapSymbol.name symbols).length ≤ n →
        Tally.sum (Ranking.bySymbol n symbols) =
          ByteSize.total ((symbols.filter fun symbol => !symbol.name.isEmpty).map (·.size))) ∧
      ((Ranking.groups (Ranking.objectFileName ·.file) symbols).length ≤ n →
        Tally.sum (Ranking.byObjectFile n symbols) =
          ByteSize.total ((symbols.filter fun symbol => !symbol.file.isEmpty).map (·.size))) := by
  intro symbols
  have hsection := bytes_symbolsIn_le map label
  refine ⟨?_, ?_, ?_, ?_⟩
  · exact (Ranking.sum_largest_sumBy_le _ symbols n).trans hsection
  · exact (Ranking.sum_largest_sumBy_le _ symbols n).trans hsection
  · exact fun hroom => Ranking.sum_largest_sumBy _ symbols hroom
  · intro hroom
    have hsum := Ranking.sum_largest_sumBy _ symbols hroom
    simp only [Ranking.grouped, Ranking.isEmpty_objectFileName] at hsum
    exact hsum

/-- Two symbols of one name, one without a name and one without a file, in a section whose own
label has a size. -/
theorem rankings_within_total_code :
    let map := ("- 8 a CODE\n- 20 5 d/a.o:(f)\n- 30 7 e/a.o:(f)\n- 40 3 a.o:()\n" ++
      "- 50 1 g\n").toList
    let symbols := (listing map).symbolsIn "CODE".toList
    (listing map).totalOf "CODE".toList = ByteSize.ofNat 26 ∧
      (Ranking.groups MapSymbol.name symbols).length ≤ 2 ∧
      (Ranking.groups (Ranking.objectFileName ·.file) symbols).length ≤ 2 ∧
      Tally.sum (Ranking.bySymbol 2 symbols) = ByteSize.ofNat 13 ∧
      Tally.sum (Ranking.byObjectFile 2 symbols) = ByteSize.ofNat 15 ∧
      (Tally.sum (Ranking.bySymbol 1 symbols)).bytes ≤
        ((listing map).totalOf "CODE".toList).bytes := by
  intro map symbols
  have hnames : (Ranking.groups MapSymbol.name symbols).length ≤ 2 := by decide +kernel
  have hfiles : (Ranking.groups (Ranking.objectFileName ·.file) symbols).length ≤ 2 := by
    decide +kernel
  have hrankings := rankings_within_total map "CODE".toList 2
  refine ⟨by decide +kernel, hnames, hfiles, ?_, ?_, (rankings_within_total map _ 1).1⟩
  · rw [hrankings.2.2.1 hnames]
    decide +kernel
  · rw [hrankings.2.2.2 hfiles]
    decide +kernel

end LinkMap

end BinarySize
