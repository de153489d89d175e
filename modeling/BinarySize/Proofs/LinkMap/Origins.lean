import BinarySize.Proofs.LinkMap.FileAndSymbol
import BinarySize.Proofs.LinkMap.Rows
import BinarySize.Proofs.LinkMap.Steps
import BinarySize.Ranking
import Mathlib.Data.List.Induction

/-!
# Where symbols come from

Nothing that a map lists is made up: the name of a symbol and its file are stretches of single
lines of the map (`exists_line_of_mem_symbols`). What a ranking shows is the text of one of the
symbols that it ranks (`exists_symbol_of_mem_largest`).
-/

namespace BinarySize.LinkMap

open Text

/-! ## Rows -/

theorem infix_description {line : Text} {row : Row} (h : row? line = some row) :
    row.description <:+: line := by
  obtain ⟨-, cells, -, rfl, hgive⟩ := cells_of_row? h
  have hrest : cells.rest <:+ cells.line := by
    simp only [Cells.line, ← List.append_assoc]
    exact List.suffix_append _ _
  rw [← hgive.description]
  exact (infix_trim _).trans hrest.isInfix

/-! ## Symbols -/

def StandsIn (rows : List Row) (symbol : MapSymbol) : Prop :=
  (∃ row ∈ rows, symbol.name <:+: row.description) ∧
    ∃ row ∈ rows, symbol.file <:+: row.description

theorem StandsIn.mono {rows more : List Row} {symbol : MapSymbol} (h : StandsIn rows symbol)
    (hmore : rows ⊆ more) : StandsIn more symbol := by
  obtain ⟨⟨row, hrow, hname⟩, row', hrow', hfile⟩ := h
  exact ⟨⟨row, hmore hrow, hname⟩, row', hmore hrow', hfile⟩

/-- A new name comes from the row that gives it. -/
theorem standsIn_of_mem_rename {rows : List Row} {row : Row} {symbols : List MapSymbol}
    (h : ∀ symbol ∈ symbols, StandsIn (rows ++ [row]) symbol) :
    ∀ symbol ∈ Reading.rename row.description symbols, StandsIn (rows ++ [row]) symbol := by
  intro symbol hsymbol
  cases symbols with
  | nil => cases hsymbol
  | cons last older =>
    rw [Reading.rename] at hsymbol
    split at hsymbol
    · exact h symbol hsymbol
    · rcases List.mem_cons.mp hsymbol with rfl | hsymbol
      · exact ⟨⟨row, by simp, List.infix_rfl⟩, (h last List.mem_cons_self).2⟩
      · exact h symbol (List.mem_cons_of_mem _ hsymbol)

theorem standsIn_foldl_atRow (rows : List Row) :
    ∀ symbol ∈ (rows.foldl Reading.atRow {}).newest, StandsIn rows symbol := by
  apply Reading.foldl_atRow_induction
    (P := fun rows reading => ∀ symbol ∈ reading.newest, StandsIn rows symbol)
  · exact fun _ h => nomatch h
  · intro earlier reading row next h hstep
    have hkept : ∀ symbol ∈ reading.newest, StandsIn (earlier ++ [row]) symbol :=
      fun symbol hsymbol => (h symbol hsymbol).mono (List.subset_append_left _ _)
    cases hstep with
    | openSection => exact hkept
    | skip => exact hkept
    | rename => exact standsIn_of_mem_rename hkept
    | openSymbol =>
      intro symbol hsymbol
      rcases List.mem_cons.mp hsymbol with rfl | hsymbol
      · have hparts := infix_splitFileSymbol row.description
        exact ⟨⟨row, by simp, hparts.2⟩, row, by simp, hparts.1⟩
      · exact hkept symbol hsymbol

/-- **Origins.** The name of a symbol of a map is a stretch of one of its lines, and so is the
file. -/
theorem exists_line_of_mem_symbols {map : Text} {symbol : MapSymbol}
    (h : symbol ∈ (listing map).symbols) :
    (∃ line ∈ Text.lines map, symbol.name <:+: line) ∧
      ∃ line ∈ Text.lines map, symbol.file <:+: line := by
  rw [listing_eq] at h
  obtain ⟨hname, hfile⟩ := standsIn_foldl_atRow (rows map) symbol (List.mem_reverse.mp h)
  have hline : ∀ text : Text, (∃ row ∈ rows map, text <:+: row.description) →
      ∃ line ∈ Text.lines map, text <:+: line := by
    rintro text ⟨row, hrow, htext⟩
    obtain ⟨line, hline, hread⟩ := List.mem_filterMap.mp hrow
    exact ⟨line, hline, htext.trans (infix_description hread)⟩
  exact ⟨hline _ hname, hline _ hfile⟩

end LinkMap

/-! ## Rankings -/

namespace Ranking

theorem exists_symbol_of_mem_sumBy {key : MapSymbol → Text} {symbols : List MapSymbol}
    {label : Text} (h : label ∈ (sumBy key symbols).labels) :
    ∃ symbol ∈ symbols, key symbol = label := by
  induction symbols using List.reverseRecOn with
  | nil => cases h
  | append_singleton symbols symbol ih =>
    have hearlier : label ∈ (sumBy key symbols).labels →
        ∃ symbol' ∈ symbols ++ [symbol], key symbol' = label := by
      intro hlabel
      obtain ⟨earlier, hmem, hkey⟩ := ih hlabel
      exact ⟨earlier, List.mem_append_left _ hmem, hkey⟩
    have hlast : sumBy key (symbols ++ [symbol]) =
        if (key symbol).isEmpty then sumBy key symbols
        else (sumBy key symbols).add (key symbol) symbol.size :=
      List.foldl_append
    rw [hlast] at h
    split at h
    · exact hearlier h
    · rcases Tally.mem_labels_add.mp h with h | h
      · exact ⟨symbol, by simp, h.symm⟩
      · exact hearlier h

theorem exists_symbol_of_mem_largest {key : MapSymbol → Text} {symbols : List MapSymbol} {n : Nat}
    {entry : Text × ByteSize} (h : entry ∈ largest n (sumBy key symbols).totals) :
    ∃ symbol ∈ symbols, key symbol = entry.1 := by
  have hentry : entry ∈ (sumBy key symbols).totals :=
    List.mem_mergeSort.mp (List.mem_of_mem_take h)
  exact exists_symbol_of_mem_sumBy (List.mem_map_of_mem hentry)

theorem infix_objectFileName (path : Text) : objectFileName path <:+: path := by
  have hname : ((path.reverse.dropWhile isSeparator).takeWhile (!isSeparator ·)).reverse
      <:+: path := by
    rw [← List.reverse_infix, List.reverse_reverse]
    exact (List.takeWhile_prefix _).isInfix.trans (List.dropWhile_suffix _).isInfix
  unfold objectFileName
  split
  · exact List.infix_rfl
  · dsimp only
    split
    · exact List.infix_rfl
    · exact hname

end Ranking

end BinarySize
