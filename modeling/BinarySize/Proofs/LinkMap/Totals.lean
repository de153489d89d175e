import BinarySize.Proofs.Additions
import BinarySize.Proofs.LinkMap.Steps

/-!
# Conservation of section totals

Reading a map adds to the totals once for every section label and once for every symbol that it
lists, and never for a row that only renames a symbol. Proved here:

* `exists_accounts_rows`: after any rows, the additions made are exactly those;
* `totals_conserved`: the total of a section is the clamped sum of its labels' sizes and its
  symbols' sizes.
-/

namespace BinarySize.LinkMap

/-! ## What is added -/

def labelRows (rows : List Row) : List Row :=
  rows.filter fun row => isSectionLabel row.description

def labelsOf (rows : List Row) : List Text := (labelRows rows).map (·.description)

def Row.addition (row : Row) : Text × ByteSize := (row.description, row.size)

end LinkMap

def MapSymbol.addition (symbol : MapSymbol) : Text × ByteSize :=
  (symbol.sectionLabel, symbol.size)

namespace LinkMap

/-- The additions behind a reading of some rows: one for each section label and one for each
symbol. Labels come up in the order of the section labels, and the open section is one of
them. -/
structure Accounts (earlier : List Row) (reading : Reading) (adds : List (Text × ByteSize)) :
    Prop where
  totals : reading.totals = Tally.ofAdditions adds
  posted : adds.Perm
    ((labelRows earlier).map Row.addition ++ reading.newest.map MapSymbol.addition)
  order : (adds.map (·.1)).eraseDups = (labelsOf earlier).eraseDups
  current : ∀ label, reading.label = some label → label ∈ labelsOf earlier

theorem labelRows_append (rows more : List Row) :
    labelRows (rows ++ more) = labelRows rows ++ labelRows more :=
  List.filter_append _ _

theorem labelRows_concat (rows : List Row) (row : Row) :
    labelRows (rows ++ [row]) =
      labelRows rows ++ if isSectionLabel row.description then [row] else [] := by
  rw [labelRows_append]
  cases h : isSectionLabel row.description with
  | true => simp [labelRows, h]
  | false => simp [labelRows, h]

theorem Accounts.mem_labels {earlier : List Row} {reading : Reading}
    {adds : List (Text × ByteSize)} (h : Accounts earlier reading adds) (label : Text) :
    label ∈ adds.map (·.1) ↔ label ∈ labelsOf earlier := by
  rw [← List.mem_eraseDups, h.order, List.mem_eraseDups]

theorem Accounts.openSection {earlier : List Row} {reading : Reading}
    {adds : List (Text × ByteSize)} (h : Accounts earlier reading adds) {row : Row}
    (hrow : isSectionLabel row.description = true) :
    Accounts (earlier ++ [row]) (reading.openSection row) (adds ++ [row.addition]) := by
  have hlabels : labelsOf (earlier ++ [row]) = labelsOf earlier ++ [row.description] := by
    simp [labelsOf, labelRows_concat, hrow]
  refine ⟨?_, ?_, ?_, ?_⟩
  · rw [Row.addition, Tally.ofAdditions_concat, ← h.totals]
    rfl
  · have hposted := h.posted.append_right [row.addition]
    rw [List.append_assoc] at hposted
    refine hposted.trans ?_
    simp only [labelRows_concat, hrow, if_true, List.map_append, List.append_assoc]
    exact List.Perm.append_left _ List.perm_append_comm
  · rw [hlabels, List.map_append, List.map_singleton, eraseDups_concat, eraseDups_concat, h.order]
    exact if_congr (h.mem_labels row.description) rfl rfl
  · intro label hlabel
    cases hlabel
    rw [hlabels]
    exact List.mem_append_right _ (List.mem_singleton.mpr rfl)

theorem labelRows_of_not {earlier : List Row} {row : Row}
    (h : isSectionLabel row.description = false) :
    labelRows (earlier ++ [row]) = labelRows earlier := by
  simp [labelRows_concat, h]

theorem Accounts.openSymbol {earlier : List Row} {reading : Reading}
    {adds : List (Text × ByteSize)} (h : Accounts earlier reading adds) {row : Row} {label : Text}
    (hrow : isSectionLabel row.description = false) (hlabel : reading.label = some label) :
    Accounts (earlier ++ [row]) (reading.openSymbol (row.key label) row)
      (adds ++ [(label, row.size)]) := by
  have hknown := h.current label hlabel
  refine ⟨?_, ?_, ?_, ?_⟩
  · rw [Tally.ofAdditions_concat, ← h.totals]
    rfl
  · rw [labelRows_of_not hrow]
    have hposted := h.posted.append_right [(label, row.size)]
    rw [List.append_assoc] at hposted
    exact hposted.trans (List.Perm.append_left _ List.perm_append_comm)
  · rw [List.map_append, List.map_singleton, eraseDups_concat,
      if_pos ((h.mem_labels label).mpr hknown), h.order, labelsOf, labelsOf,
      labelRows_of_not hrow]
  · intro other hother
    rw [labelsOf, labelRows_of_not hrow]
    exact h.current other hother

theorem Accounts.step {earlier : List Row} {reading next : Reading} {row : Row}
    {adds : List (Text × ByteSize)} (h : Accounts earlier reading adds)
    (hstep : Reading.Step reading row next) : ∃ adds, Accounts (earlier ++ [row]) next adds := by
  cases hstep with
  | openSection hrow => exact ⟨_, h.openSection hrow⟩
  | skip hrow hnone =>
    refine ⟨adds, h.totals, ?_, ?_, ?_⟩
    · rw [labelRows_of_not hrow]
      exact h.posted
    · rw [labelsOf, labelRows_of_not hrow]
      exact h.order
    · rw [hnone]
      exact fun _ hlabel => nomatch hlabel
  | rename label hrow hlabel hkey hdelimiter =>
    refine ⟨adds, h.totals, ?_, ?_, ?_⟩
    · -- a new name adds nothing
      rw [labelRows_of_not hrow, Reading.map_rename fun _ _ => rfl]
      exact h.posted
    · rw [labelsOf, labelRows_of_not hrow]
      exact h.order
    · rw [labelsOf, labelRows_of_not hrow]
      exact h.current
  | openSymbol label hrow hlabel hopen => exact ⟨_, h.openSymbol hrow hlabel⟩

theorem exists_accounts_rows (rows : List Row) :
    ∃ adds, Accounts rows (rows.foldl Reading.atRow {}) adds := by
  refine Reading.foldl_atRow_induction (P := fun rows reading => ∃ adds,
    Accounts rows reading adds) ?_ ?_ rows
  · exact ⟨[], rfl, List.Perm.refl _, rfl, fun _ h => nomatch h⟩
  · rintro earlier reading row next ⟨adds, h⟩ hstep
    exact h.step hstep

/-! ## The totals of a map -/

theorem exists_additions (map : Text) :
    ∃ adds, (listing map).totals = Tally.ofAdditions adds ∧
      adds.Perm ((labelRows (rows map)).map Row.addition ++
        (listing map).symbols.map MapSymbol.addition) ∧
      (adds.map (·.1)).eraseDups = (labelsOf (rows map)).eraseDups := by
  obtain ⟨adds, h⟩ := exists_accounts_rows (rows map)
  refine ⟨adds, ?_, ?_, h.order⟩
  · rw [listing_eq]
    exact h.totals
  · rw [listing_eq]
    refine h.posted.trans (List.Perm.append_left _ ?_)
    exact (List.reverse_perm _).symm.map _

theorem amount_symbols (listing : Listing) (label : Text) :
    Tally.amount label (listing.symbols.map MapSymbol.addition) =
      ((listing.symbolsIn label).map (·.size.bytes)).sum := by
  rw [Tally.amount, List.filter_map, List.map_map]
  rfl

theorem amount_labelRows (rows : List Row) {label : Text} (h : isSectionLabel label = true) :
    Tally.amount label ((labelRows rows).map Row.addition) =
      ((rows.filter fun row => row.description == label).map (·.size.bytes)).sum := by
  have hsame : (labelRows rows).filter (fun row => row.description == label) =
      rows.filter fun row => row.description == label := by
    rw [labelRows, List.filter_filter]
    refine List.filter_congr fun row _ => ?_
    cases heq : row.description == label with
    | false => rfl
    | true => rw [eq_of_beq heq, h, Bool.and_self]
  rw [Tally.amount, List.filter_map, List.map_map, ← hsame]
  rfl

theorem mem_labelsOf {rows : List Row} {label : Text} (h : isSectionLabel label = true) :
    label ∈ labelsOf rows ↔ ∃ row ∈ rows, row.description = label := by
  simp only [labelsOf, labelRows, List.mem_map, List.mem_filter]
  constructor
  · rintro ⟨row, ⟨hrow, -⟩, heq⟩
    exact ⟨row, hrow, heq⟩
  · rintro ⟨row, hrow, heq⟩
    exact ⟨row, ⟨hrow, heq ▸ h⟩, heq⟩

theorem get?_totals (map : Text) {label : Text} (h : isSectionLabel label = true) :
    (listing map).totals.get? label =
      if label ∈ labelsOf (rows map) then
        some (ByteSize.ofNat
          ((((rows map).filter fun row => row.description == label).map (·.size.bytes)).sum +
            (((listing map).symbolsIn label).map (·.size.bytes)).sum))
      else none := by
  obtain ⟨adds, htotals, hposted, horder⟩ := exists_additions map
  have hmem : label ∈ adds.map (·.1) ↔ label ∈ labelsOf (rows map) := by
    rw [← List.mem_eraseDups, horder, List.mem_eraseDups]
  rw [htotals, Tally.get?_ofAdditions, Tally.amount_perm label hposted, Tally.amount_append,
    amount_labelRows _ h, amount_symbols]
  exact if_congr hmem rfl rfl

/-- Totals depend on the section labels and on the symbols, and not on their order. -/
theorem get?_totals_of_perm {map map' : Text}
    (hlabels : (labelRows (rows map)).Perm (labelRows (rows map')))
    (hsymbols : (listing map).symbols.Perm (listing map').symbols) (label : Text) :
    (listing map).totals.get? label = (listing map').totals.get? label := by
  obtain ⟨adds, htotals, hposted, -⟩ := exists_additions map
  obtain ⟨adds', htotals', hposted', -⟩ := exists_additions map'
  have hsame : adds.Perm adds' :=
    hposted.trans (((hlabels.map _).append (hsymbols.map _)).trans hposted'.symm)
  rw [htotals, htotals']
  exact Tally.get?_ofAdditions_perm hsame label

theorem labels_totals (map : Text) :
    (listing map).totals.labels = (labelsOf (rows map)).eraseDups := by
  obtain ⟨adds, htotals, -, horder⟩ := exists_additions map
  rw [htotals, Tally.labels_ofAdditions, horder]

theorem exists_total_of_symbol {map : Text} {symbol : MapSymbol}
    (h : symbol ∈ (listing map).symbols) :
    ∃ total, (listing map).totals.get? symbol.sectionLabel = some total := by
  obtain ⟨adds, htotals, hposted, -⟩ := exists_additions map
  have hadded : symbol.addition ∈ adds :=
    hposted.mem_iff.mpr (List.mem_append_right _ (List.mem_map_of_mem h))
  have hmem : symbol.sectionLabel ∈ adds.map (·.1) := List.mem_map_of_mem hadded
  exact ⟨_, by rw [htotals, Tally.get?_ofAdditions, if_pos hmem]⟩

/-- **Conservation.** A section has a total exactly if some row has its label, and the total is
the exact sum of the sizes of those rows and of the symbols listed in the section, clamped at the
largest size. The totals hold every label once, in the order of the first rows with them, and
the section of every symbol has one. -/
theorem totals_conserved (map label : Text) (h : isSectionLabel label = true) :
    ((listing map).totals.get? label = none ↔ ∀ row ∈ rows map, row.description ≠ label) ∧
      (∀ total, (listing map).totals.get? label = some total → total.bytes = min (2 ^ 64 - 1)
        ((((rows map).filter fun row => row.description == label).map (·.size.bytes)).sum +
          (((listing map).symbolsIn label).map (·.size.bytes)).sum)) ∧
      (listing map).totals.labels = (labelsOf (rows map)).eraseDups ∧
      (listing map).totals.labels.Nodup ∧
      ∀ symbol ∈ (listing map).symbols,
        ∃ total, (listing map).totals.get? symbol.sectionLabel = some total := by
  refine ⟨?_, ?_, labels_totals map, ?_, fun symbol hsymbol => exists_total_of_symbol hsymbol⟩
  · rw [get?_totals map h]
    constructor
    · intro hnone row hrow heq
      rw [if_pos ((mem_labelsOf h).mpr ⟨row, hrow, heq⟩)] at hnone
      cases hnone
    · intro hnone
      refine if_neg fun hmem => ?_
      obtain ⟨row, hrow, heq⟩ := (mem_labelsOf h).mp hmem
      exact hnone row hrow heq
  · intro total htotal
    rw [get?_totals map h] at htotal
    split at htotal
    · cases htotal
      rw [ByteSize.bytes_ofNat, Nat.min_comm]
      rfl
    · cases htotal
  · rw [labels_totals]
    exact nodup_eraseDups _

/-- Ten bytes of the section itself and five of its only symbol, which has two rows. -/
theorem totals_conserved_code :
    let map := "- 8 a CODE\n- 20 5 a.o:(f)\n- 20 5 f\n".toList
    let code := "CODE".toList
    let symbol : MapSymbol := ⟨code, "20".toList, ByteSize.ofNat 5, "a.o".toList, "f".toList⟩
    isSectionLabel code = true ∧
      (listing map).totals.get? code = some (ByteSize.ofNat 15) ∧
      (ByteSize.ofNat 15).bytes = min (2 ^ 64 - 1)
        ((((rows map).filter fun row => row.description == code).map (·.size.bytes)).sum +
          (((listing map).symbolsIn code).map (·.size.bytes)).sum) ∧
      symbol ∈ (listing map).symbols ∧
      ∃ total, (listing map).totals.get? symbol.sectionLabel = some total := by
  intro map code symbol
  have hlabel : isSectionLabel code = true := by decide +kernel
  have htotal : (listing map).totals.get? code = some (ByteSize.ofNat 15) := by decide +kernel
  have hsymbol : symbol ∈ (listing map).symbols := by decide +kernel
  have h := totals_conserved map code hlabel
  exact ⟨hlabel, htotal, h.2.1 _ htotal, hsymbol, h.2.2.2.2 symbol hsymbol⟩

end BinarySize.LinkMap
