import BinarySize.Proofs.LinkMap.Totals

/-!
# One map below another

The reader of a map keeps the key of the last symbol across section labels, so the rows of a
second map are read in a state that the first one left behind. If no section has a label in both
and the second map starts with a section label, that state has no say: its key belongs to a
section that does not come up again. Proved here:

* `Reading.atRow_below`: a row of another section is read alike below a reading and on its own;
* `Reading.foldl_atRow_below`: so is a whole map;
* `listingOfLines_append`: the totals and the symbols of two maps, one below the other, are those
  of the first and then those of the second.
-/

namespace BinarySize

theorem Tally.addTo_append {label : Text} {front : List (Text × ByteSize)}
    (h : label ∉ front.map (·.1)) (size : ByteSize) (back : List (Text × ByteSize)) :
    addTo label size (front ++ back) = front ++ addTo label size back := by
  induction front with
  | nil => rfl
  | cons entry front ih =>
    obtain ⟨known, total⟩ := entry
    rw [List.map_cons, List.mem_cons, not_or] at h
    rw [List.cons_append, addTo, if_neg (Ne.symm h.1), ih h.2, List.cons_append]

namespace LinkMap

namespace Reading

/-! ## The key of the last symbol -/

/-- The key that a reading keeps is that of a symbol it has listed, in a section that has a
total. -/
def KeepsKey (reading : Reading) : Prop :=
  ∀ key, reading.key = some key → key.label ∈ reading.totals.labels ∧ reading.newest ≠ []

/-- Sections that have a total keep it, and symbols that are listed stay listed. -/
theorem KeepsKey.step {reading next : Reading} {row : Row} (h : reading.KeepsKey)
    (hstep : Step reading row next) : next.KeepsKey := by
  cases hstep with
  | openSection =>
    intro key hkey
    exact ⟨Tally.mem_labels_add.mpr (.inr (h key hkey).1), (h key hkey).2⟩
  | skip => exact h
  | rename =>
    -- a new name for the last symbol leaves as many symbols as there were
    intro key hkey
    refine ⟨(h key hkey).1, fun hnil => (h key hkey).2 ?_⟩
    have hlength := length_rename row.description reading.newest
    rw [show Reading.rename row.description reading.newest = [] from hnil] at hlength
    exact List.length_eq_zero_iff.mp hlength.symm
  | openSymbol label =>
    intro key hkey
    cases hkey
    exact ⟨Tally.mem_labels_add.mpr (.inl rfl), List.cons_ne_nil _ _⟩

theorem KeepsKey.atRow {reading : Reading} (h : reading.KeepsKey) (row : Row) :
    (reading.atRow row).KeepsKey :=
  h.step (step_atRow reading row)

theorem keepsKey_start : KeepsKey {} := fun _ hkey => nomatch hkey

theorem keepsKey_foldl {reading : Reading} (h : reading.KeepsKey) (rows : List Row) :
    (rows.foldl Reading.atRow reading).KeepsKey := by
  induction rows generalizing reading with
  | nil => exact h
  | cons row rows ih => exact ih (h.atRow row)

/-! ## Reading below another reading -/

/-- A reading as it is if all of its rows stand below those of another one. Until it has a key of
its own, it still has the key from above. -/
def below (front reading : Reading) : Reading where
  label := reading.label
  key := reading.key.or front.key
  totals := ⟨front.totals.totals ++ reading.totals.totals⟩
  newest := reading.newest ++ front.newest

@[simp] theorem label_below (front reading : Reading) :
    (front.below reading).label = reading.label := rfl

/-- The open section of a reading is none of those that another one has totals for. -/
def Foreign (front reading : Reading) : Prop :=
  ∀ label, reading.label = some label → label ∉ front.totals.labels

theorem add_below {front : Reading} {label : Text} (h : label ∉ front.totals.labels)
    (totals : Tally) (size : ByteSize) :
    (⟨front.totals.totals ++ totals.totals⟩ : Tally).add label size =
      ⟨front.totals.totals ++ (totals.add label size).totals⟩ :=
  congrArg Tally.mk (Tally.addTo_append h size totals.totals)

theorem openSection_below {front : Reading} {row : Row}
    (h : row.description ∉ front.totals.labels) (reading : Reading) :
    (front.below reading).openSection row = front.below (reading.openSection row) := by
  simp only [openSection, below, add_below h]

theorem openSymbol_below {front : Reading} {key : RowKey} (h : key.label ∉ front.totals.labels)
    (reading : Reading) (row : Row) :
    (front.below reading).openSymbol key row = front.below (reading.openSymbol key row) := by
  simp only [openSymbol, below, add_below h, Option.some_or, List.cons_append]

theorem rename_below {newest : List MapSymbol} (h : newest ≠ []) (name : Text)
    (older : List MapSymbol) :
    Reading.rename name (newest ++ older) = Reading.rename name newest ++ older := by
  cases newest with
  | nil => exact absurd rfl h
  | cons symbol newest =>
    simp only [List.cons_append, Reading.rename]
    split <;> rfl

/-- A row has the key of the last symbol below another reading exactly if it has on its own: a key
from above is one of another section. -/
theorem key_below_iff {front reading : Reading} (hfront : front.KeepsKey) {key : RowKey}
    (h : key.label ∉ front.totals.labels) :
    (front.below reading).key = some key ↔ reading.key = some key := by
  cases hkey : reading.key with
  | some known => simp [below, hkey]
  | none =>
    simp only [below, hkey, Option.none_or, reduceCtorEq, iff_false]
    intro habove
    exact h (hfront key habove).1

theorem atSymbol_below {front reading : Reading} (hfront : front.KeepsKey)
    (hkeeps : reading.KeepsKey) {label : Text} (h : label ∉ front.totals.labels) (row : Row) :
    (front.below reading).atSymbol label row = front.below (reading.atSymbol label row) := by
  have hkey : (front.below reading).key = some ⟨label, row.offset, row.sizeToken⟩ ↔
      reading.key = some ⟨label, row.offset, row.sizeToken⟩ := key_below_iff hfront h
  simp only [atSymbol, hkey]
  split
  · next hsame =>
    -- the symbol that gets the name is one of the reading's own, not the last one above it
    have hne := (hkeeps _ hsame.1).2
    simp only [below, rename_below hne]
  · exact openSymbol_below h reading row

/-- **One row below a reading.** A row that neither opens nor stands in a section of the reading
above it is read as if it stood on its own. -/
theorem atRow_below {front reading : Reading} (hfront : front.KeepsKey)
    (hkeeps : reading.KeepsKey) (hforeign : front.Foreign reading) {row : Row}
    (hrow : isSectionLabel row.description = true → row.description ∉ front.totals.labels) :
    (front.below reading).atRow row = front.below (reading.atRow row) := by
  unfold atRow
  split
  · next h => exact openSection_below (hrow h) reading
  · rw [label_below]
    cases hlabel : reading.label with
    | none => rfl
    | some label => exact atSymbol_below hfront hkeeps (hforeign label hlabel) row

theorem Foreign.atRow {front reading : Reading} (h : front.Foreign reading) {row : Row}
    (hrow : isSectionLabel row.description = true → row.description ∉ front.totals.labels) :
    front.Foreign (reading.atRow row) := by
  have hstep := step_atRow reading row
  generalize reading.atRow row = next at hstep ⊢
  cases hstep with
  | openSection hlabel =>
    intro label heq
    cases heq
    exact hrow hlabel
  | skip => exact h
  | rename => exact h
  | openSymbol => exact h

/-- **A map below a reading.** By induction along its rows: each of them leaves a reading whose
open section is again none of those above. -/
theorem foldl_atRow_below {front : Reading} (hfront : front.KeepsKey) {rows : List Row}
    (hrows : ∀ row ∈ rows, isSectionLabel row.description = true →
      row.description ∉ front.totals.labels)
    {reading : Reading} (hkeeps : reading.KeepsKey) (hforeign : front.Foreign reading) :
    rows.foldl Reading.atRow (front.below reading) =
      front.below (rows.foldl Reading.atRow reading) := by
  induction rows generalizing reading with
  | nil => rfl
  | cons row rows ih =>
    have hrow := hrows row List.mem_cons_self
    rw [List.foldl_cons, List.foldl_cons, atRow_below hfront hkeeps hforeign hrow]
    exact ih (fun r hr => hrows r (List.mem_cons_of_mem _ hr)) (hkeeps.atRow row)
      (hforeign.atRow hrow)

end Reading

/-! ## Two maps -/

def StartsAtLabel (rows : List Row) : Prop :=
  rows.takeWhile (fun row => !isSectionLabel row.description) = []

instance (rows : List Row) : Decidable (StartsAtLabel rows) := by
  unfold StartsAtLabel
  infer_instance

theorem StartsAtLabel.head {row : Row} {rows : List Row} (h : StartsAtLabel (row :: rows)) :
    isSectionLabel row.description = true := by
  cases hlabel : isSectionLabel row.description with
  | true => rfl
  | false => simp [StartsAtLabel, hlabel] at h

theorem mem_labels_foldl (rows : List Row) (label : Text) :
    label ∈ (rows.foldl Reading.atRow {}).totals.labels ↔ label ∈ labelsOf rows := by
  obtain ⟨adds, h⟩ := exists_accounts_rows rows
  rw [h.totals, Tally.labels_ofAdditions, List.mem_eraseDups, h.mem_labels]

/-- What a reading lists after a map that starts with a section label: whatever section was open
above, the label opens its own. -/
theorem listing_foldl_atRow {front : Reading} (hfront : front.KeepsKey) {rows : List Row}
    (hstart : StartsAtLabel rows)
    (hrows : ∀ label ∈ labelsOf rows, label ∉ front.totals.labels) :
    (rows.foldl Reading.atRow front).listing =
      (front.below (rows.foldl Reading.atRow {})).listing := by
  cases rows with
  | nil => simp [Reading.listing, Reading.below, Tally.empty]
  | cons row rows =>
    -- the first row is a label, so the section that was open above is forgotten
    have hfirst : front.atRow row = (front.below {}).atRow row := by
      simp [Reading.atRow, hstart.head, Reading.openSection, Reading.below, Tally.empty]
    have hforeign : front.Foreign {} := fun _ hlabel => nomatch hlabel
    have hlabels : ∀ r ∈ row :: rows, isSectionLabel r.description = true →
        r.description ∉ front.totals.labels := by
      intro r hr hlabel
      exact hrows _ ((mem_labelsOf hlabel).mpr ⟨r, hr, rfl⟩)
    rw [List.foldl_cons, hfirst, ← List.foldl_cons]
    rw [Reading.foldl_atRow_below hfront hlabels Reading.keepsKey_start hforeign]

/-- **Composition.** If no section has a label in both of two maps and no row of the second stands
above its first section label, the totals and the symbols of the first map with the second below
it are those of the first and then those of the second. So no row of the second map is taken for
another row of a symbol of the first, though offsets and sizes may repeat. -/
theorem listingOfLines_append {first second : List Text}
    (hlabels : ∀ label ∈ labelsOf (rowsOf first), label ∉ labelsOf (rowsOf second))
    (hstart : StartsAtLabel (rowsOf second)) :
    (listingOfLines (first ++ second)).totals.totals =
        (listingOfLines first).totals.totals ++ (listingOfLines second).totals.totals ∧
      (listingOfLines (first ++ second)).symbols =
        (listingOfLines first).symbols ++ (listingOfLines second).symbols := by
  have hsections : ∀ label ∈ labelsOf (rowsOf second),
      label ∉ ((rowsOf first).foldl Reading.atRow {}).totals.labels := by
    intro label hsecond hfirst
    exact hlabels label ((mem_labels_foldl _ _).mp hfirst) hsecond
  have hjoint := listing_foldl_atRow
    (Reading.keepsKey_foldl Reading.keepsKey_start (rowsOf first)) hstart hsections
  rw [← List.foldl_append] at hjoint
  have hrows : rowsOf (first ++ second) = rowsOf first ++ rowsOf second := List.filterMap_append
  simp only [listingOfLines_eq, hrows, hjoint]
  exact ⟨rfl, List.reverse_append⟩

/-- Below a symbol of the code section, a row of the data section with the same offset and size
opens a symbol of its own, and the next one gives that symbol its name. -/
theorem listingOfLines_append_same_offset :
    let first := ["- 8 a CODE".toList, "- 20 5 a.o:(f)".toList]
    let second := ["- 8 4 DATA".toList, "- 20 5 g".toList, "- 20 5 h".toList]
    (∀ label ∈ labelsOf (rowsOf first), label ∉ labelsOf (rowsOf second)) ∧
      StartsAtLabel (rowsOf second) ∧
      (listingOfLines (first ++ second)).totals.totals =
        [("CODE".toList, ByteSize.ofNat 15), ("DATA".toList, ByteSize.ofNat 9)] ∧
      (listingOfLines (first ++ second)).symbols =
        [⟨"CODE".toList, "20".toList, ByteSize.ofNat 5, "a.o".toList, "f".toList⟩,
          ⟨"DATA".toList, "20".toList, ByteSize.ofNat 5, [], "h".toList⟩] := by
  intro first second
  have hlabels : ∀ label ∈ labelsOf (rowsOf first), label ∉ labelsOf (rowsOf second) := by
    decide +kernel
  have hstart : StartsAtLabel (rowsOf second) := by decide +kernel
  obtain ⟨htotals, hsymbols⟩ := listingOfLines_append hlabels hstart
  refine ⟨hlabels, hstart, ?_, ?_⟩
  · rw [htotals]
    decide +kernel
  · rw [hsymbols]
    decide +kernel

end LinkMap

end BinarySize
