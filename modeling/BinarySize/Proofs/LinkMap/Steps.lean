import BinarySize.LinkMap.Listing

/-!
# Steps of reading a map

A row does one of four things to a reading: it opens a section, is left out, renames the last
symbol, or opens a symbol. What every such step keeps holds of the reading of a whole map.
-/

namespace BinarySize.LinkMap

def rowsOf (lines : List Text) : List Row := lines.filterMap row?

def rows (map : Text) : List Row := rowsOf (Text.lines map)

def Row.key (row : Row) (label : Text) : RowKey := ⟨label, row.offset, row.sizeToken⟩

namespace Reading

/-- What a row can do to a reading. -/
inductive Step (reading : Reading) (row : Row) : Reading → Prop
  | openSection (h : isSectionLabel row.description = true) :
      Step reading row (reading.openSection row)
  | skip (h : isSectionLabel row.description = false) (hlabel : reading.label = none) :
      Step reading row reading
  | rename (label : Text) (h : isSectionLabel row.description = false)
      (hlabel : reading.label = some label) (hkey : reading.key = some (row.key label))
      (hdelimiter : Text.occursIn delimiter row.description = false) :
      Step reading row { reading with newest := Reading.rename row.description reading.newest }
  | openSymbol (label : Text) (h : isSectionLabel row.description = false)
      (hlabel : reading.label = some label)
      (hopen : reading.key = some (row.key label) →
        Text.occursIn delimiter row.description = true) :
      Step reading row (reading.openSymbol (row.key label) row)

theorem step_atRow (reading : Reading) (row : Row) : Step reading row (reading.atRow row) := by
  unfold atRow
  split
  · next h => exact .openSection h
  · next h =>
    have hnot : isSectionLabel row.description = false := Bool.not_eq_true _ ▸ h
    split
    · next hlabel => exact .skip hnot hlabel
    · next label hlabel =>
      by_cases hsame : reading.key = some (row.key label) ∧
          Text.occursIn delimiter row.description = false
      · have hrename : reading.atSymbol label row =
            { reading with newest := Reading.rename row.description reading.newest } :=
          if_pos hsame
        rw [hrename]
        exact .rename label hnot hlabel hsame.1 hsame.2
      · have hopen : reading.atSymbol label row = reading.openSymbol (row.key label) row :=
          if_neg hsame
        rw [hopen]
        refine .openSymbol label hnot hlabel fun hkey => ?_
        cases hd : Text.occursIn delimiter row.description with
        | true => rfl
        | false => exact absurd ⟨hkey, hd⟩ hsame

/-- **Induction along a map.** What holds of the empty reading and is kept by every step holds
of the reading of all rows. -/
theorem foldl_atRow_induction {P : List Row → Reading → Prop} (start : P [] {})
    (step : ∀ earlier reading row next, P earlier reading → Step reading row next →
      P (earlier ++ [row]) next) (rows : List Row) : P rows (rows.foldl atRow {}) := by
  have hfrom : ∀ (later earlier : List Row) (reading : Reading), P earlier reading →
      P (earlier ++ later) (later.foldl atRow reading) := by
    intro later
    induction later with
    | nil =>
      intro earlier reading h
      rwa [List.append_nil]
    | cons row later ih =>
      intro earlier reading h
      have hnext := ih (earlier ++ [row]) (reading.atRow row)
        (step earlier reading row _ h (step_atRow reading row))
      rwa [List.append_assoc] at hnext
  exact hfrom rows [] {} start

theorem Step.label_isSome {reading next : Reading} {row : Row} (hstep : Step reading row next)
    (h : reading.label.isSome = true) : next.label.isSome = true := by
  cases hstep with
  | openSection => rfl
  | skip _ hnone => exact h
  | rename => exact h
  | openSymbol => exact h

theorem map_rename {f : MapSymbol → α}
    (hf : ∀ symbol name, f { symbol with name := name } = f symbol) (name : Text)
    (newest : List MapSymbol) : (Reading.rename name newest).map f = newest.map f := by
  cases newest with
  | nil => rfl
  | cons symbol older =>
    rw [Reading.rename]
    split
    · rfl
    · rw [List.map_cons, hf, List.map_cons]

theorem length_rename (name : Text) (newest : List MapSymbol) :
    (Reading.rename name newest).length = newest.length := by
  have h := congrArg List.length (map_rename (f := fun _ => ()) (fun _ _ => rfl) name newest)
  rwa [List.length_map, List.length_map] at h

theorem Step.length_newest_le {reading next : Reading} {row : Row}
    (hstep : Step reading row next) : reading.newest.length ≤ next.newest.length := by
  cases hstep with
  | openSection => exact Nat.le_refl _
  | skip => exact Nat.le_refl _
  | rename => exact Nat.le_of_eq (length_rename _ _).symm
  | openSymbol => exact Nat.le_succ _

/-- In an open section a description with a delimiter opens a symbol. -/
theorem Step.length_newest_of_delimiter {reading next : Reading} {row : Row}
    (hstep : Step reading row next) (hlabel : reading.label.isSome = true)
    (hrow : isSectionLabel row.description = false)
    (hdelimiter : Text.occursIn delimiter row.description = true) :
    next.newest.length = reading.newest.length + 1 := by
  cases hstep with
  | openSection h =>
    rw [hrow] at h
    cases h
  | skip _ hnone =>
    rw [hnone] at hlabel
    cases hlabel
  | rename _ _ _ _ hnot =>
    rw [hdelimiter] at hnot
    cases hnot
  | openSymbol => rfl

end Reading

theorem listingOfLines_eq (lines : List Text) :
    listingOfLines lines = ((rowsOf lines).foldl Reading.atRow {}).listing := by
  have hline : ∀ (reading : Reading) (line : Text),
      reading.atLine line = ((row? line).map reading.atRow).getD reading := by
    intro reading line
    rw [Reading.atLine]
    cases row? line <;> rfl
  have hfold : ∀ reading : Reading,
      lines.foldl Reading.atLine reading = (rowsOf lines).foldl Reading.atRow reading := by
    induction lines with
    | nil => exact fun _ => rfl
    | cons line lines ih =>
      intro reading
      rw [List.foldl_cons, ih, hline]
      cases h : row? line with
      | none => simp [rowsOf, h]
      | some row => simp [rowsOf, h]
  rw [listingOfLines, hfold]

theorem listing_eq (map : Text) :
    listing map = ((rows map).foldl Reading.atRow {}).listing :=
  listingOfLines_eq (Text.lines map)

end BinarySize.LinkMap
