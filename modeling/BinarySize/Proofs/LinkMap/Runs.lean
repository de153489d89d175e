import BinarySize.Proofs.LinkMap.Rows
import BinarySize.Proofs.LinkMap.Steps

/-!
# Runs of rows about one symbol

The symbols of a map can be read off without a machine. Give every row that is no section label
the section it stands in, cut these rows into runs of one opening row and its continuations, and
make one symbol of each run. Proved here:

* `runs_concat_of_continues`, `runs_concat_of_opens`: one more row joins the last run or opens one;
* `represents_rows`: after any rows, the reading represents their runs;
* `symbols_eq_runs`: the symbols of a map are those of its runs.
-/

namespace BinarySize.LinkMap

open Text

/-! ## Rows about symbols -/

/-- The section that is open below some rows: the last label among their descriptions. -/
def openLabel? (earlier : List Row) : Option Text :=
  (earlier.reverse.find? fun row => isSectionLabel row.description).map (·.description)

structure SymbolRow where
  label : Text
  row : Row
  deriving DecidableEq

/-- The row about a symbol that a row below some earlier ones is: it is no section label, and a
section is open. -/
def symbolRow? (earlier : List Row) (row : Row) : Option SymbolRow :=
  if isSectionLabel row.description then none else (openLabel? earlier).map (⟨·, row⟩)

def symbolRowsBelow (earlier : List Row) : List Row → List SymbolRow
  | [] => []
  | row :: later =>
    (symbolRow? earlier row).toList ++ symbolRowsBelow (earlier ++ [row]) later

def symbolRows (rows : List Row) : List SymbolRow := symbolRowsBelow [] rows

namespace SymbolRow

def key (x : SymbolRow) : RowKey := x.row.key x.label

/-- Whether a row continues the symbol that another one opened: it has the same key, and its
description has no delimiter. -/
def continues (x opening : SymbolRow) : Bool :=
  decide (x.key = opening.key) && !occursIn delimiter x.row.description

end SymbolRow

/-! ## Runs -/

/-- An opening row and its continuations. -/
structure Run where
  opening : SymbolRow
  more : List SymbolRow
  deriving DecidableEq

/-- Rows about symbols, cut into runs: a row opens a run unless it continues the last opening
row. -/
def runs : List SymbolRow → List Run
  | [] => []
  | opening :: rest =>
    ⟨opening, rest.takeWhile (·.continues opening)⟩ ::
      runs (rest.dropWhile (·.continues opening))
termination_by xs => xs.length
decreasing_by exact Nat.lt_succ_of_le (List.dropWhile_suffix _).length_le

namespace Run

def snoc (run : Run) (x : SymbolRow) : Run := { run with more := run.more ++ [x] }

/-- The last description among the continuations that is not empty. -/
def lastName? (run : Run) : Option Text :=
  ((run.more.map (·.row.description)).filter fun name => !name.isEmpty).getLast?

def symbol (run : Run) : MapSymbol where
  sectionLabel := run.opening.label
  offset := run.opening.row.offset
  size := run.opening.row.size
  file := (splitFileSymbol run.opening.row.description).1
  name := run.lastName?.getD (splitFileSymbol run.opening.row.description).2

end Run

theorem openLabel?_concat (rows : List Row) (row : Row) :
    openLabel? (rows ++ [row]) =
      if isSectionLabel row.description then some row.description else openLabel? rows := by
  cases h : isSectionLabel row.description with
  | true => simp [openLabel?, h]
  | false => simp [openLabel?, h]

theorem symbolRowsBelow_append (earlier rows later : List Row) :
    symbolRowsBelow earlier (rows ++ later) =
      symbolRowsBelow earlier rows ++ symbolRowsBelow (earlier ++ rows) later := by
  induction rows generalizing earlier with
  | nil => simp [symbolRowsBelow]
  | cons row rows ih => simp [symbolRowsBelow, ih]

theorem symbolRows_concat (rows : List Row) (row : Row) :
    symbolRows (rows ++ [row]) = symbolRows rows ++ (symbolRow? rows row).toList := by
  simp [symbolRows, symbolRowsBelow_append, symbolRowsBelow]

/-- A section label, and a row above all sections, is no row about a symbol. -/
theorem symbolRows_concat_of_none (rows : List Row) (row : Row)
    (h : isSectionLabel row.description = true ∨ openLabel? rows = none) :
    symbolRows (rows ++ [row]) = symbolRows rows := by
  have hnone : symbolRow? rows row = none := by
    rcases h with h | h
    · rw [symbolRow?, if_pos h]
    · rw [symbolRow?, h, Option.map_none, ite_self]
  rw [symbolRows_concat, hnone, Option.toList_none, List.append_nil]

theorem symbolRows_concat_of_some {rows : List Row} {row : Row} {label : Text}
    (h : isSectionLabel row.description = false) (hlabel : openLabel? rows = some label) :
    symbolRows (rows ++ [row]) = symbolRows rows ++ [⟨label, row⟩] := by
  simp [symbolRows_concat, symbolRow?, h, hlabel]

theorem SymbolRow.continues_iff (x opening : SymbolRow) :
    x.continues opening = true ↔
      x.key = opening.key ∧ occursIn delimiter x.row.description = false := by
  simp [continues]

/-! ## One more row -/

@[simp] theorem runs_nil : runs [] = [] := by rw [runs]

theorem runs_cons (opening : SymbolRow) (rest : List SymbolRow) :
    runs (opening :: rest) =
      ⟨opening, rest.takeWhile (·.continues opening)⟩ ::
        runs (rest.dropWhile (·.continues opening)) := by
  rw [runs]

theorem runs_ne_nil {xs : List SymbolRow} (h : xs ≠ []) : runs xs ≠ [] := by
  cases xs with
  | nil => exact absurd rfl h
  | cons x xs =>
    rw [runs_cons]
    exact List.cons_ne_nil _ _

/-- One more row joins the last run if it continues it and opens a run of its own if not. -/
theorem runs_concat (xs : List SymbolRow) (x : SymbolRow) :
    runs (xs ++ [x]) =
      match (runs xs).getLast? with
      | none => [⟨x, []⟩]
      | some last =>
        if x.continues last.opening then (runs xs).dropLast ++ [last.snoc x]
        else runs xs ++ [⟨x, []⟩] := by
  induction xs using runs.induct with
  | case1 => simp [runs_cons]
  | case2 opening rest ih =>
    rw [List.cons_append, runs_cons, runs_cons]
    have hcut := List.takeWhile_append_dropWhile (p := (·.continues opening)) (l := rest)
    cases hd : rest.dropWhile (·.continues opening) with
    | nil =>
      -- the only run so far takes all of `rest`
      rw [hd, List.append_nil] at hcut
      have hall : ∀ y ∈ rest, y.continues opening = true := by
        rw [← hcut]
        exact List.all_eq_true.mp List.all_takeWhile
      rw [List.takeWhile_append_of_pos hall, List.dropWhile_append_of_pos hall, hcut]
      cases hx : x.continues opening with
      | true => simp [hx, Run.snoc]
      | false => simp [hx, runs_cons]
    | cons y ys =>
      -- the run in front is closed, so the row concerns the runs behind it
      have hne : runs (y :: ys) ≠ [] := runs_ne_nil (List.cons_ne_nil _ _)
      have hlong : ¬ (rest.takeWhile (·.continues opening)).length = rest.length := by
        have hlen := congrArg List.length hcut
        rw [List.length_append, hd, List.length_cons] at hlen
        omega
      rw [hd] at ih
      rw [List.takeWhile_append, if_neg hlong, List.dropWhile_append, hd]
      simp only [List.isEmpty_cons, Bool.false_eq_true, if_false]
      rw [ih, List.getLast?_cons_of_ne_nil hne]
      cases hlast : (runs (y :: ys)).getLast? with
      | none => exact absurd (List.getLast?_eq_none_iff.mp hlast) hne
      | some last =>
        simp only
        split
        · rw [List.dropLast_cons_of_ne_nil hne, List.cons_append]
        · rw [List.cons_append]

theorem runs_concat_of_continues {xs : List SymbolRow} {x : SymbolRow} {last : Run}
    (hlast : (runs xs).getLast? = some last) (h : x.continues last.opening = true) :
    runs (xs ++ [x]) = (runs xs).dropLast ++ [last.snoc x] := by
  rw [runs_concat, hlast]
  simp only [h, if_true]

theorem runs_concat_of_opens {xs : List SymbolRow} {x : SymbolRow}
    (h : ∀ last, (runs xs).getLast? = some last → x.continues last.opening = false) :
    runs (xs ++ [x]) = runs xs ++ [⟨x, []⟩] := by
  rw [runs_concat]
  cases hlast : (runs xs).getLast? with
  | none =>
    rw [List.getLast?_eq_none_iff.mp hlast]
    rfl
  | some last => simp only [h last hlast, Bool.false_eq_true, if_false]

/-- A continuation with a description gives the symbol a new name. -/
theorem rename_symbol (run : Run) (x : SymbolRow) (older : List MapSymbol) :
    Reading.rename x.row.description (run.symbol :: older) = (run.snoc x).symbol :: older := by
  cases h : x.row.description.isEmpty with
  | true => simp [Reading.rename, Run.symbol, Run.lastName?, Run.snoc, h]
  | false => simp [Reading.rename, Run.symbol, Run.lastName?, Run.snoc, h]

/-! ## The reading -/

/-- The reading of some rows knows the open section, the key of the last opening row and one
symbol for each run. -/
structure Represents (earlier : List Row) (reading : Reading) : Prop where
  label : reading.label = openLabel? earlier
  key : reading.key = (runs (symbolRows earlier)).getLast?.map (·.opening.key)
  newest : reading.newest.reverse = (runs (symbolRows earlier)).map Run.symbol

theorem represents_nil : Represents [] {} where
  label := rfl
  key := by simp [symbolRows, symbolRowsBelow]
  newest := by simp [symbolRows, symbolRowsBelow]

/-- A row with the key of the last opening row and without a delimiter joins the last run. -/
theorem Represents.rename {earlier : List Row} {reading : Reading} {row : Row} {label : Text}
    (h : Represents earlier reading) (hrow : isSectionLabel row.description = false)
    (hlabel : reading.label = some label) (hkey : reading.key = some (row.key label))
    (hdelimiter : occursIn delimiter row.description = false) :
    Represents (earlier ++ [row])
      { reading with newest := Reading.rename row.description reading.newest } := by
  have hrows := symbolRows_concat_of_some hrow (h.label.symm.trans hlabel)
  obtain ⟨last, hlast, hlastKey⟩ := Option.map_eq_some_iff.mp (h.key.symm.trans hkey)
  have hcontinues : (⟨label, row⟩ : SymbolRow).continues last.opening = true :=
    (SymbolRow.continues_iff _ _).mpr ⟨hlastKey.symm, hdelimiter⟩
  have hruns := runs_concat_of_continues hlast hcontinues
  rw [← hrows] at hruns
  -- the symbol of the last run is the one that gets the name
  obtain ⟨init, hinit⟩ := List.getLast?_eq_some_iff.mp hlast
  have hdrop : (runs (symbolRows earlier)).dropLast = init := by simp [hinit]
  have hnewest : reading.newest = last.symbol :: (init.map Run.symbol).reverse := by
    have hrev := congrArg List.reverse h.newest
    rw [List.reverse_reverse, hinit] at hrev
    simpa using hrev
  refine ⟨by simp [openLabel?_concat, hrow, h.label], ?_, ?_⟩
  · rw [hruns]
    simp [hkey, ← hlastKey, Run.snoc]
  · rw [hruns, hdrop, hnewest]
    simp only
    rw [rename_symbol last ⟨label, row⟩]
    simp

/-- Any other row below a section label opens a run. -/
theorem Represents.openSymbol {earlier : List Row} {reading : Reading} {row : Row} {label : Text}
    (h : Represents earlier reading) (hrow : isSectionLabel row.description = false)
    (hlabel : reading.label = some label)
    (hopen : reading.key = some (row.key label) →
      occursIn delimiter row.description = true) :
    Represents (earlier ++ [row]) (reading.openSymbol (row.key label) row) := by
  have hrows := symbolRows_concat_of_some hrow (h.label.symm.trans hlabel)
  have hopens : ∀ last, (runs (symbolRows earlier)).getLast? = some last →
      (⟨label, row⟩ : SymbolRow).continues last.opening = false := by
    intro last hlast
    rw [Bool.eq_false_iff]
    intro hcontinues
    obtain ⟨hsame, hdelimiter⟩ := (SymbolRow.continues_iff _ _).mp hcontinues
    have hlastKey : reading.key = some (row.key label) := by
      rw [h.key, hlast]
      exact congrArg some hsame.symm
    rw [hopen hlastKey] at hdelimiter
    cases hdelimiter
  have hruns := runs_concat_of_opens hopens
  rw [← hrows] at hruns
  refine ⟨by simp [Reading.openSymbol, openLabel?_concat, hrow, h.label], ?_, ?_⟩
  · rw [hruns]
    simp [Reading.openSymbol, SymbolRow.key]
  · rw [hruns]
    simp [Reading.openSymbol, h.newest, Run.symbol, Run.lastName?, Row.key]

theorem Represents.step {earlier : List Row} {reading next : Reading} {row : Row}
    (h : Represents earlier reading) (hstep : Reading.Step reading row next) :
    Represents (earlier ++ [row]) next := by
  cases hstep with
  | openSection hrow =>
    have hrows := symbolRows_concat_of_none earlier row (Or.inl hrow)
    exact ⟨by simp [Reading.openSection, openLabel?_concat, hrow], hrows ▸ h.key,
      hrows ▸ h.newest⟩
  | skip hrow hnone =>
    have hrows := symbolRows_concat_of_none earlier row (Or.inr (h.label.symm.trans hnone))
    exact ⟨by simp [openLabel?_concat, hrow, h.label], hrows ▸ h.key, hrows ▸ h.newest⟩
  | rename label hrow hlabel hkey hdelimiter => exact h.rename hrow hlabel hkey hdelimiter
  | openSymbol label hrow hlabel hopen => exact h.openSymbol hrow hlabel hopen

theorem represents_rows (rows : List Row) : Represents rows (rows.foldl Reading.atRow {}) :=
  Reading.foldl_atRow_induction represents_nil (fun _ _ _ _ h hstep => h.step hstep) rows

/-- **Row-run reading.** The symbols of a map are those of the runs of its rows about symbols,
and its rows are the data rows among its lines. -/
theorem symbols_eq_runs (map : Text) :
    (listing map).symbols = (runs (symbolRows (rows map))).map Run.symbol ∧
      ∀ (line : Text) (row : Row), row? line = some row ↔ IsDataRow line row := by
  refine ⟨?_, row?_eq_some_iff⟩
  rw [listing_eq]
  exact (represents_rows (rows map)).newest

end BinarySize.LinkMap
