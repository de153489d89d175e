import BinarySize.Proofs.LinkMap.FileAndSymbol
import BinarySize.Proofs.LinkMap.Rows
import BinarySize.Proofs.LinkMap.Totals

/-!
# Maps as the linker writes them

A linker writes a section as a row with its label and each symbol of it as two rows with one
offset and one size: `file:(name)` with the mangled name, and below it the name as it is
displayed. Proved here:

* `rows_unlines`: written rows are read back, however they are laid out;
* `listedOnce_iff`: if no displayed name spells a section label, every symbol is listed and counted
  once exactly if no displayed name holds a delimiter;
* `not_listedOnce_of_any_name`: neither kind of name is taken for a name.
-/

namespace BinarySize.LinkMap

open Text

/-! ## Written rows -/

/-- How a row is laid out: its address, and the blanks around the columns. -/
structure Layout where
  indent : Text
  address : Text
  gap₁ : Text
  gap₂ : Text
  gap₃ : Text

/-- A layout keeps the columns apart and the row on one line. -/
structure Layout.WellFormed (layout : Layout) : Prop where
  indent : ∀ c ∈ layout.indent, isBlank c = true
  address : IsToken layout.address
  gap₁ : IsGap layout.gap₁
  gap₂ : IsGap layout.gap₂
  gap₃ : IsGap layout.gap₃
  oneLine : '\n' ∉ layout.indent ++ layout.gap₁ ++ layout.gap₂ ++ layout.gap₃

structure WrittenRow where
  layout : Layout
  row : Row

/-- The columns of a row can be written: they are tokens that denote its numbers. -/
structure Row.Writable (row : Row) : Prop where
  offset : IsToken row.offset
  sizeToken : IsToken row.sizeToken
  offset_number : (columnNumber? row.offset).isSome = true
  size_number : columnNumber? row.sizeToken = some row.size.bytes

/-- A text that can be written as a description: one line, not empty, without blanks at its
ends. -/
structure IsDescription (description : Text) : Prop where
  ne_nil : description ≠ []
  oneLine : '\n' ∉ description
  trimmed : trim description = description

namespace WrittenRow

def cells (w : WrittenRow) : Cells where
  indent := w.layout.indent
  address := w.layout.address
  gap₁ := w.layout.gap₁
  offset := w.row.offset
  gap₂ := w.layout.gap₂
  sizeToken := w.row.sizeToken
  gap₃ := w.layout.gap₃
  rest := w.row.description

def line (w : WrittenRow) : Text := w.cells.line

structure WellFormed (w : WrittenRow) : Prop where
  layout : w.layout.WellFormed
  row : w.row.Writable
  description : IsDescription w.row.description

end WrittenRow

theorem IsToken.not_mem {cs : Text} (h : IsToken cs) : '\n' ∉ cs := by
  intro hlf
  have hblank := h.2 '\n' hlf
  exact absurd hblank (by decide)

theorem IsDescription.getLast? {description : Text} (h : IsDescription description) :
    description.getLast? ≠ some '\r' := by
  intro hlast
  rw [← h.trimmed] at hlast
  exact absurd (getLast?_trim hlast) (by decide)

namespace WrittenRow

theorem row?_writtenLine {w : WrittenRow} (h : w.WellFormed) : row? w.line = some w.row := by
  obtain ⟨hlayout, hrow, hdescription⟩ := h
  have hrest : '\n' ∉ dropBlanks w.row.description := fun hlf =>
    hdescription.oneLine (List.dropWhile_subset _ hlf)
  exact row?_line
    ⟨hlayout.indent, hlayout.address, hlayout.gap₁, hrow.offset, hlayout.gap₂, hrow.sizeToken,
      hlayout.gap₃, hrest⟩
    ⟨rfl, rfl, hrow.offset_number, hrow.size_number, hdescription.trimmed⟩

theorem not_mem_line {w : WrittenRow} (h : w.WellFormed) : '\n' ∉ w.line := by
  obtain ⟨hlayout, hrow, hdescription⟩ := h
  have hblanks := hlayout.oneLine
  simp only [List.mem_append, not_or] at hblanks
  simp only [line, Cells.line, cells, List.mem_append, not_or]
  exact ⟨hblanks.1.1.1, hlayout.address.not_mem, hblanks.1.1.2, hrow.offset.not_mem,
    hblanks.1.2, hrow.sizeToken.not_mem, hblanks.2, hdescription.oneLine⟩

theorem getLast?_line {w : WrittenRow} (h : w.WellFormed) : w.line.getLast? ≠ some '\r' := by
  have hlast : w.line.getLast? = w.row.description.getLast? := by
    cases hd : w.row.description.getLast? with
    | none => exact absurd (List.getLast?_eq_none_iff.mp hd) h.description.ne_nil
    | some c => simp [line, Cells.line, cells, List.getLast?_append, hd]
  rw [hlast]
  exact h.description.getLast?

end WrittenRow

theorem rows_unlines {ws : List WrittenRow} (h : ∀ w ∈ ws, w.WellFormed) :
    rows (unlines (ws.map WrittenRow.line)) = ws.map WrittenRow.row := by
  rw [rows, rowsOf, lines_unlines]
  · induction ws with
    | nil => rfl
    | cons w ws ih =>
      have hw := WrittenRow.row?_writtenLine (h w List.mem_cons_self)
      have hws := ih fun v hv => h v (List.mem_cons_of_mem _ hv)
      rw [List.map_cons, List.filterMap_cons_some hw, hws, List.map_cons]
  · intro l hl
    obtain ⟨w, hw, rfl⟩ := List.mem_map.mp hl
    exact ⟨WrittenRow.not_mem_line (h w hw), WrittenRow.getLast?_line (h w hw)⟩

/-! ## Sections and symbols -/

/-- A row with the label of a section, on one line. -/
structure IsHeading (heading : WrittenRow) : Prop where
  layout : heading.layout.WellFormed
  row : heading.row.Writable
  label : isSectionLabel heading.row.description = true
  oneLine : '\n' ∉ heading.row.description

/-- A symbol with the two names that the linker has for it, and the layouts of its two rows. -/
structure LinkedSymbol where
  offset : Text
  sizeToken : Text
  size : ByteSize
  file : Text
  mangled : Text
  displayed : Text
  mangledLayout : Layout
  displayedLayout : Layout

namespace LinkedSymbol

def row (s : LinkedSymbol) (description : Text) : Row :=
  ⟨s.offset, s.sizeToken, s.size, description⟩

def inFile (s : LinkedSymbol) : Text := s.file ++ ':' :: '(' :: (s.mangled ++ [')'])

def writtenRows (s : LinkedSymbol) : List WrittenRow :=
  [⟨s.mangledLayout, s.row s.inFile⟩, ⟨s.displayedLayout, s.row s.displayed⟩]

def listed (s : LinkedSymbol) (label : Text) : MapSymbol where
  sectionLabel := label
  offset := s.offset
  size := s.size
  file := s.file
  name := s.displayed

/-- What a linker writes about a symbol: file and mangled name have no delimiter and do not spell
a section label together; the displayed name may be any text on one line. -/
structure WellFormed (s : LinkedSymbol) : Prop where
  writable : (s.row s.displayed).Writable
  mangledLayout : s.mangledLayout.WellFormed
  displayedLayout : s.displayedLayout.WellFormed
  file : '\n' ∉ s.file ∧ occursIn delimiter s.file = false
  file_head : ∀ c, s.file.head? = some c → isBlank c = false
  mangled : '\n' ∉ s.mangled ∧ occursIn delimiter s.mangled = false
  notLabel : isSectionLabel s.inFile = false
  displayed : IsDescription s.displayed

end LinkedSymbol

def written (heading : WrittenRow) (symbols : List LinkedSymbol) : Text :=
  unlines ((heading :: symbols.flatMap LinkedSymbol.writtenRows).map WrittenRow.line)

/-- Every symbol of a written map is listed once, in order, in the section and under its
displayed name, and the total of the section counts it once. -/
def ListedOnce (heading : WrittenRow) (symbols : List LinkedSymbol) : Prop :=
  (listing (written heading symbols)).symbols =
      symbols.map (·.listed heading.row.description) ∧
    (listing (written heading symbols)).totals.get? heading.row.description =
      some (ByteSize.ofNat (heading.row.size.bytes + (symbols.map (·.size.bytes)).sum))

/-! ## Reading a written map -/

namespace LinkedSymbol

theorem WellFormed.isDescription_inFile {s : LinkedSymbol} (h : s.WellFormed) :
    IsDescription s.inFile where
  ne_nil := by simp [inFile]
  oneLine := by
    simp [inFile, h.file.1, h.mangled.1]
  trimmed := by
    apply trim_of_ends
    · intro c hc
      cases hfile : s.file with
      | nil =>
        simp only [inFile, hfile, List.nil_append, List.head?_cons, Option.some.injEq] at hc
        subst hc
        decide
      | cons d ds =>
        simp only [inFile, hfile, List.cons_append, List.head?_cons, Option.some.injEq] at hc
        exact h.file_head c (by rw [hfile, List.head?_cons, hc])
    · intro c hc
      have hlast : s.inFile.getLast? = some ')' := by
        rw [inFile, ← List.cons_append, ← List.cons_append, ← List.append_assoc,
          List.getLast?_concat]
      rw [hlast] at hc
      cases hc
      decide

theorem WellFormed.rows {s : LinkedSymbol} (h : s.WellFormed) :
    ∀ w ∈ s.writtenRows, w.WellFormed := by
  intro w hw
  simp only [writtenRows, List.mem_cons, List.not_mem_nil, or_false] at hw
  rcases hw with rfl | rfl
  · exact ⟨h.mangledLayout, ⟨h.writable.offset, h.writable.sizeToken, h.writable.offset_number,
      h.writable.size_number⟩, h.isDescription_inFile⟩
  · exact ⟨h.displayedLayout, h.writable, h.displayed⟩

theorem occursIn_inFile (s : LinkedSymbol) : occursIn delimiter s.inFile = true :=
  occursIn_iff.mpr ⟨s.file, s.mangled ++ [')'], by simp [inFile, delimiter]⟩

theorem WellFormed.splitFileSymbol_inFile {s : LinkedSymbol} (h : s.WellFormed) :
    splitFileSymbol s.inFile = (s.file, s.mangled) :=
  splitFileSymbol_of_free h.file.1 h.mangled.1 h.mangled.2

def rowsOf (symbols : List LinkedSymbol) : List Row :=
  symbols.flatMap fun s => [s.row s.inFile, s.row s.displayed]

/-- The two rows of a symbol with a plain name list it once. -/
theorem WellFormed.foldl_plain {s : LinkedSymbol} (h : s.WellFormed)
    (hlabel : isSectionLabel s.displayed = false)
    (hdelimiter : occursIn delimiter s.displayed = false) {reading : Reading} {label : Text}
    (hreading : reading.label = some label) :
    let next := (reading.atRow (s.row s.inFile)).atRow (s.row s.displayed)
    next.label = some label ∧ next.newest = s.listed label :: reading.newest := by
  have hname : s.displayed.isEmpty = false := by
    simpa using h.displayed.ne_nil
  simp [Reading.atRow, row, h.notLabel, hlabel, hreading, Reading.atSymbol, occursIn_inFile,
    hdelimiter, Reading.openSymbol, h.splitFileSymbol_inFile, Reading.rename, hname, listed]

theorem foldl_rowsOf_cons (s : LinkedSymbol) (symbols : List LinkedSymbol) (reading : Reading) :
    (rowsOf (s :: symbols)).foldl Reading.atRow reading =
      (rowsOf symbols).foldl Reading.atRow
        ((reading.atRow (s.row s.inFile)).atRow (s.row s.displayed)) := by
  rw [rowsOf, List.flatMap_cons, List.foldl_append]
  rfl

theorem newest_foldl_plain {symbols : List LinkedSymbol} (hsymbols : ∀ s ∈ symbols, s.WellFormed)
    (hlabels : ∀ s ∈ symbols, isSectionLabel s.displayed = false)
    (hdelimiters : ∀ s ∈ symbols, occursIn delimiter s.displayed = false) {reading : Reading}
    {label : Text} (hreading : reading.label = some label) :
    ((rowsOf symbols).foldl Reading.atRow reading).newest =
      (symbols.map (·.listed label)).reverse ++ reading.newest := by
  induction symbols generalizing reading with
  | nil => rfl
  | cons s symbols ih =>
    have hs := List.mem_cons_self (a := s) (l := symbols)
    obtain ⟨hlabel, hnewest⟩ :=
      (hsymbols s hs).foldl_plain (hlabels s hs) (hdelimiters s hs) hreading
    have hrest := ih (fun t ht => hsymbols t (List.mem_cons_of_mem _ ht))
      (fun t ht => hlabels t (List.mem_cons_of_mem _ ht))
      (fun t ht => hdelimiters t (List.mem_cons_of_mem _ ht)) hlabel
    rw [foldl_rowsOf_cons, hrest, hnewest]
    simp

/-- Every symbol is listed at least once, and once more for a displayed name with a delimiter. -/
theorem le_length_newest_foldl {symbols : List LinkedSymbol}
    (hsymbols : ∀ s ∈ symbols, s.WellFormed)
    (hlabels : ∀ s ∈ symbols, isSectionLabel s.displayed = false) {reading : Reading}
    (hreading : reading.label.isSome = true) :
    reading.newest.length + symbols.length +
        (symbols.filter fun s => occursIn delimiter s.displayed).length ≤
      ((rowsOf symbols).foldl Reading.atRow reading).newest.length := by
  induction symbols generalizing reading with
  | nil => exact Nat.le_refl _
  | cons s symbols ih =>
    have hs := List.mem_cons_self (a := s) (l := symbols)
    have hfirst := Reading.step_atRow reading (s.row s.inFile)
    have hsecond := Reading.step_atRow (reading.atRow (s.row s.inFile)) (s.row s.displayed)
    have hlabel := hfirst.label_isSome hreading
    have hopened := hfirst.length_newest_of_delimiter hreading (hsymbols s hs).notLabel
      s.occursIn_inFile
    have hrest := ih (fun t ht => hsymbols t (List.mem_cons_of_mem _ ht))
      (fun t ht => hlabels t (List.mem_cons_of_mem _ ht)) (hsecond.label_isSome hlabel)
    rw [foldl_rowsOf_cons, List.length_cons, List.filter_cons]
    cases hdelimiter : occursIn delimiter s.displayed with
    | true =>
      have hagain := hsecond.length_newest_of_delimiter hlabel (hlabels s hs) hdelimiter
      simp only [if_true, List.length_cons]
      omega
    | false =>
      have hkept := hsecond.length_newest_le
      simp only [Bool.false_eq_true, if_false]
      omega

end LinkedSymbol

/-! ## A written map -/

theorem IsHeading.wellFormed {heading : WrittenRow} (h : IsHeading heading) :
    heading.WellFormed where
  layout := h.layout
  row := h.row
  description :=
    { ne_nil := by
        intro hnil
        have hlabel := h.label
        rw [hnil] at hlabel
        exact absurd hlabel (by decide +kernel)
      oneLine := h.oneLine
      trimmed := trim_of_isSectionLabel h.label }

theorem rows_written {heading : WrittenRow} {symbols : List LinkedSymbol}
    (hheading : IsHeading heading) (hsymbols : ∀ s ∈ symbols, s.WellFormed) :
    rows (written heading symbols) = heading.row :: LinkedSymbol.rowsOf symbols := by
  have hall : ∀ w ∈ heading :: symbols.flatMap LinkedSymbol.writtenRows, w.WellFormed := by
    intro w hw
    rcases List.mem_cons.mp hw with rfl | hw
    · exact hheading.wellFormed
    · obtain ⟨s, hs, hrow⟩ := List.mem_flatMap.mp hw
      exact (hsymbols s hs).rows w hrow
  rw [written, rows_unlines hall, List.map_cons, List.map_flatMap]
  rfl

theorem symbols_written {heading : WrittenRow} {symbols : List LinkedSymbol}
    (hheading : IsHeading heading) (hsymbols : ∀ s ∈ symbols, s.WellFormed) :
    (listing (written heading symbols)).symbols =
      ((LinkedSymbol.rowsOf symbols).foldl Reading.atRow
        (Reading.openSection {} heading.row)).newest.reverse := by
  rw [listing_eq, rows_written hheading hsymbols, List.foldl_cons, Reading.atRow,
    if_pos hheading.label]
  rfl

theorem filter_rows_written {heading : WrittenRow} {symbols : List LinkedSymbol}
    (hheading : IsHeading heading) (hsymbols : ∀ s ∈ symbols, s.WellFormed)
    (hlabels : ∀ s ∈ symbols, isSectionLabel s.displayed = false) :
    (rows (written heading symbols)).filter
      (fun row => row.description == heading.row.description) = [heading.row] := by
  rw [rows_written hheading hsymbols, List.filter_cons, beq_self_eq_true, if_pos rfl]
  congr 1
  rw [List.filter_eq_nil_iff]
  intro row hrow heq
  have hrowLabel : isSectionLabel row.description = true := eq_of_beq heq ▸ hheading.label
  obtain ⟨s, hs, hmem⟩ := List.mem_flatMap.mp hrow
  simp only [List.mem_cons, List.not_mem_nil, or_false] at hmem
  rcases hmem with rfl | rfl
  · exact absurd hrowLabel (Bool.eq_false_iff.mp (hsymbols s hs).notLabel)
  · exact absurd hrowLabel (Bool.eq_false_iff.mp (hlabels s hs))

/-- **Written maps.** If no displayed name spells a section label, then every symbol is listed
and counted exactly once if and only if no displayed name holds a delimiter: a name that does
opens a symbol of its own. -/
theorem listedOnce_iff (heading : WrittenRow) (symbols : List LinkedSymbol)
    (hheading : IsHeading heading) (hsymbols : ∀ s ∈ symbols, s.WellFormed)
    (hlabels : ∀ s ∈ symbols, isSectionLabel s.displayed = false) :
    ListedOnce heading symbols ↔ ∀ s ∈ symbols, occursIn delimiter s.displayed = false := by
  have hlabel : (Reading.openSection {} heading.row).label = some heading.row.description := rfl
  constructor
  · rintro ⟨hlisted, -⟩
    rw [symbols_written hheading hsymbols] at hlisted
    have hlength := congrArg List.length hlisted
    rw [List.length_reverse, List.length_map] at hlength
    have hopen : (Reading.openSection {} heading.row).label.isSome = true := rfl
    have hle := LinkedSymbol.le_length_newest_foldl hsymbols hlabels hopen
    have hnone : symbols.filter (fun s => occursIn delimiter s.displayed) = [] :=
      List.eq_nil_of_length_eq_zero (by omega)
    intro s hs
    exact Bool.eq_false_iff.mpr (List.filter_eq_nil_iff.mp hnone s hs)
  · intro hdelimiters
    have hlisted : (listing (written heading symbols)).symbols =
        symbols.map (·.listed heading.row.description) := by
      rw [symbols_written hheading hsymbols,
        LinkedSymbol.newest_foldl_plain hsymbols hlabels hdelimiters hlabel]
      simp [Reading.openSection]
    refine ⟨hlisted, ?_⟩
    have hmem : heading.row.description ∈ labelsOf (rows (written heading symbols)) :=
      (mem_labelsOf hheading.label).mpr
        ⟨heading.row, by simp [rows_written hheading hsymbols], rfl⟩
    have hall : (symbols.map (·.listed heading.row.description)).filter
        (·.sectionLabel == heading.row.description) =
        symbols.map (·.listed heading.row.description) := by
      rw [List.filter_eq_self]
      intro symbol hsymbol
      obtain ⟨s, -, rfl⟩ := List.mem_map.mp hsymbol
      exact beq_self_eq_true _
    have hbytes : (((listing (written heading symbols)).symbolsIn
        heading.row.description).map (·.size.bytes)) = symbols.map (·.size.bytes) := by
      rw [Listing.symbolsIn, hlisted, hall, List.map_map]
      rfl
    rw [get?_totals _ hheading.label, if_pos hmem, hbytes,
      filter_rows_written hheading hsymbols hlabels]
    simp

/-! ## Names of both kinds -/

def Layout.dashed : Layout := ⟨[], ['-'], [' '], [' '], [' ']⟩

def codeHeading : WrittenRow :=
  ⟨.dashed, ⟨"8".toList, "a".toList, ByteSize.ofNat 10, "CODE".toList⟩⟩

def LinkedSymbol.inObject (mangled displayed : String) : LinkedSymbol where
  offset := "20".toList
  sizeToken := "5".toList
  size := ByteSize.ofNat 5
  file := "a.o".toList
  mangled := mangled.toList
  displayed := displayed.toList
  mangledLayout := .dashed
  displayedLayout := .dashed

theorem Layout.dashed_wellFormed : Layout.dashed.WellFormed where
  indent := nofun
  address := by decide +kernel
  gap₁ := by decide +kernel
  gap₂ := by decide +kernel
  gap₃ := by decide +kernel
  oneLine := by decide +kernel

theorem isHeading_codeHeading : IsHeading codeHeading where
  layout := Layout.dashed_wellFormed
  row := by constructor <;> decide +kernel
  label := by decide +kernel
  oneLine := by decide +kernel

theorem LinkedSymbol.inObject_wellFormed {mangled displayed : String}
    (hmangled : '\n' ∉ mangled.toList ∧ occursIn delimiter mangled.toList = false)
    (hlabel : isSectionLabel (inObject mangled displayed).inFile = false)
    (hdisplayed : IsDescription displayed.toList) : (inObject mangled displayed).WellFormed where
  writable :=
    { offset := show IsToken "20".toList by decide +kernel
      sizeToken := show IsToken "5".toList by decide +kernel
      offset_number := show (columnNumber? "20".toList).isSome = true by decide +kernel
      size_number := show columnNumber? "5".toList = some (ByteSize.ofNat 5).bytes by
        decide +kernel }
  mangledLayout := Layout.dashed_wellFormed
  displayedLayout := Layout.dashed_wellFormed
  file := show '\n' ∉ "a.o".toList ∧ occursIn delimiter "a.o".toList = false by decide +kernel
  file_head := by
    intro c hc
    cases hc
    decide
  mangled := hmangled
  notLabel := hlabel
  displayed := hdisplayed

/-- A name below its mangled one is listed. -/
theorem listedOnce_iff_demangled :
    let symbol := LinkedSymbol.inObject "_ZN2ns1fEi" "ns::f(int)"
    IsHeading codeHeading ∧ (∀ s ∈ [symbol], s.WellFormed) ∧
      (∀ s ∈ [symbol], isSectionLabel s.displayed = false) ∧ ListedOnce codeHeading [symbol] := by
  intro symbol
  have hsymbols : ∀ s ∈ [symbol], s.WellFormed := by
    intro s hs
    rw [List.mem_singleton.mp hs]
    exact LinkedSymbol.inObject_wellFormed (by decide +kernel) (by decide +kernel)
      ⟨by decide +kernel, by decide +kernel, by decide +kernel⟩
  have hlabels : ∀ s ∈ [symbol], isSectionLabel s.displayed = false := by decide +kernel
  exact ⟨isHeading_codeHeading, hsymbols, hlabels,
    (listedOnce_iff codeHeading [symbol] isHeading_codeHeading hsymbols hlabels).mpr
      (by decide +kernel)⟩

instance (heading : WrittenRow) (symbols : List LinkedSymbol) :
    Decidable (ListedOnce heading symbols) := by
  unfold ListedOnce
  infer_instance

/-- Neither a name with a delimiter nor one that spells a section label is taken for a name: the
first opens a symbol of its own, the second a section. -/
theorem not_listedOnce_of_any_name :
    let anonymous := LinkedSymbol.inObject "_ZN2ns12_GLOBAL__N_11fEi"
      "ns::(anonymous namespace)::f(int)"
    let data := LinkedSymbol.inObject "_ZN4DATAE" "DATA"
    IsHeading codeHeading ∧ (anonymous.WellFormed ∧ ¬ ListedOnce codeHeading [anonymous]) ∧
      (data.WellFormed ∧ ¬ ListedOnce codeHeading [data]) := by
  intro anonymous data
  have hanonymous : anonymous.WellFormed :=
    LinkedSymbol.inObject_wellFormed (by decide +kernel) (by decide +kernel)
      ⟨by decide +kernel, by decide +kernel, by decide +kernel⟩
  have hdata : data.WellFormed :=
    LinkedSymbol.inObject_wellFormed (by decide +kernel) (by decide +kernel)
      ⟨by decide +kernel, by decide +kernel, by decide +kernel⟩
  refine ⟨isHeading_codeHeading, ⟨hanonymous, ?_⟩, ⟨hdata, ?_⟩⟩
  · -- two symbols are listed
    decide +kernel
  · -- one is listed, under its mangled name
    decide +kernel

end BinarySize.LinkMap
