import BinarySize.LinkMap.Row

/-!
# The form of a row

A line of a map is a row exactly if it is cut into cells: three columns without blanks, blanks
between and behind them, and a description. Proved here:

* `columns?_line`, `cells_of_columns?`: the columns of a line are its cells, both ways;
* `not_isHeader_of_columnNumber?`: a line whose offset is a number is no column header;
* `row?_eq_some_iff`: a line is read as a row exactly if it is a data row.
-/

namespace BinarySize.LinkMap

open Text

/-! ## Cells -/

/-- A column: a text that is not empty and has no blanks. -/
def IsToken (cs : Text) : Prop := cs ≠ [] ∧ ∀ c ∈ cs, isBlank c = false

def IsGap (cs : Text) : Prop := cs ≠ [] ∧ ∀ c ∈ cs, isBlank c = true

-- Decided along the text: a search over all characters would never come back.
instance (cs : Text) : Decidable (IsToken cs) :=
  decidable_of_iff ((!cs.isEmpty && cs.all fun c => !isBlank c) = true) (by simp [IsToken])

instance (cs : Text) : Decidable (IsGap cs) :=
  decidable_of_iff ((!cs.isEmpty && cs.all isBlank) = true) (by simp [IsGap])

/-- The parts of a line with three columns. -/
structure Cells where
  indent : Text
  address : Text
  gap₁ : Text
  offset : Text
  gap₂ : Text
  sizeToken : Text
  gap₃ : Text
  rest : Text

namespace Cells

def line (cells : Cells) : Text :=
  cells.indent ++ (cells.address ++ (cells.gap₁ ++ (cells.offset ++ (cells.gap₂ ++
    (cells.sizeToken ++ (cells.gap₃ ++ cells.rest))))))

/-- The cells are columns and blanks where they should be, and the description does not run over
a line feed. -/
structure WellFormed (cells : Cells) : Prop where
  indent : ∀ c ∈ cells.indent, isBlank c = true
  address : IsToken cells.address
  gap₁ : IsGap cells.gap₁
  offset : IsToken cells.offset
  gap₂ : IsGap cells.gap₂
  sizeToken : IsToken cells.sizeToken
  gap₃ : IsGap cells.gap₃
  rest : '\n' ∉ dropBlanks cells.rest

/-- The cells give a row: offset and size decode, and the description is trimmed. -/
structure Give (cells : Cells) (row : Row) : Prop where
  offset : cells.offset = row.offset
  sizeToken : cells.sizeToken = row.sizeToken
  offset_number : (columnNumber? row.offset).isSome = true
  size_number : columnNumber? row.sizeToken = some row.size.bytes
  description : trim cells.rest = row.description

end Cells

/-- A data row: a line that is neither blank nor the column header and is cut into cells that
give the row. -/
def IsDataRow (line : Text) (row : Row) : Prop :=
  trim line ≠ [] ∧ isHeader line = false ∧
    ∃ cells : Cells, cells.WellFormed ∧ cells.line = line ∧ cells.Give row

/-! ## Columns -/

theorem IsToken.head? {cs rest : Text} (h : IsToken cs) {c : Char}
    (hc : (cs ++ rest).head? = some c) : isBlank c = false := by
  cases cs with
  | nil => exact absurd rfl h.1
  | cons d ds =>
    cases hc
    exact h.2 c List.mem_cons_self

theorem IsGap.head? {cs rest : Text} (h : IsGap cs) {c : Char}
    (hc : (cs ++ rest).head? = some c) : isBlank c = true := by
  cases cs with
  | nil => exact absurd rfl h.1
  | cons d ds =>
    cases hc
    exact h.2 c List.mem_cons_self

theorem IsToken.dropBlanks_append {cs : Text} (h : IsToken cs) (rest : Text) :
    dropBlanks (cs ++ rest) = cs ++ rest :=
  dropBlanks_of_head fun _ => h.head?

theorem column?_append {token gap : Text} (htoken : IsToken token) (hgap : IsGap gap)
    (cs : Text) : column? (token ++ (gap ++ cs)) = some (token, dropBlanks cs) := by
  have hrun : run? (!isBlank ·) (token ++ (gap ++ cs)) = some (token, gap ++ cs) := by
    refine run?_eq_some_iff_append.mpr ⟨rfl, htoken.1, ?_, ?_⟩
    · intro c hc
      simp [htoken.2 c hc]
    · intro c hc
      simp [hgap.head? hc]
  simp only [column?, hrun, Option.bind_eq_bind, Option.bind_some,
    afterBlanks?_append hgap.1 hgap.2]

theorem token_of_column? {cs token rest : Text} (h : column? cs = some (token, rest)) :
    ∃ gap, IsToken token ∧ IsGap gap ∧ cs = token ++ (gap ++ rest) ∧
      ∀ c, rest.head? = some c → isBlank c = false := by
  simp only [column?, Option.bind_eq_bind, Option.bind_eq_some_iff] at h
  obtain ⟨⟨token', behind⟩, hrun, rest', hblanks, heq⟩ := h
  cases heq
  obtain ⟨rfl, hne, htoken, -⟩ := run?_eq_some_iff_append.mp hrun
  obtain ⟨gap, rfl, hgapNe, hblank, hhead⟩ := afterBlanks?_eq_some_iff.mp hblanks
  refine ⟨gap, ⟨hne, ?_⟩, ⟨hgapNe, hblank⟩, rfl, hhead⟩
  intro c hc
  simpa using htoken c hc

theorem columns?_eq_some_iff {line offset sizeToken description : Text} :
    columns? line = some (offset, sizeToken, description) ↔
      ∃ address r₁ r₂ r₃, column? (dropBlanks line) = some (address, r₁) ∧
        column? r₁ = some (offset, r₂) ∧ column? r₂ = some (sizeToken, r₃) ∧
        '\n' ∉ r₃ ∧ trim r₃ = description := by
  simp only [columns?, Option.bind_eq_bind, Option.bind_eq_some_iff]
  constructor
  · rintro ⟨⟨address, r₁⟩, h₁, ⟨offset', r₂⟩, h₂, ⟨sizeToken', r₃⟩, h₃, h⟩
    by_cases hlf : '\n' ∈ r₃
    · simp [hlf] at h
    · simp only [List.contains_eq_mem, hlf, decide_false, Bool.false_eq_true, if_false,
        Option.some.injEq, Prod.mk.injEq] at h
      obtain ⟨rfl, rfl, rfl⟩ := h
      exact ⟨address, r₁, r₂, r₃, h₁, h₂, h₃, hlf, rfl⟩
  · rintro ⟨address, r₁, r₂, r₃, h₁, h₂, h₃, hlf, rfl⟩
    exact ⟨(address, r₁), h₁, (offset, r₂), h₂, (sizeToken, r₃), h₃, by simp [hlf]⟩

theorem columns?_line {cells : Cells} (h : cells.WellFormed) :
    columns? cells.line = some (cells.offset, cells.sizeToken, trim cells.rest) := by
  have haddress := column?_append h.address h.gap₁
    (cells.offset ++ (cells.gap₂ ++ (cells.sizeToken ++ (cells.gap₃ ++ cells.rest))))
  rw [h.offset.dropBlanks_append] at haddress
  have hoffset := column?_append h.offset h.gap₂ (cells.sizeToken ++ (cells.gap₃ ++ cells.rest))
  rw [h.sizeToken.dropBlanks_append] at hoffset
  have hsize := column?_append h.sizeToken h.gap₃ cells.rest
  refine columns?_eq_some_iff.mpr
    ⟨cells.address, _, _, _, ?_, hoffset, hsize, h.rest, trim_dropBlanks _⟩
  rw [Cells.line, dropBlanks_append h.indent, h.address.dropBlanks_append]
  exact haddress

theorem cells_of_columns? {line offset sizeToken description : Text}
    (h : columns? line = some (offset, sizeToken, description)) :
    ∃ cells : Cells, cells.WellFormed ∧ cells.line = line ∧ cells.offset = offset ∧
      cells.sizeToken = sizeToken ∧ trim cells.rest = description := by
  obtain ⟨address, r₁, r₂, r₃, h₁, h₂, h₃, hlf, hdescription⟩ := columns?_eq_some_iff.mp h
  obtain ⟨gap₁, haddress, hgap₁, hline, -⟩ := token_of_column? h₁
  obtain ⟨gap₂, hoffset, hgap₂, rfl, -⟩ := token_of_column? h₂
  obtain ⟨gap₃, hsize, hgap₃, rfl, hhead⟩ := token_of_column? h₃
  refine ⟨⟨line.takeWhile isBlank, address, gap₁, offset, gap₂, sizeToken, gap₃, r₃⟩,
    ⟨List.all_eq_true.mp List.all_takeWhile, haddress, hgap₁, hoffset, hgap₂, hsize, hgap₃,
      ?_⟩, ?_, rfl, rfl, hdescription⟩
  · rwa [dropBlanks_of_head hhead]
  · simp only [Cells.line]
    rw [← hline]
    exact List.takeWhile_append_dropWhile

/-! ## Rows -/

theorem column?_of_after? {token cs behind rest : Text} (htoken : IsToken token)
    (hafter : after? token cs = some behind) (hblanks : afterBlanks? behind = some rest) :
    column? cs = some (token, rest) := by
  obtain ⟨gap, rfl, hne, hblank, hhead⟩ := afterBlanks?_eq_some_iff.mp hblanks
  rw [after?_eq_some.mp hafter, column?_append htoken ⟨hne, hblank⟩, dropBlanks_of_head hhead]

/-- In the column header the word `Off` stands where a row has its offset. -/
theorem offset_of_isHeader {line offset sizeToken description : Text}
    (hheader : isHeader line = true)
    (h : columns? line = some (offset, sizeToken, description)) : offset = "Off".toList := by
  obtain ⟨last, hlast⟩ := Option.isSome_iff_exists.mp hheader
  simp only [Option.bind_eq_bind, Option.bind_eq_some_iff] at hlast
  obtain ⟨_, haddr, _, hblanks₁, _, hoff, _, hblanks₂, -⟩ := hlast
  have haddress := column?_of_after? (by decide +kernel) haddr hblanks₁
  have hoffset := column?_of_after? (by decide +kernel) hoff hblanks₂
  obtain ⟨address, r₁, r₂, r₃, h₁, h₂, -⟩ := columns?_eq_some_iff.mp h
  rw [haddress] at h₁
  cases h₁
  rw [hoffset] at h₂
  cases h₂
  rfl

theorem not_isHeader_of_columnNumber? {line offset sizeToken description : Text}
    (h : columns? line = some (offset, sizeToken, description))
    (hnumber : (columnNumber? offset).isSome = true) : isHeader line = false := by
  cases hheader : isHeader line with
  | false => rfl
  | true =>
    rw [offset_of_isHeader hheader h] at hnumber
    exact absurd hnumber (by decide +kernel)

theorem columnNumber?_lt {token : Text} {n : Nat} (h : columnNumber? token = some n) :
    n < Number.limit := by
  unfold columnNumber? at h
  split at h
  · cases h
    decide
  · cases h
    decide
  · exact Number.lt_limit_of_read? h

theorem row?_line {cells : Cells} {row : Row} (h : cells.WellFormed) (hrow : cells.Give row) :
    row? cells.line = some row := by
  obtain ⟨hoffset, hsize, hnumber, hbytes, hdescription⟩ := hrow
  obtain ⟨n, hn⟩ := Option.isSome_iff_exists.mp hnumber
  have hcolumns : columns? cells.line = some (row.offset, row.sizeToken, row.description) := by
    rw [columns?_line h, hoffset, hsize, hdescription]
  have heq : ByteSize.ofNat row.size.bytes = row.size :=
    ByteSize.ext (ByteSize.bytes_ofNat_of_lt row.size.bytes_lt)
  simp only [row?, not_isHeader_of_columnNumber? hcolumns hnumber, hcolumns, hn, hbytes, heq,
    Option.bind_eq_bind, Option.bind_some, Bool.false_eq_true, if_false]

theorem cells_of_row? {line : Text} {row : Row} (h : row? line = some row) :
    isHeader line = false ∧ ∃ cells : Cells, cells.WellFormed ∧ cells.line = line ∧
      cells.Give row := by
  cases hheader : isHeader line with
  | true => simp [row?, hheader] at h
  | false =>
    simp only [row?, hheader, Option.bind_eq_bind, Option.bind_eq_some_iff, Bool.false_eq_true,
      if_false] at h
    obtain ⟨⟨offset, sizeToken, description⟩, hcolumns, n, hn, size, hsize, heq⟩ := h
    cases heq
    obtain ⟨cells, hwell, hline, hoffset, htoken, hdescription⟩ := cells_of_columns? hcolumns
    have hbytes : columnNumber? sizeToken = some (ByteSize.ofNat size).bytes := by
      rw [hsize, ByteSize.bytes_ofNat_of_lt (columnNumber?_lt hsize)]
    exact ⟨rfl, cells, hwell, hline, hoffset, htoken, by simp [hn], hbytes, hdescription⟩

theorem trim_line_ne_nil {cells : Cells} (h : cells.WellFormed) : trim cells.line ≠ [] := by
  obtain ⟨c, hc⟩ := List.exists_mem_of_ne_nil _ h.address.1
  have hmem : c ∈ cells.line :=
    List.mem_append_right _ (List.mem_append_left _ hc)
  exact List.ne_nil_of_mem (mem_trim hmem (h.address.2 c hc))

/-- A line is read as a row exactly if it is a data row that gives it. -/
theorem row?_eq_some_iff (line : Text) (row : Row) :
    row? line = some row ↔ IsDataRow line row := by
  constructor
  · intro h
    obtain ⟨hheader, cells, hwell, rfl, hrow⟩ := cells_of_row? h
    exact ⟨trim_line_ne_nil hwell, hheader, cells, hwell, rfl, hrow⟩
  · rintro ⟨-, -, cells, hwell, rfl, hrow⟩
    exact row?_line hwell hrow

end BinarySize.LinkMap
