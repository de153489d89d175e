import BinarySize.Proofs.LinkMap.Runs
import BinarySize.Proofs.LinkMap.Totals
import Mathlib.Data.List.Forall2

/-!
# Rows in another order

A map that is made of blocks, each a section label and below it rows that name their symbols in
full, is read block by block: every row below a label opens a symbol, in whatever order the rows
come. Proved here:

* `symbolRows_blocks`, `runs_of_delimiter`: the rows about symbols stand in the sections of their
  blocks, and each is a run of its own;
* `symbols_of_blocks`, `labelRows_blocks`: what blocks list, block by block;
* `listing_rearranged`: neither the order of the blocks nor that of the rows in a block has a say
  in the totals of the sections, and the symbols are the same up to their order.
-/

namespace BinarySize.LinkMap

open Text

/-! ## Blocks -/

/-- A section label and the rows below it, up to the next label. -/
structure Block where
  heading : Row
  body : List Row
  deriving DecidableEq

namespace Block

def rows (block : Block) : List Row := block.heading :: block.body

/-- The heading is a section label, and every row below it holds the delimiter and is none. -/
structure WellFormed (block : Block) : Prop where
  heading : isSectionLabel block.heading.description = true
  plain : ∀ row ∈ block.body, isSectionLabel row.description = false
  delimiter : ∀ row ∈ block.body, occursIn delimiter row.description = true

def symbolRows (block : Block) : List SymbolRow :=
  block.body.map (⟨block.heading.description, ·⟩)

/-- The symbols of a block, one for each row below its label. -/
def symbols (block : Block) : List MapSymbol :=
  block.symbolRows.map fun x => Run.symbol ⟨x, []⟩

/-- Two blocks with one label and, up to their order, the same rows below it. -/
structure SameRows (a b : Block) : Prop where
  heading : a.heading = b.heading
  body : a.body.Perm b.body

theorem SameRows.symbols {a b : Block} (h : a.SameRows b) : a.symbols.Perm b.symbols := by
  rw [Block.symbols, Block.symbols, symbolRows, symbolRows, h.heading]
  exact (h.body.map _).map _

theorem SameRows.wellFormed {a b : Block} (h : a.SameRows b) (ha : a.WellFormed) :
    b.WellFormed where
  heading := h.heading ▸ ha.heading
  plain row hrow := ha.plain row (h.body.mem_iff.mpr hrow)
  delimiter row hrow := ha.delimiter row (h.body.mem_iff.mpr hrow)

end Block

/-- Blocks in another order, with the rows of each block in another order too. -/
def Rearranged (blocks blocks' : List Block) : Prop :=
  ∃ moved, blocks.Perm moved ∧ List.Forall₂ Block.SameRows moved blocks'

/-! ## Reading blocks -/

/-- Below a section label, rows that are none stand in its section. -/
theorem symbolRowsBelow_of_label {earlier body : List Row} {label : Text}
    (hlabel : openLabel? earlier = some label)
    (hbody : ∀ row ∈ body, isSectionLabel row.description = false) :
    symbolRowsBelow earlier body = body.map (⟨label, ·⟩) := by
  induction body generalizing earlier with
  | nil => rfl
  | cons row body ih =>
    have hrow := hbody row List.mem_cons_self
    have hnext : openLabel? (earlier ++ [row]) = some label := by
      rw [openLabel?_concat, hrow, hlabel]
      rfl
    rw [symbolRowsBelow, ih hnext fun r hr => hbody r (List.mem_cons_of_mem _ hr)]
    simp [symbolRow?, hrow, hlabel]

theorem symbolRowsBelow_block {block : Block} (h : block.WellFormed) (earlier : List Row) :
    symbolRowsBelow earlier block.rows = block.symbolRows := by
  have hlabel : openLabel? (earlier ++ [block.heading]) = some block.heading.description := by
    rw [openLabel?_concat, if_pos h.heading]
  rw [Block.rows, symbolRowsBelow, symbolRowsBelow_of_label hlabel h.plain, symbolRow?,
    if_pos h.heading]
  rfl

/-- The rows about symbols are those of the blocks, each in the section of its block. -/
theorem symbolRows_blocks {blocks : List Block} (h : ∀ block ∈ blocks, block.WellFormed) :
    symbolRows (blocks.flatMap Block.rows) = blocks.flatMap Block.symbolRows := by
  -- whatever stands above: each block opens its own section
  have hbelow : ∀ earlier,
      symbolRowsBelow earlier (blocks.flatMap Block.rows) = blocks.flatMap Block.symbolRows := by
    induction blocks with
    | nil => exact fun _ => rfl
    | cons block blocks ih =>
      intro earlier
      rw [List.flatMap_cons, List.flatMap_cons, symbolRowsBelow_append,
        symbolRowsBelow_block (h block List.mem_cons_self),
        ih fun b hb => h b (List.mem_cons_of_mem _ hb)]
  exact hbelow []

/-- Where every description has a delimiter, no row continues another one's symbol. -/
theorem runs_of_delimiter {xs : List SymbolRow}
    (h : ∀ x ∈ xs, occursIn delimiter x.row.description = true) :
    runs xs = xs.map (⟨·, []⟩) := by
  induction xs with
  | nil => exact runs_nil
  | cons opening rest ih =>
    have hrest : ∀ x ∈ rest, occursIn delimiter x.row.description = true :=
      fun x hx => h x (List.mem_cons_of_mem _ hx)
    have hnone : rest.takeWhile (·.continues opening) = [] ∧
        rest.dropWhile (·.continues opening) = rest := by
      cases rest with
      | nil => exact ⟨rfl, rfl⟩
      | cons x rest => simp [SymbolRow.continues, hrest x List.mem_cons_self]
    rw [runs_cons, hnone.1, hnone.2, ih hrest, List.map_cons]

/-- The symbols that blocks list are those of each block. -/
theorem symbols_of_blocks {map : Text} {blocks : List Block}
    (hmap : rows map = blocks.flatMap Block.rows) (h : ∀ block ∈ blocks, block.WellFormed) :
    (listing map).symbols = blocks.flatMap Block.symbols := by
  have hdelimiter : ∀ x ∈ blocks.flatMap Block.symbolRows,
      occursIn delimiter x.row.description = true := by
    intro x hx
    obtain ⟨block, hblock, hx⟩ := List.mem_flatMap.mp hx
    obtain ⟨row, hrow, rfl⟩ := List.mem_map.mp hx
    exact (h block hblock).delimiter row hrow
  have hsymbols := (represents_rows (rows map)).newest
  rw [hmap, symbolRows_blocks h, runs_of_delimiter hdelimiter, List.map_map, List.map_flatMap]
    at hsymbols
  rw [listing_eq, hmap]
  exact hsymbols

theorem labelRows_block {block : Block} (h : block.WellFormed) :
    labelRows block.rows = [block.heading] := by
  have hbody : labelRows block.body = [] :=
    List.filter_eq_nil_iff.mpr fun row hrow => by simp [h.plain row hrow]
  have hheading : labelRows [block.heading] = [block.heading] := by simp [labelRows, h.heading]
  rw [Block.rows, ← List.singleton_append, labelRows_append, hheading, hbody, List.append_nil]

theorem labelRows_blocks {blocks : List Block} (h : ∀ block ∈ blocks, block.WellFormed) :
    labelRows (blocks.flatMap Block.rows) = blocks.map Block.heading := by
  induction blocks with
  | nil => rfl
  | cons block blocks ih =>
    rw [List.flatMap_cons, labelRows_append, labelRows_block (h block List.mem_cons_self),
      ih fun b hb => h b (List.mem_cons_of_mem _ hb), List.map_cons, List.singleton_append]

/-! ## Rearranged blocks -/

namespace Rearranged

variable {blocks blocks' : List Block}

theorem wellFormed (h : Rearranged blocks blocks') (hblocks : ∀ block ∈ blocks, block.WellFormed) :
    ∀ block ∈ blocks', block.WellFormed := by
  obtain ⟨moved, hperm, hsame⟩ := h
  have hmoved : ∀ block ∈ moved, block.WellFormed :=
    fun block hblock => hblocks block (hperm.mem_iff.mpr hblock)
  clear hperm
  induction hsame with
  | nil => exact fun _ hblock => nomatch hblock
  | cons hab _ ih =>
    rw [List.forall_mem_cons] at hmoved ⊢
    exact ⟨hab.wellFormed hmoved.1, ih hmoved.2⟩

theorem headings (h : Rearranged blocks blocks') :
    (blocks.map Block.heading).Perm (blocks'.map Block.heading) := by
  obtain ⟨moved, hperm, hsame⟩ := h
  refine (hperm.map _).trans ?_
  clear hperm
  induction hsame with
  | nil => exact .refl _
  | cons hab _ ih =>
    rw [List.map_cons, List.map_cons, hab.heading]
    exact ih.cons _

theorem symbols (h : Rearranged blocks blocks') :
    (blocks.flatMap Block.symbols).Perm (blocks'.flatMap Block.symbols) := by
  obtain ⟨moved, hperm, hsame⟩ := h
  refine (hperm.flatMap_right _).trans ?_
  clear hperm
  induction hsame with
  | nil => exact .refl _
  | cons hab _ ih =>
    rw [List.flatMap_cons, List.flatMap_cons]
    exact hab.symbols.append ih

end Rearranged

/-- **Order independence.** If two maps are made of blocks and those of the second are the blocks
of the first in another order, with the rows in them in another order too, every section has the
same total in both, or none in either, and the symbols are the same up to their order. Labels,
offsets and sizes may repeat. -/
theorem listing_rearranged {map map' : Text} {blocks blocks' : List Block}
    (hmap : rows map = blocks.flatMap Block.rows)
    (hmap' : rows map' = blocks'.flatMap Block.rows)
    (hblocks : ∀ block ∈ blocks, block.WellFormed) (h : Rearranged blocks blocks') :
    (∀ label, (listing map).totals.get? label = (listing map').totals.get? label) ∧
      (listing map).symbols.Perm (listing map').symbols := by
  have hblocks' := h.wellFormed hblocks
  have hsymbols : (listing map).symbols.Perm (listing map').symbols := by
    rw [symbols_of_blocks hmap hblocks, symbols_of_blocks hmap' hblocks']
    exact h.symbols
  have hlabels : (labelRows (rows map)).Perm (labelRows (rows map')) := by
    rw [hmap, hmap', labelRows_blocks hblocks, labelRows_blocks hblocks']
    exact h.headings
  exact ⟨get?_totals_of_perm hlabels hsymbols, hsymbols⟩

/-- Two blocks of the code section and one of the data section, with rows of one offset and
size. -/
theorem listing_rearranged_two_code :
    let f : Row := ⟨"20".toList, "5".toList, ByteSize.ofNat 5, "a.o:(f)".toList⟩
    let g : Row := ⟨"20".toList, "5".toList, ByteSize.ofNat 5, "a.o:(g)".toList⟩
    let code : Row := ⟨"8".toList, "a".toList, ByteSize.ofNat 10, "CODE".toList⟩
    let more : Row := ⟨"9".toList, "1".toList, ByteSize.ofNat 1, "CODE".toList⟩
    let data : Row := ⟨"8".toList, "4".toList, ByteSize.ofNat 4, "DATA".toList⟩
    let blocks : List Block := [⟨code, [f, g]⟩, ⟨data, [f]⟩, ⟨more, [g]⟩]
    let blocks' : List Block := [⟨more, [g]⟩, ⟨code, [g, f]⟩, ⟨data, [f]⟩]
    let map := ("- 8 a CODE\n- 20 5 a.o:(f)\n- 20 5 a.o:(g)\n- 8 4 DATA\n- 20 5 a.o:(f)\n" ++
      "- 9 1 CODE\n- 20 5 a.o:(g)\n").toList
    let map' := ("- 9 1 CODE\n- 20 5 a.o:(g)\n- 8 a CODE\n- 20 5 a.o:(g)\n- 20 5 a.o:(f)\n" ++
      "- 8 4 DATA\n- 20 5 a.o:(f)\n").toList
    rows map = blocks.flatMap Block.rows ∧ rows map' = blocks'.flatMap Block.rows ∧
      (∀ block ∈ blocks, block.WellFormed) ∧ Rearranged blocks blocks' ∧
      (listing map).totals.get? "CODE".toList = some (ByteSize.ofNat 26) ∧
      (listing map').totals.get? "CODE".toList = some (ByteSize.ofNat 26) ∧
      (listing map).symbols.Perm (listing map').symbols := by
  intro f g code more data blocks blocks' map map'
  have hmap : rows map = blocks.flatMap Block.rows := by decide +kernel
  have hmap' : rows map' = blocks'.flatMap Block.rows := by decide +kernel
  have hblocks : ∀ block ∈ blocks, block.WellFormed := by
    intro block hblock
    have hcheck : ∀ block ∈ blocks, isSectionLabel block.heading.description = true ∧
        (∀ row ∈ block.body, isSectionLabel row.description = false) ∧
        ∀ row ∈ block.body, occursIn delimiter row.description = true := by decide +kernel
    obtain ⟨hheading, hplain, hdelimiter⟩ := hcheck block hblock
    exact ⟨hheading, hplain, hdelimiter⟩
  have hmoved : blocks.Perm [⟨more, [g]⟩, ⟨code, [f, g]⟩, ⟨data, [f]⟩] := by decide +kernel
  have hrearranged : Rearranged blocks blocks' :=
    ⟨_, hmoved, .cons ⟨rfl, .refl _⟩ (.cons ⟨rfl, .swap _ _ _⟩ (.cons ⟨rfl, .refl _⟩ .nil))⟩
  obtain ⟨htotals, hsymbols⟩ := listing_rearranged hmap hmap' hblocks hrearranged
  have hcode : (listing map).totals.get? "CODE".toList = some (ByteSize.ofNat 26) := by
    decide +kernel
  exact ⟨hmap, hmap', hblocks, hrearranged, hcode, htotals _ ▸ hcode, hsymbols⟩

end BinarySize.LinkMap
