import BinarySize.Proofs.Dump.LaidOutText
import BinarySize.Proofs.Dump.Blocks
import BinarySize.Proofs.Dump.Units
import Mathlib.Data.List.TakeWhile

/-!
# Extraction undoes printing

The functions found in a printed dump are the listed ones, however it is laid out. A laid out
function is one block, whose lines fill the reader's slots with what the function has
(`known_of_isBody`); a laid out unit gives its functions under its name
(`IsListed.functionsFrom`); and units are read one by one (`functions_unlines`).
-/

namespace BinarySize.Dump

open Text

/-! ## Bodies -/

namespace IsBody

variable {attributes : List Attribute} {body : List Text}

theorem startsNone (h : IsBody attributes body) : ∀ line ∈ body, startsNone line = true := by
  induction h with
  | nil => exact fun _ h => nomatch h
  | shown hline h ih =>
    simp only [List.mem_cons, forall_eq_or_imp]
    exact ⟨by rw [Dump.startsNone, hline.entryTag?_eq_none]; rfl, ih⟩
  | extra hline h ih =>
    simp only [List.mem_cons, forall_eq_or_imp]
    exact ⟨by rw [Dump.startsNone, hline.entryTag?_eq_none]; rfl, ih⟩

/-- A reader finds in the lines of a body what the attributes say to it. -/
theorem findSome? {value? : Text → Option α} {says? : Attribute → Option α}
    (hreads : Reads value? says?) (h : IsBody attributes body)
    (hwell : ∀ a ∈ attributes, a.WellFormed) :
    body.findSome? value? = attributes.findSome? says? := by
  induction h with
  | nil => rfl
  | shown hline h ih =>
    obtain ⟨ha, hrest⟩ := List.forall_mem_cons.mp hwell
    rw [List.findSome?_cons, List.findSome?_cons, hreads.shown hline ha, ih hrest]
  | extra hline h ih => rw [List.findSome?_cons, hreads.silent hline.unmarked, ih hwell]

/-- In whatever order attributes come, what only one of them can say is found. -/
theorem findSome?_of_perm {value? : Text → Option α} {says? : Attribute → Option α}
    {listed : List Attribute} {found : Option α} (hreads : Reads value? says?)
    (h : IsBody attributes body) (hperm : attributes.Perm listed)
    (hwell : ∀ a ∈ listed, a.WellFormed) (honly : listed.filterMap says? = found.toList) :
    body.findSome? value? = found := by
  have hsaid := hperm.filterMap says?
  rw [honly] at hsaid
  rw [h.findSome? hreads fun a ha => hwell a (hperm.mem_iff.mp ha), ← List.head?_filterMap]
  cases found with
  | none => rw [List.perm_nil.mp hsaid]; rfl
  | some said => rw [List.perm_singleton.mp hsaid]; rfl

end IsBody

theorem filterMap_toList (given : Option β) (says? : β → Option α) :
    given.toList.filterMap says? = (given.bind says?).toList := by
  cases given with
  | none => rfl
  | some b => cases h : says? b <;> simp [h]

/-! ## Functions -/

namespace ListedFunction

def known (f : ListedFunction) : Attributes where
  name := some f.name
  lowPc := some f.lowPc
  highPc := some f.highPc
  declFile := f.declFile
  declLine := f.declLine
  callFile := f.callFile
  callLine := f.callLine

theorem function?_known (f : ListedFunction) (unitName : Option Text) :
    f.known.function? f.kind unitName = f.sized? unitName := by
  have hsize : Attributes.codeSize f.lowPc f.highPc = f.size := by
    unfold Attributes.codeSize size
    split
    · rw [if_neg (by omega)]
    · rw [if_pos (by omega)]
  simp only [Attributes.function?, known, Option.bind_eq_bind, Option.bind_some, hsize, sized?,
    Attributes.file, Attributes.line]

/-- No two attributes of a function speak to one reader. -/
theorem filterMap_attributes (f : ListedFunction) {named : Attribute}
    (hnamed : named = .name f.name ∨ named = .origin f.name) :
    (f.attributes named).filterMap (fun a => (a.labelled .name Attribute.text?).or
        (a.labelled .origin Attribute.text?)) = [f.name] ∧
      (f.attributes named).filterMap (Attribute.labelled .lowPc Attribute.number?) = [f.lowPc] ∧
      (f.attributes named).filterMap (Attribute.labelled .highPc Attribute.number?) = [f.highPc] ∧
      (f.attributes named).filterMap (Attribute.labelled .declFile Attribute.text?) =
        f.declFile.toList ∧
      (f.attributes named).filterMap (Attribute.labelled .declLine Attribute.number?) =
        f.declLine.toList ∧
      (f.attributes named).filterMap (Attribute.labelled .callFile Attribute.text?) =
        f.callFile.toList ∧
      (f.attributes named).filterMap (Attribute.labelled .callLine Attribute.number?) =
        f.callLine.toList := by
  rcases hnamed with rfl | rfl
  · simp [attributes, filterMap_toList, Function.comp_def, Attribute.labelled, Attribute.label,
      Attribute.text?, Attribute.number?]
  · simp [attributes, filterMap_toList, Function.comp_def, Attribute.labelled, Attribute.label,
      Attribute.text?, Attribute.number?]

theorem known_of_isBody {f : ListedFunction} {listed : List Attribute} {named : Attribute}
    {body : List Text} (tag : Text) (hnamed : named = .name f.name ∨ named = .origin f.name)
    (hlisted : listed.Perm (f.attributes named)) (hbody : IsBody listed body)
    (hwell : f.WellFormed) : (⟨tag, body⟩ : Block).known = f.known := by
  have hread : ∀ {α : Type} {value? : Text → Option α} {says? : Attribute → Option α}
      {found : Option α}, Reads value? says? →
      (f.attributes named).filterMap says? = found.toList →
      (⟨tag, body⟩ : Block).first? value? = found :=
    fun hreads honly => hbody.findSome?_of_perm hreads hlisted (hwell.attributes hnamed) honly
  obtain ⟨hname, hlow, hhigh, hdeclFile, hdeclLine, hcallFile, hcallLine⟩ :=
    f.filterMap_attributes hnamed
  have hslots : (⟨tag, body⟩ : Block).first? name? = some f.name ∧
      (⟨tag, body⟩ : Block).first? lowPc? = some f.lowPc ∧
      (⟨tag, body⟩ : Block).first? highPc? = some f.highPc :=
    ⟨hread Reads.name hname, hread (Reads.address (.inl rfl)) hlow,
      hread (Reads.address (.inr rfl)) hhigh⟩
  have hplaces : (⟨tag, body⟩ : Block).first? declFile? = f.declFile ∧
      (⟨tag, body⟩ : Block).first? declLine? = f.declLine ∧
      (⟨tag, body⟩ : Block).first? callFile? = f.callFile ∧
      (⟨tag, body⟩ : Block).first? callLine? = f.callLine :=
    ⟨hread (Reads.file (.inl rfl)) hdeclFile, hread (Reads.line (.inl rfl)) hdeclLine,
      hread (Reads.file (.inr rfl)) hcallFile, hread (Reads.line (.inr rfl)) hcallLine⟩
  simp only [Block.known, known, hslots, hplaces]

end ListedFunction

/-! ## Blocks -/

theorem blocks_of_startsNone {ls : List Text} (h : ∀ line ∈ ls, startsNone line = true) :
    blocks ls = [] := by
  induction ls with
  | nil => rfl
  | cons line ls ih =>
    obtain ⟨hline, hrest⟩ := List.forall_mem_cons.mp h
    rw [blocks, Option.isNone_iff_eq_none.mp hline]
    exact ih hrest

/-- Where an entry starts, lines may be cut. -/
theorem blocks_append (front : List Text) {back : List Text}
    (h : back.takeWhile startsNone = []) :
    blocks (front ++ back) = blocks front ++ blocks back := by
  induction front with
  | nil => rfl
  | cons line front ih =>
    rw [List.cons_append, blocks, blocks, ih]
    cases entryTag? line with
    | none => rfl
    | some tag =>
      have htake : (front ++ back).takeWhile startsNone = front.takeWhile startsNone := by
        rw [List.takeWhile_append, h, List.append_nil]
        split
        · next hall => exact ((List.takeWhile_prefix _).eq_of_length hall).symm
        · rfl
      simp only [htake, List.cons_append]

/-- The line that starts an entry and the lines of its body are one block. -/
theorem blocks_entry {tag start : Text} {attributes : List Attribute} {body : List Text}
    (hstart : IsStart tag start) (hbody : IsBody attributes body) :
    blocks (start :: body) = [⟨tag, body⟩] := by
  have hall : body.takeWhile startsNone = body := List.takeWhile_eq_self_iff.mpr hbody.startsNone
  rw [blocks, (entryTag?_eq_some_iff hstart.lineFeed).mpr hstart, hall,
    blocks_of_startsNone hbody.startsNone]

namespace Block

/-- Below a compile unit, blocks that are none give their functions under its name. -/
theorem functionsBelow_of_no_unit (earlier : List Block) {later : List Block}
    (h : ∀ block ∈ later, block.isUnit = false) :
    functionsBelow earlier later = later.filterMap (·.function? (unitName? earlier)) := by
  induction later generalizing earlier with
  | nil => rfl
  | cons block later ih =>
    obtain ⟨hblock, hlater⟩ := List.forall_mem_cons.mp h
    have hname : unitName? (earlier ++ [block]) = unitName? earlier := by
      rw [unitName?_concat, hblock]
      rfl
    rw [functionsBelow, ih (earlier ++ [block]) hlater, hname]
    cases hfound : block.function? (unitName? earlier) with
    | none => rw [List.filterMap_cons_none hfound]; rfl
    | some f => rw [List.filterMap_cons_some hfound]; rfl

end Block

namespace ListedFunction

variable {f : ListedFunction}

/-- The lines of a function are one block, which gives the function. -/
theorem IsListed.exists_block {ls : List Text} (h : f.IsListed ls) (hwell : f.WellFormed) :
    ∃ block, blocks ls = [block] ∧ block.isUnit = false ∧
      ∀ unitName, block.function? unitName = f.sized? unitName := by
  obtain ⟨hstart, hnamed, hlisted, hbody⟩ := h
  next start listed named body =>
  have hunit : ¬ f.kind.tag.toList = "DW_TAG_compile_unit".toList := by
    cases f.kind with
    | _ => decide +kernel
  have hkind : FunctionKind.ofTag? f.kind.tag.toList = some f.kind := by
    cases f.kind with
    | _ => decide +kernel
  refine ⟨_, blocks_entry hstart hbody, decide_eq_false hunit, fun unitName => ?_⟩
  rw [← f.function?_known, ← known_of_isBody f.kind.tag.toList hnamed hlisted hbody hwell]
  simp only [Block.function?, hkind, Option.bind_eq_bind, Option.bind_some]
  rfl

theorem takeWhile_flatten {functions : List ListedFunction} {listed : List (List Text)}
    (h : List.Forall₂ IsListed functions listed) : listed.flatten.takeWhile startsNone = [] := by
  cases h with
  | nil => rfl
  | cons hf _ =>
    obtain ⟨hstart, -, -, -⟩ := hf
    rw [List.flatten_cons, List.cons_append, List.takeWhile_cons_of_neg]
    rw [startsNone, (entryTag?_eq_some_iff hstart.lineFeed).mpr hstart]
    exact Bool.false_ne_true

/-- The blocks of listed functions are no units, and they give the functions. -/
theorem blocks_flatten {functions : List ListedFunction} {listed : List (List Text)}
    (h : List.Forall₂ IsListed functions listed) (hwell : ∀ f ∈ functions, f.WellFormed) :
    (∀ block ∈ blocks listed.flatten, block.isUnit = false) ∧ ∀ unitName,
      (blocks listed.flatten).filterMap (·.function? unitName) =
        functions.filterMap (·.sized? unitName) := by
  induction h with
  | nil => exact ⟨fun _ h => (nomatch h), fun _ => rfl⟩
  | @cons f ls functions listed hf hfunctions ih =>
    obtain ⟨hwell, hwellRest⟩ := List.forall_mem_cons.mp hwell
    obtain ⟨hnone, hgive⟩ := ih hwellRest
    obtain ⟨block, hblock, hunit, hfunction⟩ := hf.exists_block hwell
    rw [List.flatten_cons, blocks_append ls (takeWhile_flatten hfunctions), hblock,
      List.singleton_append]
    refine ⟨List.forall_mem_cons.mpr ⟨hunit, hnone⟩, fun unitName => ?_⟩
    rw [List.filterMap_cons, List.filterMap_cons, hfunction, hgive]

end ListedFunction

namespace ListedUnit

variable {unit : ListedUnit}

theorem IsListed.startsUnit {ls : List Text} (h : unit.IsListed ls) : StartsUnit ls := by
  obtain ⟨hstart, -, -⟩ := h
  exact (entryTag?_eq_some_iff hstart.lineFeed).mpr hstart

/-- The lines of a compile unit give its functions, under its name. -/
theorem IsListed.functionsFrom {ls : List Text} (h : unit.IsListed ls) (hwell : unit.WellFormed) :
    functionsFrom {} ls = unit.sized := by
  obtain ⟨hstart, hbody, hfunctions⟩ := h
  next start body listed =>
  obtain ⟨hnone, hgive⟩ := ListedFunction.blocks_flatten hfunctions hwell.functions
  have hblocks : blocks (start :: body ++ listed.flatten) =
      ⟨"DW_TAG_compile_unit".toList, body⟩ :: blocks listed.flatten := by
    rw [blocks_append _ (ListedFunction.takeWhile_flatten hfunctions), blocks_entry hstart hbody,
      List.singleton_append]
  have hname : (⟨"DW_TAG_compile_unit".toList, body⟩ : Block).first? declaredName? = unit.name := by
    refine hbody.findSome?_of_perm Reads.declaredName (.refl _) hwell.attributes ?_
    simp [filterMap_toList, Function.comp_def, Attribute.labelled, Attribute.label,
      Attribute.text?]
  have hbelow : Block.unitName? ([] ++ [⟨"DW_TAG_compile_unit".toList, body⟩]) = unit.name := by
    rw [Block.unitName?_concat, ← hname]
    exact if_pos (decide_eq_true rfl)
  have hunit : (⟨"DW_TAG_compile_unit".toList, body⟩ : Block).function? (Block.unitName? []) =
      none := by
    have hkind : FunctionKind.ofTag? "DW_TAG_compile_unit".toList = none := by decide +kernel
    simp only [Block.function?, hkind, Option.bind_eq_bind, Option.bind_none]
  rw [Block.functionsFrom_eq_functionsBelow, hblocks, Block.functionsBelow, hunit,
    Block.functionsBelow_of_no_unit _ hnone, hbelow, hgive]
  rfl

end ListedUnit

/-! ## Dumps -/

theorem flatMap_functionsFrom {units : List ListedUnit} {listed : List (List Text)}
    (h : List.Forall₂ ListedUnit.IsListed units listed) (hwell : ∀ unit ∈ units, unit.WellFormed) :
    listed.flatMap (functionsFrom {}) = units.flatMap ListedUnit.sized := by
  induction h with
  | nil => rfl
  | cons hunit h ih =>
    obtain ⟨hhere, hrest⟩ := List.forall_mem_cons.mp hwell
    rw [List.flatMap_cons, List.flatMap_cons, hunit.functionsFrom hhere, ih hrest]

theorem IsDump.functionsFrom {units : List ListedUnit} {ls : List Text} (h : IsDump units ls)
    (hwell : ∀ unit ∈ units, unit.WellFormed) :
    functionsFrom {} ls = units.flatMap ListedUnit.sized := by
  obtain ⟨habove, hunits⟩ := h
  next above listed =>
  have hstarts : ∀ unit ∈ listed, StartsUnit unit := by
    clear habove hwell
    induction hunits with
    | nil => exact fun _ h => nomatch h
    | cons hunit _ ih => exact List.forall_mem_cons.mpr ⟨hunit.startsUnit, ih⟩
  have hnone : Dump.functionsFrom {} above = [] := by
    rw [Block.functionsFrom_eq_functionsBelow, blocks_of_startsNone habove.startsNone]
    rfl
  rw [functionsFrom_units {} above hstarts, hnone, List.nil_append,
    flatMap_functionsFrom hunits hwell]

theorem ListedFunction.WellFormed.bytes_size {f : ListedFunction} (h : f.WellFormed) :
    (ByteSize.ofNat f.size).bytes = f.size := by
  have hhigh : f.highPc < Number.limit := h.numbers _ (by simp [ListedFunction.numbers])
  apply ByteSize.bytes_ofNat_of_lt
  unfold ListedFunction.size
  split
  · exact hhigh
  · omega

theorem IsDump.functions_unlines_eq {units : List ListedUnit} {ls : List Text}
    (h : IsDump units ls) (hwell : ∀ unit ∈ units, unit.WellFormed) :
    functions (unlines ls) = SizedFunction.sort (units.flatMap ListedUnit.sized) := by
  rw [functions, functionsOfLines, (h.read_back hwell).functionsFrom hwell]

/-- **Extraction undoes printing.** However units and their functions are laid out in a dump, the
functions found in it are the listed ones that have code, in report order with ties as listed, and
their sizes are exact. -/
theorem functions_unlines {units : List ListedUnit} {ls : List Text} (h : IsDump units ls)
    (hwell : ∀ unit ∈ units, unit.WellFormed) :
    functions (unlines ls) = SizedFunction.sort (units.flatMap ListedUnit.sized) ∧
      SizedFunction.InReportOrder (units.flatMap ListedUnit.sized) (functions (unlines ls)) ∧
      ∀ unit ∈ units, ∀ f ∈ unit.functions, (ByteSize.ofNat f.size).bytes = f.size := by
  have heq := h.functions_unlines_eq hwell
  exact ⟨heq, heq ▸ SizedFunction.sort_inReportOrder _,
    fun unit hunit f hf => ((hwell unit hunit).functions f hf).bytes_size⟩

/-- Two units: one whose function gives its name last, and a nameless one whose function takes
its name over and gives its length before its start. -/
theorem functions_unlines_two :
    let units : List ListedUnit := [
      ⟨some "a.c".toList, [{ kind := .subprogram, name := "f".toList, lowPc := 16, highPc := 48 }]⟩,
      ⟨none, [{ kind := .inlinedSubroutine, name := "g".toList, lowPc := 16, highPc := 8,
                declLine := some 0, callLine := some 7 }]⟩]
    let above := [".debug_info contents:".toList]
    let named := ["0x0b: DW_TAG_compile_unit", " DW_AT_name (\"a.c\")", "0x26:\tDW_TAG_subprogram",
      "  DW_AT_low_pc (0x10)", "", "  DW_AT_high_pc\t(048)",
      "  DW_AT_name (\"f\")"].map String.toList
    let nameless := ["0x4b: DW_TAG_compile_unit", "0x66: DW_TAG_inlined_subroutine",
      "DW_AT_abstract_origin (0xA \"g\")", "DW_AT_high_pc (0X8)", "DW_AT_low_pc (16)",
      "DW_AT_decl_line (0)", "DW_AT_call_line (7)"].map String.toList
    let found : List SizedFunction := [
      ⟨ByteSize.ofNat 32, "a.c".toList, 0, "f".toList, .subprogram⟩,
      ⟨ByteSize.ofNat 8, [], 7, "g".toList, .inlinedSubroutine⟩]
    IsDump units (above ++ [named, nameless].flatten) ∧ (∀ unit ∈ units, unit.WellFormed) ∧
      units.flatMap ListedUnit.sized = found ∧
      functions (unlines (above ++ [named, nameless].flatten)) = SizedFunction.sort found := by
  intro units above named nameless found
  have hlow : (Attribute.lowPc 16).IsLine "  DW_AT_low_pc (0x10)".toList :=
    @Attribute.IsLine.intro _ "  ".toList " ".toList "0x10".toList (by decide) (by decide)
      (.lowPc (.hex (.inl rfl) (by decide)))
  have hhigh : (Attribute.highPc 48).IsLine "  DW_AT_high_pc\t(048)".toList :=
    @Attribute.IsLine.intro _ "  ".toList "\t".toList "048".toList (by decide) (by decide)
      (.highPc (.decimal (by decide)))
  have hname : (Attribute.name "f".toList).IsLine "  DW_AT_name (\"f\")".toList :=
    @Attribute.IsLine.intro _ "  ".toList " ".toList _ (by decide) (by decide) (.name _)
  have hf : units[0].functions[0].IsListed (named.drop 2) :=
    .intro (by decide +kernel) (.inl rfl) (by decide +kernel)
      (.shown hlow (.extra (by decide +kernel) (.shown hhigh (.shown hname .nil))))
  have hunitName : (Attribute.name "a.c".toList).IsLine " DW_AT_name (\"a.c\")".toList :=
    @Attribute.IsLine.intro _ " ".toList " ".toList _ (by decide) (by decide) (.name _)
  have hnamed : units[0].IsListed named :=
    @ListedUnit.IsListed.intro _ _ ((named.take 2).drop 1) [named.drop 2] (by decide +kernel)
      (.shown hunitName .nil) (.cons hf .nil)
  have horigin : (Attribute.origin "g".toList).IsLine
      "DW_AT_abstract_origin (0xA \"g\")".toList :=
    @Attribute.IsLine.intro _ [] " ".toList "0xA \"g\"".toList (by decide) (by decide)
      (@Attribute.IsValue.origin _ "A".toList " ".toList (by decide)
        (List.all_eq_true.mp (by decide)) (by decide))
  have hend : (Attribute.highPc 8).IsLine "DW_AT_high_pc (0X8)".toList :=
    @Attribute.IsLine.intro _ [] " ".toList "0X8".toList (by decide) (by decide)
      (.highPc (.hex (.inr rfl) (by decide)))
  have hstart : (Attribute.lowPc 16).IsLine "DW_AT_low_pc (16)".toList :=
    @Attribute.IsLine.intro _ [] " ".toList "16".toList (by decide) (by decide)
      (.lowPc (.decimal (by decide)))
  have hdeclared : (Attribute.declLine 0).IsLine "DW_AT_decl_line (0)".toList :=
    @Attribute.IsLine.intro _ [] " ".toList "0".toList (by decide) (by decide)
      (.declLine (by decide))
  have hcalled : (Attribute.callLine 7).IsLine "DW_AT_call_line (7)".toList :=
    @Attribute.IsLine.intro _ [] " ".toList "7".toList (by decide) (by decide)
      (.callLine (by decide))
  have hg : units[1].functions[0].IsListed (nameless.drop 1) :=
    .intro (by decide +kernel) (.inr rfl) (by decide +kernel)
      (.shown horigin (.shown hend (.shown hstart (.shown hdeclared (.shown hcalled .nil)))))
  have hnameless : units[1].IsListed nameless :=
    @ListedUnit.IsListed.intro _ _ [] [nameless.drop 1] (by decide +kernel) .nil (.cons hg .nil)
  have hdump : IsDump units (above ++ [named, nameless].flatten) :=
    .intro (.extra (by decide +kernel) .nil) (.cons hnamed (.cons hnameless .nil))
  have hwell : ∀ unit ∈ units, unit.WellFormed := by decide +kernel
  have hfound : units.flatMap ListedUnit.sized = found := by decide +kernel
  exact ⟨hdump, hwell, hfound, hfound ▸ (functions_unlines hdump hwell).1⟩

end BinarySize.Dump
