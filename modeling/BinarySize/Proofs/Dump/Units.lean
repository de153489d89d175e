import BinarySize.Dump.Entry
import BinarySize.Proofs.Dump.ReportOrder

/-!
# Dumps made of compile units

The reader of a dump carries nothing across the line that starts a compile unit: it closes the
open entry under the old unit's name and forgets that name. So a dump can be cut there and read
piece by piece (`functionsFrom_append`), and the order of its compile units decides no more than
how ties are ordered (`functionsOfLines_units`).
-/

namespace BinarySize.Dump

def StartsUnit (lines : List Text) : Prop :=
  lines.head?.bind entryTag? = some "DW_TAG_compile_unit".toList

instance (lines : List Text) : Decidable (StartsUnit lines) := by
  unfold StartsUnit
  infer_instance

/-- Where a compile unit starts, every position is left alike. -/
theorem atEntry_unit (position : Position) :
    position.atEntry "DW_TAG_compile_unit".toList = ⟨.compileUnit, none⟩ := by
  rw [Position.atEntry, Entry.opened, if_pos rfl]

/-- Lines that start with a compile unit are read as if nothing stood before them. -/
theorem functionsFrom_append (position : Position) (front : List Text) {back : List Text}
    (h : StartsUnit back) :
    functionsFrom position (front ++ back) =
      functionsFrom position front ++ functionsFrom {} back := by
  induction front generalizing position with
  | nil =>
    cases back with
    | nil => cases h
    | cons line rest =>
      have htag : entryTag? line = some "DW_TAG_compile_unit".toList := h
      simp only [List.nil_append, functionsFrom, htag, atEntry_unit]
      rfl
  | cons line front ih =>
    rw [List.cons_append, functionsFrom, functionsFrom]
    cases entryTag? line with
    | some tag => simp only [ih, List.append_assoc]
    | none => simp only [ih]

/-- Compile units are read one by one, behind the lines above the first. -/
theorem functionsFrom_units (position : Position) (top : List Text) {units : List (List Text)}
    (h : ∀ unit ∈ units, StartsUnit unit) :
    functionsFrom position (top ++ units.flatten) =
      functionsFrom position top ++ units.flatMap (functionsFrom {}) := by
  induction units generalizing position top with
  | nil => simp
  | cons unit units ih =>
    have hunit := h unit List.mem_cons_self
    have hrest := ih position (top ++ unit) fun u hu => h u (List.mem_cons_of_mem _ hu)
    rw [List.flatten_cons, ← List.append_assoc, hrest, functionsFrom_append position top hunit,
      List.flatMap_cons, List.append_assoc]

/-- **Compile units.** The functions of two pieces of a dump that is cut where a compile unit
starts are, put in report order together, those of the dump. Whole compile units may change their
places: the same functions are found, and the same sizes and names in the same order. -/
theorem functionsOfLines_units :
    (∀ front back, StartsUnit back →
      functionsOfLines (front ++ back) =
          SizedFunction.sort (functionsOfLines front ++ functionsOfLines back) ∧
        SizedFunction.InReportOrder (functionsOfLines front ++ functionsOfLines back)
          (functionsOfLines (front ++ back))) ∧
      ∀ (top : List Text) (units others : List (List Text)), (∀ unit ∈ units, StartsUnit unit) →
        units.Perm others →
        (functionsOfLines (top ++ units.flatten)).Perm
            (functionsOfLines (top ++ others.flatten)) ∧
          (functionsOfLines (top ++ units.flatten)).map SizedFunction.rank =
            (functionsOfLines (top ++ others.flatten)).map SizedFunction.rank := by
  constructor
  · intro front back h
    have heq : functionsOfLines (front ++ back) =
        SizedFunction.sort (functionsOfLines front ++ functionsOfLines back) := by
      rw [functionsOfLines, functionsFrom_append {} front h, ← SizedFunction.sort_sort_append]
      rfl
    exact ⟨heq, heq ▸ SizedFunction.sort_inReportOrder _⟩
  · intro top units others hunits hperm
    have hothers : ∀ unit ∈ others, StartsUnit unit := fun unit hunit =>
      hunits unit (hperm.mem_iff.mpr hunit)
    have hfound : (functionsFrom {} (top ++ units.flatten)).Perm
        (functionsFrom {} (top ++ others.flatten)) := by
      rw [functionsFrom_units {} top hunits, functionsFrom_units {} top hothers]
      exact (hperm.flatMap_right _).append_left _
    refine ⟨?_, SizedFunction.map_rank_sort_of_perm hfound⟩
    exact (SizedFunction.sort_perm _).trans (hfound.trans (SizedFunction.sort_perm _).symm)

/-- Two units with a function each, the second without a name: read together they give both
functions, the first unit's name stays its own, and either unit may come first. -/
theorem functionsOfLines_units_two :
    let named := ["0x0b: DW_TAG_compile_unit", " DW_AT_name (\"a.c\")", "0x26: DW_TAG_subprogram",
      " DW_AT_low_pc (0)", " DW_AT_high_pc (8)", " DW_AT_name (\"f\")"].map String.toList
    let nameless := ["0x4b: DW_TAG_compile_unit", "0x66: DW_TAG_subprogram",
      " DW_AT_low_pc (0x10)", " DW_AT_high_pc (0x18)", " DW_AT_name (\"g\")"].map String.toList
    let f : SizedFunction := ⟨ByteSize.ofNat 8, "a.c".toList, 0, "f".toList, .subprogram⟩
    let g : SizedFunction := ⟨ByteSize.ofNat 8, [], 0, "g".toList, .subprogram⟩
    StartsUnit nameless ∧ functionsFrom {} (named ++ nameless) = [f, g] ∧
      functionsOfLines (named ++ nameless) =
        SizedFunction.sort (functionsOfLines named ++ functionsOfLines nameless) ∧
      (∀ unit ∈ [named, nameless], StartsUnit unit) ∧ [named, nameless].Perm [nameless, named] ∧
      (functionsOfLines ([] ++ [named, nameless].flatten)).map SizedFunction.rank =
        (functionsOfLines ([] ++ [nameless, named].flatten)).map SizedFunction.rank := by
  intro named nameless f g
  have hnameless : StartsUnit nameless := by decide +kernel
  have hfound : functionsFrom {} (named ++ nameless) = [f, g] := by decide +kernel
  have hunits : ∀ unit ∈ [named, nameless], StartsUnit unit := by decide +kernel
  have hperm : [named, nameless].Perm [nameless, named] := .swap nameless named []
  exact ⟨hnameless, hfound, (functionsOfLines_units.1 named nameless hnameless).1, hunits, hperm,
    (functionsOfLines_units.2 [] _ _ hunits hperm).2⟩

end BinarySize.Dump
