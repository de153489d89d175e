import BinarySize.Proofs.Report.Titles
import Mathlib.Data.List.Forall2

/-!
# Reports with a smaller limit

The limit of a report says how far its lists go and nothing else. With a smaller one the same
input makes a report with the same preamble and the same titles, in which every list is cut off,
the totals and what is counted stay, and the snippets stop early (`build_cutOff`).
-/

namespace BinarySize.Report

open Text

/-! ## Titles -/

def totalsTitle : Text := "Map Section Summary".toList

/-- The titles of the sections whose lists go as far as the limit. -/
def limitedTitles : List Text :=
  ["DWARF Top Functions", "Map Top CODE Symbols", "Map Top .rodata Symbols",
   "Map Top .data Symbols", "Map Top .bss Symbols", "Map CODE By Object File"].map String.toList

def moduleTitles : ModuleText → List Text
  | .available _ => [moduleTitle, snippetTitle]
  | .unavailable _ => [moduleTitle]

theorem titles_moduleSections (module : ModuleText) (functions : List SizedFunction) :
    (moduleSections module functions).map (·.title) = moduleTitles module := by
  cases module with
  | available summary => rfl
  | unavailable status => rfl

/-! ## Lists and blocks -/

/-- The first entries of a list keep their numbers, and of an empty list one line is left to say
so. -/
theorem numbered_take {n : Nat} (hn : 1 ≤ n) (line : Nat → α → Text) (entries : List α) :
    numbered line (entries.take n) = (numbered line entries).take n := by
  obtain ⟨k, rfl⟩ : ∃ k, n = k + 1 := ⟨n - 1, by omega⟩
  cases entries with
  | nil => rw [List.take_nil, numbered, List.take_succ_cons, List.take_nil]
  | cons first rest =>
    have hindex : ((first :: rest).take (k + 1)).zipIdx = (first :: rest).zipIdx.take (k + 1) := by
      apply List.ext_getElem?
      intro i
      simp only [List.getElem?_zipIdx, List.getElem?_take]
      split
      · rfl
      · rfl
    have hlist : ∀ cut : List α, cut ≠ [] → numbered line cut =
        cut.zipIdx.map fun entry => line (entry.2 + 1) entry.1 := by
      intro cut hcut
      cases cut with
      | nil => exact absurd rfl hcut
      | cons first rest => rfl
    rw [hlist _ (by simp), hlist _ (by simp), hindex, List.map_take]

theorem intercalate_prefix (sep : List α) {front blocks : List (List α)} (h : front <+: blocks) :
    List.intercalate sep front <+: List.intercalate sep blocks := by
  obtain ⟨back, rfl⟩ := h
  induction front with
  | nil => exact List.nil_prefix
  | cons block front ih =>
    cases front with
    | nil =>
      rw [List.intercalate_singleton]
      cases back with
      | nil => simp [List.intercalate_singleton]
      | cons next back =>
        rw [List.singleton_append, List.intercalate_cons_cons, List.append_assoc]
        exact List.prefix_append _ _
    | cons next front =>
      rw [List.cons_append, List.cons_append, List.intercalate_cons_cons,
        List.intercalate_cons_cons]
      exact (List.prefix_append_right_inj _).mpr ih

/-! ## Sections -/

/-- What a section of a report with the limit `n` is of the section of a report that goes
further. -/
structure CutOff (n : Nat) (short long : ReportSection) : Prop where
  title : short.title = long.title
  list : short.title ∈ limitedTitles → short.lines = long.lines.take n
  whole : short.title = totalsTitle ∨ short.title = moduleTitle → short.lines = long.lines
  snippets : short.title = snippetTitle → short.lines <+: long.lines

namespace CutOff

variable {n : Nat}

theorem of_list {title : Text} {lines : List Text} (h : title ∈ limitedTitles) :
    CutOff n ⟨title, lines.take n⟩ ⟨title, lines⟩ where
  title := rfl
  list _ := rfl
  whole hwhole := by
    rcases hwhole with rfl | rfl
    · exact absurd h (by decide)
    · exact absurd h (by decide)
  snippets hsnippets := by
    obtain rfl : title = snippetTitle := hsnippets
    exact absurd h (by decide)

theorem of_whole (block : ReportSection) (h : block.title ∉ limitedTitles) :
    CutOff n block block where
  title := rfl
  list hlist := absurd hlist h
  whole _ := rfl
  snippets _ := List.prefix_rfl

theorem of_snippets {lines more : List Text} (h : lines <+: more) :
    CutOff n ⟨snippetTitle, lines⟩ ⟨snippetTitle, more⟩ where
  title := rfl
  list hlist := absurd hlist (show snippetTitle ∉ limitedTitles by decide)
  whole hwhole :=
    absurd hwhole (show ¬ (snippetTitle = totalsTitle ∨ snippetTitle = moduleTitle) by decide)
  snippets _ := h

end CutOff

variable {n m : Nat}

theorem functionSection_cutOff (hn : 1 ≤ n) (functions : List SizedFunction) :
    CutOff n (functionSection (functions.take n)) (functionSection functions) := by
  unfold functionSection
  rw [numbered_take hn]
  exact .of_list (by decide)

theorem rankedSection_cutOff (hn : 1 ≤ n) {title : Text} (h : title ∈ limitedTitles)
    (entries : List (Text × ByteSize)) :
    CutOff n (rankedSection title (entries.take n)) (rankedSection title entries) := by
  unfold rankedSection
  rw [numbered_take hn]
  exact .of_list h

theorem symbolSection_cutOff (hn : 1 ≤ n) (hnm : n ≤ m) (map : LinkMap.Listing) {label : String}
    (h : label ∈ rankedLabels) :
    CutOff n (symbolSection n map label) (symbolSection m map label) := by
  have htitle : ∀ label ∈ rankedLabels,
      "Map Top ".toList ++ label.toList ++ " Symbols".toList ∈ limitedTitles := by decide
  rw [symbolSection, symbolSection, Ranking.bySymbol, Ranking.bySymbol, ← Ranking.largest_take hnm]
  exact rankedSection_cutOff hn (htitle label h) _

theorem objectFileSection_cutOff (hn : 1 ≤ n) (hnm : n ≤ m) (map : LinkMap.Listing) :
    CutOff n (objectFileSection n map) (objectFileSection m map) := by
  rw [objectFileSection, objectFileSection, Ranking.byObjectFile, Ranking.byObjectFile,
    ← Ranking.largest_take hnm]
  exact rankedSection_cutOff hn (by decide) _

/-- Fewer functions have fewer snippets, and all before them stay. -/
theorem moduleSections_cutOff (module : ModuleText) {front functions : List SizedFunction}
    (h : front <+: functions) :
    List.Forall₂ (CutOff n) (moduleSections module front) (moduleSections module functions) := by
  cases module with
  | available summary =>
    have hlines := intercalate_prefix [[]] (h.filterMap (snippetBlock? summary))
    exact .cons (.of_whole _ (show moduleTitle ∉ limitedTitles by decide))
      (.cons (.of_snippets hlines) .nil)
  | unavailable status =>
    exact .cons (.of_whole _ (show moduleTitle ∉ limitedTitles by decide)) .nil

theorem sections_cutOff (hn : 1 ≤ n) (hnm : n ≤ m) (input : ReportInput) :
    List.Forall₂ (CutOff n) (build { input with limit := n }).sections
      (build { input with limit := m }).sections := by
  have hshorter : (input.functions.take m).take n = input.functions.take n := by
    rw [List.take_take, Nat.min_eq_left hnm]
  have hfunctions := functionSection_cutOff hn (input.functions.take m)
  have hsymbols : List.Forall₂ (CutOff n) (rankedLabels.map (symbolSection n input.map))
      (rankedLabels.map (symbolSection m input.map)) :=
    List.forall₂_map_left_iff.mpr <| List.forall₂_map_right_iff.mpr <|
      List.forall₂_same.mpr fun _ hlabel => symbolSection_cutOff hn hnm input.map hlabel
  have hmodule : List.Forall₂ (CutOff n)
      (moduleSections input.module ((input.functions.take m).take n))
      (moduleSections input.module (input.functions.take m)) :=
    moduleSections_cutOff input.module (List.take_prefix _ _)
  rw [hshorter] at hfunctions hmodule
  refine .cons hfunctions (.cons (.of_whole _ (show totalsTitle ∉ limitedTitles by decide)) ?_)
  exact List.rel_append hsymbols (.cons (objectFileSection_cutOff hn hnm input.map) hmodule)

/-! ## Reports -/

/-- **A smaller limit.** Of two reports on the same input the one with the smaller limit has the
same preamble and the same sections, and each of its sections is cut off from the other's: of a
list its first lines are left, the totals and what is said about the module text stay as they are,
and the snippets are those that come first. -/
theorem build_cutOff (hn : 1 ≤ n) (hnm : n ≤ m) (input : ReportInput) :
    let short := build { input with limit := n }
    let long := build { input with limit := m }
    short.preamble = long.preamble ∧
      short.sections.map (·.title) = fixedTitles ++ moduleTitles input.module ∧
      List.Forall₂ (CutOff n) short.sections long.sections := by
  intro short long
  refine ⟨rfl, ?_, sections_cutOff hn hnm input⟩
  rw [sections_build, List.map_append, titles_fixedSections, titles_moduleSections]

/-- Two functions, symbols and object files of which a limit of one leaves the first, and the
snippets of both. -/
theorem build_cutOff_two :
    let input : ReportInput :=
      { dumpPath := "d".toList
        mapPath := "m".toList
        modulePath := some "t".toList
        time := ⟨2024, 5, 1, 12, 30, 0, 0⟩
        limit := 20
        functions := [⟨ByteSize.ofNat 9, "a.c".toList, 3, "f".toList, .subprogram⟩,
          ⟨ByteSize.ofNat 5, [], 0, "g".toList, .inlinedSubroutine⟩]
        map := LinkMap.listing "- 8 a CODE\n- 20 7 a.o:(f)\n- 30 5 b.o:(g)\n".toList
        module := .available (ModuleSummary.ofText 2 "(func $f)\n(func $g)\n".toList) }
    let short := build { input with limit := 1 }
    let long := build { input with limit := 2 }
    1 ≤ 1 ∧ 1 ≤ 2 ∧
      (short.find? snippetTitle).map (·.lines) = some ["f".toList, "  (func $f)".toList] ∧
      (long.find? snippetTitle).map (·.lines) =
        some ["f".toList, "  (func $f)".toList, [], "g".toList, "  (func $g)".toList] ∧
      short.preamble = long.preamble ∧
      short.sections.map (·.title) = fixedTitles ++ moduleTitles input.module ∧
      List.Forall₂ (CutOff 1) short.sections long.sections := by
  intro input short long
  exact ⟨Nat.le_refl 1, by decide, by decide +kernel, by decide +kernel,
    build_cutOff (Nat.le_refl 1) (by decide) input⟩

end BinarySize.Report
