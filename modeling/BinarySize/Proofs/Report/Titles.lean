import BinarySize.Report.Build

/-!
# Sections about the module text

The last sections of a report tell by their titles what became of the module text: a report says
a status exactly if there was none to use (`saysStatus_build`), and has snippets exactly if there
was one (`hasSnippets_build`).
-/

namespace BinarySize.Report

open Text

def snippetTitle : Text := "WAT Snippets (Top Functions)".toList

def fixedTitles : List Text :=
  ["DWARF Top Functions", "Map Section Summary", "Map Top CODE Symbols", "Map Top .rodata Symbols",
   "Map Top .data Symbols", "Map Top .bss Symbols", "Map CODE By Object File"].map String.toList

/-- The sections that every report has. They say nothing about the module text. -/
def fixedSections (input : ReportInput) : List ReportSection :=
  functionSection (input.functions.take input.limit) :: totalsSection input.map.totals
    :: rankedLabels.map (symbolSection input.limit input.map)
    ++ [objectFileSection input.limit input.map]

theorem sections_build (input : ReportInput) : (build input).sections =
    fixedSections input ++ moduleSections input.module (input.functions.take input.limit) := rfl

theorem titles_fixedSections (input : ReportInput) :
    (fixedSections input).map (·.title) = fixedTitles := rfl

/-- The report says a status where it would sum up a module text. -/
def SaysStatus (report : Report) (message : Text) : Prop :=
  ∃ block ∈ report.sections, block.title = moduleTitle ∧
    moduleLine "status".toList message ∈ block.lines

def HasSnippets (report : Report) : Prop :=
  ∃ block ∈ report.sections, block.title = snippetTitle

instance (report : Report) (message : Text) : Decidable (report.SaysStatus message) :=
  inferInstanceAs (Decidable (∃ block ∈ report.sections, _))

instance (report : Report) : Decidable report.HasSnippets :=
  inferInstanceAs (Decidable (∃ block ∈ report.sections, _))

theorem mem_moduleSections_of_title {input : ReportInput} {block : ReportSection}
    (h : block ∈ (build input).sections) (htitle : block.title ∉ fixedTitles) :
    block ∈ moduleSections input.module (input.functions.take input.limit) := by
  have hranked : ∀ label ∈ rankedLabels,
      "Map Top ".toList ++ label.toList ++ " Symbols".toList ∈ fixedTitles := by decide
  simp only [build, List.cons_append, List.mem_cons, List.mem_append, List.mem_map] at h
  rcases h with rfl | rfl | ⟨label, hlabel, rfl⟩ | rfl | h
  · exact absurd (show "DWARF Top Functions".toList ∈ fixedTitles by decide) htitle
  · exact absurd (show "Map Section Summary".toList ∈ fixedTitles by decide) htitle
  · exact absurd (hranked label hlabel) htitle
  · exact absurd (show "Map CODE By Object File".toList ∈ fixedTitles by decide) htitle
  · exact h

theorem moduleSections_subset (input : ReportInput) :
    moduleSections input.module (input.functions.take input.limit) ⊆ (build input).sections := by
  intro block hblock
  simp only [build, List.cons_append, List.mem_cons, List.mem_append]
  exact .inr (.inr (.inr (.inr hblock)))

theorem moduleLine_ne_status (construct : Construct) (value message : Text) :
    moduleLine construct.label.toList value ≠ moduleLine "status".toList message := by
  have hhead : (moduleLine construct.label.toList value).head? ≠ some 's' := by
    cases construct with
    | _ => exact fun h => absurd (Option.some.inj h) (by decide)
  intro heq
  exact hhead (congrArg List.head? heq)

/-- A report says a status exactly if there is no module text to sum up. -/
theorem saysStatus_build {input : ReportInput} {message : Text} :
    (build input).SaysStatus message ↔
      ∃ status, input.module = .unavailable status ∧ status.message = message := by
  constructor
  · rintro ⟨block, hblock, htitle, hline⟩
    have hmem := mem_moduleSections_of_title hblock (by rw [htitle]; decide)
    cases hmodule : input.module with
    | available summary =>
      rw [hmodule] at hmem
      rcases List.mem_cons.mp hmem with rfl | hmem
      · obtain ⟨⟨construct, count⟩, -, heq⟩ := List.mem_map.mp hline
        exact absurd heq (moduleLine_ne_status construct _ message)
      · rw [List.mem_singleton.mp hmem] at htitle
        exact absurd htitle (show snippetTitle ≠ moduleTitle by decide)
    | unavailable status =>
      rw [hmodule] at hmem
      rw [List.mem_singleton.mp hmem] at hline
      refine ⟨status, rfl, ?_⟩
      exact (List.append_cancel_left (List.mem_singleton.mp hline)).symm
  · rintro ⟨status, hmodule, rfl⟩
    refine ⟨statusSection status, moduleSections_subset input ?_, rfl, List.mem_singleton_self _⟩
    rw [hmodule]
    exact List.mem_singleton_self _

/-- A report has snippets exactly if there is a module text. -/
theorem hasSnippets_build {input : ReportInput} :
    (build input).HasSnippets ↔ ∃ summary, input.module = .available summary := by
  constructor
  · rintro ⟨block, hblock, htitle⟩
    have hmem := mem_moduleSections_of_title hblock (by rw [htitle]; decide)
    cases hmodule : input.module with
    | available summary => exact ⟨summary, rfl⟩
    | unavailable status =>
      rw [hmodule] at hmem
      rw [List.mem_singleton.mp hmem] at htitle
      exact absurd htitle (show moduleTitle ≠ snippetTitle by decide)
  · rintro ⟨summary, hmodule⟩
    refine ⟨snippetSection summary (input.functions.take input.limit),
      moduleSections_subset input ?_, rfl⟩
    rw [hmodule]
    exact List.mem_cons_of_mem _ (List.mem_singleton_self _)

end BinarySize.Report
