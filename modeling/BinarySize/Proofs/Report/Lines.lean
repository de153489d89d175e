import BinarySize.Proofs.Dump.Origins
import BinarySize.Proofs.LinkMap.Origins
import BinarySize.Proofs.Report.Titles
import BinarySize.Proofs.Run.Stages

/-!
# The lines of a report

Names and files are stretches of lines of what is read, and all that a report puts around them is
free of line feeds. So each line of a report is one line, as long as the paths are, with one
exception: the status line repeats what a converter complained of, however many lines that takes
(`lines_build`, `status_line_of_two_lines`).
-/

namespace BinarySize

open Text

/-! ## Pieces of lines -/

namespace Text

@[simp] theorem lf_not_mem_decimal (n : Nat) : '\n' ∉ decimal n := by
  intro h
  exact absurd (Nat.isDigit_of_mem_toDigits (by decide) (by decide) h) (by decide)

@[simp] theorem lf_mem_padLeft (width : Nat) (cs : Text) : '\n' ∈ padLeft width cs ↔ '\n' ∈ cs := by
  simp [padLeft, List.mem_replicate]

@[simp] theorem lf_mem_padRight (width : Nat) (cs : Text) :
    '\n' ∈ padRight width cs ↔ '\n' ∈ cs := by
  simp [padRight, List.mem_replicate]

theorem lf_not_mem_stretch {cs line piece : Text} (hline : line ∈ lines cs)
    (hpiece : piece <:+: line) : '\n' ∉ piece :=
  fun h => not_mem_of_mem_lines hline (hpiece.subset h)

end Text

namespace ByteSize

@[simp] theorem lf_not_mem_bytesLabel (size : ByteSize) : '\n' ∉ size.bytesLabel := by
  simp [bytesLabel]

@[simp] theorem lf_not_mem_kilobytesLabel (size : ByteSize) : '\n' ∉ size.kilobytesLabel := by
  simp [kilobytesLabel]

end ByteSize

namespace DateTime

theorem lf_not_mem_zeroPadded (width n : Nat) : '\n' ∉ zeroPadded width n := by
  simp [zeroPadded, List.mem_replicate]

theorem lf_not_mem_yearText (year : Int) : '\n' ∉ yearText year := by
  unfold yearText
  split
  · simp [lf_not_mem_zeroPadded]
  · split <;> simp [lf_not_mem_zeroPadded]

theorem lf_not_mem_text (t : DateTime) : '\n' ∉ t.text := by
  simp [text, dateText, clockText, lf_not_mem_yearText, lf_not_mem_zeroPadded]

end DateTime

theorem SizedFunction.lf_not_mem_location {f : SizedFunction} (h : '\n' ∉ f.file) :
    '\n' ∉ f.location := by
  have hfile : '\n' ∉ if f.file.isEmpty then "<unknown>".toList else f.file := by
    split
    · decide
    · exact h
  unfold location
  dsimp only
  split
  · exact hfile
  · simp only [List.mem_append, List.mem_cons, Char.reduceEq, lf_not_mem_decimal, hfile, or_self,
      not_false_eq_true]

/-! ## Snippets -/

namespace ModuleFunction

theorem mem_snippet_addLine {limit : Nat} {line l : Text} {f : ModuleFunction}
    (h : l ∈ (addLine limit line f).snippet) : l ∈ f.snippet ∨ l = line := by
  unfold addLine at h
  split at h
  · exact (List.mem_append.mp h).imp_right List.mem_singleton.mp
  · exact .inl h

theorem mem_snippet_fromLines {limit : Nat} {current : Option ModuleFunction} {lines : List Text}
    {f : ModuleFunction} (hf : f ∈ fromLines limit current lines) {l : Text} (hl : l ∈ f.snippet) :
    (∃ g, current = some g ∧ l ∈ g.snippet) ∨ l ∈ lines := by
  induction lines generalizing current with
  | nil => exact .inl ⟨f, Option.mem_toList.mp hf, hl⟩
  | cons line rest ih =>
    rw [fromLines] at hf
    split at hf
    · next identifier _ =>
      rcases List.mem_append.mp hf with hcurrent | hlater
      · exact .inl ⟨f, Option.mem_toList.mp hcurrent, hl⟩
      · rcases ih hlater with ⟨g, hg, hsnippet⟩ | hrest
        · cases hg
          exact .inr (List.mem_singleton.mp hsnippet ▸ List.mem_cons_self)
        · exact .inr (List.mem_cons_of_mem _ hrest)
    · rcases ih hf with ⟨g, hg, hsnippet⟩ | hrest
      · obtain ⟨opened, hopened, rfl⟩ := Option.map_eq_some_iff.mp hg
        rcases mem_snippet_addLine hsnippet with hsnippet | rfl
        · exact .inl ⟨opened, hopened, hsnippet⟩
        · exact .inr List.mem_cons_self
      · exact .inr (List.mem_cons_of_mem _ hrest)

theorem mem_of_find? {name : Text} {functions : List ModuleFunction} {f : ModuleFunction}
    (h : find? name functions = some f) : f ∈ functions := by
  unfold find? at h
  split at h
  · cases h
  · exact List.mem_of_find?_eq_some h

end ModuleFunction

/-! ## Sections -/

/-- Every line of a section is one line. -/
def ReportSection.OneLined (block : ReportSection) : Prop := ∀ line ∈ block.lines, '\n' ∉ line

namespace Report

theorem lf_not_mem_entryStart (numberWidth number : Nat) (size : ByteSize) :
    '\n' ∉ entryStart numberWidth number size := by
  simp [entryStart, sizeColumns]

theorem oneLined_numbered {title : Text} {line : Nat → α → Text} {entries : List α}
    (h : ∀ number, ∀ entry ∈ entries, '\n' ∉ line number entry) :
    (ReportSection.mk title (numbered line entries)).OneLined := by
  intro l hl
  cases entries with
  | nil =>
    rw [List.mem_singleton.mp hl]
    decide
  | cons first rest =>
    obtain ⟨⟨entry, index⟩, hentry, rfl⟩ := List.mem_map.mp hl
    exact h _ entry (List.fst_mem_of_mem_zipIdx hentry)

theorem oneLined_functionSection {functions : List SizedFunction}
    (h : ∀ f ∈ functions, '\n' ∉ f.name ∧ '\n' ∉ f.file) :
    (functionSection functions).OneLined := by
  refine oneLined_numbered fun number f hf => ?_
  obtain ⟨hname, hfile⟩ := h f hf
  simp [lf_not_mem_entryStart, SizedFunction.lf_not_mem_location hfile, hname]

theorem oneLined_totalsSection (totals : Tally) : (totalsSection totals).OneLined := by
  have hlabel : ∀ label ∈ summaryOrder, '\n' ∉ label.toList := by decide
  intro line hline
  obtain ⟨label, hmem, htotal⟩ := List.mem_filterMap.mp hline
  obtain ⟨size, -, rfl⟩ := Option.map_eq_some_iff.mp htotal
  simp [sizeColumns, hlabel label hmem]

theorem oneLined_rankedSection {title : Text} {entries : List (Text × ByteSize)}
    (h : ∀ entry ∈ entries, '\n' ∉ entry.1) : (rankedSection title entries).OneLined := by
  refine oneLined_numbered fun number entry hentry => ?_
  simp [lf_not_mem_entryStart, h entry hentry]

theorem lf_mem_moduleLine {label value : Text} (h : '\n' ∉ label) :
    '\n' ∈ moduleLine label value ↔ '\n' ∈ value := by
  simp [moduleLine, h]

theorem oneLined_countsSection (summary : ModuleSummary) : (countsSection summary).OneLined := by
  intro line hline
  obtain ⟨⟨construct, count⟩, -, rfl⟩ := List.mem_map.mp hline
  have hlabel : '\n' ∉ construct.label.toList := by
    cases construct with
    | _ => decide
  simp [lf_mem_moduleLine hlabel]

theorem mem_intercalate {sep : List Text} {blocks : List (List Text)} {line : Text}
    (h : line ∈ List.intercalate sep blocks) : line ∈ sep ∨ ∃ block ∈ blocks, line ∈ block := by
  induction blocks with
  | nil => cases h
  | cons block rest ih =>
    cases rest with
    | nil => exact .inr ⟨block, List.mem_cons_self, by simpa [List.intercalate] using h⟩
    | cons next rest =>
      have hcut : List.intercalate sep (block :: next :: rest) =
          block ++ (sep ++ List.intercalate sep (next :: rest)) := by
        simp [List.intercalate]
      rw [hcut, List.mem_append, List.mem_append] at h
      rcases h with hblock | hsep | hlater
      · exact .inr ⟨block, List.mem_cons_self, hblock⟩
      · exact .inl hsep
      · exact (ih hlater).imp_right fun ⟨found, hfound, hline⟩ =>
          ⟨found, List.mem_cons_of_mem _ hfound, hline⟩

theorem oneLined_snippetSection {summary : ModuleSummary} {functions : List SizedFunction}
    (hfunctions : ∀ f ∈ functions, '\n' ∉ f.name)
    (hsnippets : ∀ f ∈ summary.functions, ∀ line ∈ f.snippet, '\n' ∉ line) :
    (snippetSection summary functions).OneLined := by
  intro line hline
  rcases mem_intercalate hline with hblank | ⟨block, hblock, hline⟩
  · rw [List.mem_singleton.mp hblank]
    exact List.not_mem_nil
  · obtain ⟨f, hf, hfound⟩ := List.mem_filterMap.mp hblock
    obtain ⟨found, hfind, rfl⟩ := Option.map_eq_some_iff.mp hfound
    rcases List.mem_cons.mp hline with rfl | hline
    · exact hfunctions f hf
    · obtain ⟨shown, hshown, rfl⟩ := List.mem_map.mp hline
      have hfree := hsnippets found (ModuleFunction.mem_of_find? hfind) shown hshown
      simp [hfree]

end Report

/-! ## Reports of texts -/

/-- What a report is made from before anything is read: the texts of the dump and the map, the
text of the module or why there is none, and what else the report shows. -/
structure ReportTexts where
  dumpPath : Text
  mapPath : Text
  modulePath : Option Text
  time : DateTime
  limit : Nat
  snippetLines : Nat
  dump : Text
  map : Text
  module : Except ModuleTextStatus Text

namespace ReportTexts

def input (texts : ReportTexts) : ReportInput where
  dumpPath := texts.dumpPath
  mapPath := texts.mapPath
  modulePath := texts.modulePath
  time := texts.time
  limit := texts.limit
  functions := Dump.functions texts.dump
  map := LinkMap.listing texts.map
  module := match texts.module with
    | .ok text => .available (ModuleSummary.ofText texts.snippetLines text)
    | .error status => .unavailable status

def paths (texts : ReportTexts) : List Text :=
  texts.dumpPath :: texts.mapPath :: texts.modulePath.toList

def said (texts : ReportTexts) : Text :=
  match texts.module with
  | .ok _ => []
  | .error status => status.message

/-- Every report of a run is made from texts. -/
theorem reportOn_eq_build (options : SizeReportOptions) (status : Option ModuleTextStatus)
    (time : DateTime) (files : FileTree) :
    ∃ texts : ReportTexts, Run.reportOn options status time files = Report.build texts.input ∧
      texts.paths = options.dump :: options.map :: options.moduleText.toList := by
  refine ⟨⟨options.dump, options.map, options.moduleText, time, options.limit,
    options.snippetLines, Run.textAt files options.dump, Run.textAt files options.map,
    (options.moduleText.filter files.isFile).elim (.error (status.getD .missing))
      fun text => .ok (Run.textAt files text)⟩, ?_, rfl⟩
  unfold Run.reportOn Run.moduleTextOn input
  cases options.moduleText.filter files.isFile <;> rfl

end ReportTexts

namespace Report

variable {texts : ReportTexts}

theorem lf_not_mem_preamble (h : ∀ path ∈ texts.paths, '\n' ∉ path) :
    ∀ line ∈ (build texts.input).preamble, '\n' ∉ line := by
  intro line hline
  have hdump := h texts.dumpPath (by simp [ReportTexts.paths])
  have hmap := h texts.mapPath (by simp [ReportTexts.paths])
  simp only [build, preambleOf, List.mem_append, List.mem_cons, List.not_mem_nil, or_false,
    List.mem_map] at hline
  rcases hline with (rfl | rfl | rfl | rfl) | ⟨path, hpath, rfl⟩
  · decide
  · simp [DateTime.lf_not_mem_text]
  · simp [ReportTexts.input, hdump]
  · simp [ReportTexts.input, hmap]
  · have hmem : path ∈ texts.paths := List.mem_cons_of_mem _ (List.mem_cons_of_mem _ hpath)
    simp [h path hmem]

/-- What is ranked are stretches of lines of the map. -/
theorem lf_not_mem_of_ranked {key : MapSymbol → Text} {label : Text} {n : Nat} {map : Text}
    (hkey : ∀ symbol, key symbol <:+: symbol.name ∨ key symbol <:+: symbol.file) :
    ∀ entry ∈ Ranking.largest n (Ranking.sumBy key ((LinkMap.listing map).symbolsIn label)).totals,
      '\n' ∉ entry.1 := by
  intro entry hentry
  obtain ⟨symbol, hsymbol, hlabel⟩ := Ranking.exists_symbol_of_mem_largest hentry
  obtain ⟨⟨line, hline, hname⟩, line', hline', hfile⟩ :=
    LinkMap.exists_line_of_mem_symbols (List.mem_filter.mp hsymbol).1
  rw [← hlabel]
  rcases hkey symbol with hkey | hkey
  · exact lf_not_mem_stretch hline (hkey.trans hname)
  · exact lf_not_mem_stretch hline' (hkey.trans hfile)

theorem lf_not_mem_function (dump : Text) :
    ∀ f ∈ Dump.functions dump, '\n' ∉ f.name ∧ '\n' ∉ f.file := by
  intro f hf
  obtain ⟨⟨line, hline, hname⟩, hfile⟩ := Dump.exists_line_of_mem_functions hf
  refine ⟨lf_not_mem_stretch hline hname, ?_⟩
  rcases hfile with hnone | ⟨line', hline', hfile⟩
  · rw [hnone]
    exact List.not_mem_nil
  · exact lf_not_mem_stretch hline' hfile

/-- Nothing but the module text has a say in whether the lines of a report are lines. -/
theorem oneLined_fixedSections : ∀ block ∈ fixedSections texts.input, block.OneLined := by
  intro block hblock
  simp only [fixedSections, List.cons_append, List.mem_cons, List.mem_append, List.mem_map,
    List.not_mem_nil, or_false] at hblock
  rcases hblock with rfl | rfl | ⟨label, -, rfl⟩ | rfl
  · refine oneLined_functionSection fun f hf => ?_
    exact lf_not_mem_function texts.dump f (List.mem_of_mem_take hf)
  · exact oneLined_totalsSection _
  · exact oneLined_rankedSection (lf_not_mem_of_ranked fun symbol => .inl List.infix_rfl)
  · exact oneLined_rankedSection
      (lf_not_mem_of_ranked fun symbol => .inr (Ranking.infix_objectFileName _))

theorem oneLined_moduleSections {text : Text} (h : texts.module = .ok text) :
    ∀ block ∈ moduleSections texts.input.module (texts.input.functions.take texts.limit),
      block.OneLined := by
  intro block hblock
  simp only [ReportTexts.input, h, moduleSections, List.mem_cons, List.not_mem_nil, or_false]
    at hblock
  rcases hblock with rfl | rfl
  · exact oneLined_countsSection _
  · refine oneLined_snippetSection ?_ ?_
    · intro f hf
      exact (lf_not_mem_function texts.dump f (List.mem_of_mem_take hf)).1
    · intro f hf line hline
      rcases ModuleFunction.mem_snippet_fromLines hf hline with ⟨g, hg, -⟩ | hline
      · cases hg
      · exact not_mem_of_mem_lines hline

/-! ## Counting -/

def lineFeeds (lines : List Text) : Nat := lines.flatten.count '\n'

theorem lineFeeds_append (front back : List Text) :
    lineFeeds (front ++ back) = lineFeeds front + lineFeeds back := by
  rw [lineFeeds, List.flatten_append, List.count_append]
  rfl

theorem lineFeeds_eq_zero {lines : List Text} (h : ∀ line ∈ lines, '\n' ∉ line) :
    lineFeeds lines = 0 := by
  refine List.count_eq_zero.mpr fun hfeed => ?_
  obtain ⟨line, hline, hfeed⟩ := List.mem_flatten.mp hfeed
  exact h line hline hfeed

/-- Sections add no line feeds to those of their titles and their lines. -/
theorem lineFeeds_flatMap_written {blocks : List ReportSection}
    (htitles : ∀ block ∈ blocks, '\n' ∉ block.title) (h : ∀ block ∈ blocks, block.OneLined) :
    lineFeeds (blocks.flatMap ReportSection.written) = 0 := by
  refine lineFeeds_eq_zero fun line hline => ?_
  obtain ⟨block, hblock, hline⟩ := List.mem_flatMap.mp hline
  simp only [ReportSection.written, List.cons_append, List.mem_cons, List.mem_append,
    List.not_mem_nil, or_false] at hline
  rcases hline with rfl | rfl | hline | rfl
  · exact htitles block hblock
  · simp [List.mem_replicate]
  · exact h block hblock line hline
  · exact List.not_mem_nil

theorem count_moduleLine {label : Text} (h : '\n' ∉ label) (value : Text) :
    (moduleLine label value).count '\n' = value.count '\n' := by
  have hlabel : '\n' ∉ padRight 9 label ++ ": ".toList := by simp [h]
  rw [moduleLine, List.count_append, List.count_eq_zero.mpr hlabel, Nat.zero_add]

theorem lineFeeds_statusSection (status : ModuleTextStatus) :
    lineFeeds (statusSection status).written = status.message.count '\n' := by
  have htitle : moduleTitle.count '\n' = 0 := by decide
  have hlabel : '\n' ∉ "status".toList := by decide
  simp only [ReportSection.written, statusSection, lineFeeds, List.cons_append, List.nil_append,
    List.flatten_cons, List.flatten_nil, List.count_append, htitle, count_moduleLine hlabel]
  simp [List.count_replicate]

theorem length_written (report : Report) : report.written.length =
    report.preamble.length + 1 + (report.sections.map fun block => block.lines.length + 3).sum := by
  have hblock : ∀ block : ReportSection, block.written.length = block.lines.length + 3 := by
    intro block
    simp [ReportSection.written]
  simp only [written, List.length_append, List.length_cons, List.length_flatMap, hblock]
  omega

theorem titles_build (texts : ReportTexts) : (build texts.input).sections.map (·.title) =
    fixedTitles ++ match texts.module with
      | .ok _ => [moduleTitle, snippetTitle]
      | .error _ => [moduleTitle] := by
  rw [sections_build, List.map_append, titles_fixedSections]
  cases h : texts.module with
  | ok text => simp only [ReportTexts.input, h, moduleSections]; rfl
  | error status => simp only [ReportTexts.input, h, moduleSections]; rfl

theorem lf_not_mem_titles (texts : ReportTexts) :
    ∀ block ∈ (build texts.input).sections, '\n' ∉ block.title := by
  have hknown : ∀ title ∈ fixedTitles ++ [moduleTitle, snippetTitle], '\n' ∉ title := by decide
  intro block hblock
  have htitle : block.title ∈ (build texts.input).sections.map (·.title) :=
    List.mem_map_of_mem hblock
  rw [titles_build] at htitle
  apply hknown
  cases h : texts.module with
  | ok text => rwa [h] at htitle
  | error status =>
    rw [h] at htitle
    rcases List.mem_append.mp htitle with hfixed | hmodule
    · exact List.mem_append_left _ hfixed
    · rw [List.mem_singleton.mp hmodule]
      exact List.mem_append_right _ List.mem_cons_self

theorem lineFeeds_build (texts : ReportTexts) (hpaths : ∀ path ∈ texts.paths, '\n' ∉ path) :
    lineFeeds (build texts.input).written = texts.said.count '\n' := by
  have htitles := lf_not_mem_titles texts
  rw [sections_build, List.forall_mem_append] at htitles
  have hfixed := lineFeeds_flatMap_written htitles.1 oneLined_fixedSections
  have habove : lineFeeds ((build texts.input).preamble ++ [[]]) = 0 :=
    lineFeeds_eq_zero (List.forall_mem_append.mpr ⟨lf_not_mem_preamble hpaths, by simp⟩)
  have hwritten : (build texts.input).written =
      (build texts.input).preamble ++ [[]]
        ++ (fixedSections texts.input).flatMap ReportSection.written
        ++ (moduleSections texts.input.module
          (texts.input.functions.take texts.input.limit)).flatMap ReportSection.written := by
    rw [written, sections_build, List.flatMap_append]
    simp only [List.append_assoc, List.cons_append, List.nil_append]
  rw [hwritten, lineFeeds_append, lineFeeds_append, habove, hfixed, Nat.zero_add]
  cases h : texts.module with
  | ok text =>
    rw [lineFeeds_flatMap_written htitles.2 (oneLined_moduleSections h), ReportTexts.said, h]
    rfl
  | error status =>
    rw [ReportTexts.said, h, ReportTexts.input, h]
    exact (congrArg lineFeeds (List.append_nil _)).trans (lineFeeds_statusSection status)

/-- A section line is one line unless it is the status line and the status is told in several. -/
theorem lf_mem_section_line {block : ReportSection} (hblock : block ∈ (build texts.input).sections)
    {line : Text} (hline : line ∈ block.lines) :
    '\n' ∈ line ↔ ∃ status, texts.module = .error status ∧ block = statusSection status ∧
      '\n' ∈ status.message := by
  constructor
  · intro hfeed
    rw [sections_build, List.mem_append] at hblock
    rcases hblock with hfixed | hmodule
    · exact absurd hfeed (oneLined_fixedSections block hfixed line hline)
    · cases h : texts.module with
      | ok text => exact absurd hfeed (oneLined_moduleSections h block hmodule line hline)
      | error status =>
        rw [ReportTexts.input, h] at hmodule
        obtain rfl : block = statusSection status := List.mem_singleton.mp hmodule
        rw [List.mem_singleton.mp hline, lf_mem_moduleLine (by decide)] at hfeed
        exact ⟨status, rfl, rfl, hfeed⟩
  · rintro ⟨status, -, rfl, hmessage⟩
    rwa [List.mem_singleton.mp hline, lf_mem_moduleLine (by decide)]

/-- **Lines of a report.** If the paths are free of line feeds, all lines of a report are, but for
the status line, which has those of the status. The text of the report has one line for each line
above the sections, one blank one, three for each section besides its lines, and one more for each
line feed in the status. The sections come in one order, with the status alone in the last one, or
with counts and snippets. -/
theorem lines_build (texts : ReportTexts) (hpaths : ∀ path ∈ texts.paths, '\n' ∉ path) :
    (∀ line ∈ (build texts.input).preamble, '\n' ∉ line) ∧
      (∀ block ∈ (build texts.input).sections, ∀ line ∈ block.lines,
        '\n' ∈ line ↔ ∃ status, texts.module = .error status ∧ block = statusSection status ∧
          '\n' ∈ status.message) ∧
      (Text.lines (build texts.input).text).length =
        (build texts.input).preamble.length + 1 +
          ((build texts.input).sections.map fun block => block.lines.length + 3).sum +
          texts.said.count '\n' ∧
      ((build texts.input).sections.map (·.title) = fixedTitles ++ match texts.module with
        | .ok _ => [moduleTitle, snippetTitle]
        | .error _ => [moduleTitle]) ∧
      ∀ status, texts.module = .error status → ∃ block,
        (build texts.input).sections.getLast? = some block ∧ block.title = moduleTitle ∧
          block.lines = [moduleLine "status".toList status.message] := by
  refine ⟨lf_not_mem_preamble hpaths,
    fun block hblock line hline => lf_mem_section_line hblock hline, ?_, titles_build texts, ?_⟩
  · rw [Report.text, length_lines_unlines, length_written]
    exact congrArg _ (lineFeeds_build texts hpaths)
  · intro status h
    refine ⟨statusSection status, ?_, rfl, rfl⟩
    rw [sections_build, ReportTexts.input, h]
    exact List.getLast?_concat

/-- A status of two lines makes the text one line longer; with a module text there are snippets in
its place, and every line is one. -/
theorem lines_build_small :
    let texts (module : Except ModuleTextStatus Text) : ReportTexts :=
      ⟨"d".toList, "p".toList, some "t".toList, .noon, 20, 12, [], [], module⟩
    let refused := texts (.error (.failed "bad magic\nat offset 0".toList))
    let given := texts (.ok "(func $f\n)\n".toList)
    (∀ path ∈ refused.paths, '\n' ∉ path) ∧ (∀ path ∈ given.paths, '\n' ∉ path) ∧
      (Text.lines (build refused.input).text).length =
        5 + 1 + ((build refused.input).sections.map fun block => block.lines.length + 3).sum + 1 ∧
      (build given.input).sections.map (·.title) = fixedTitles ++ [moduleTitle, snippetTitle] ∧
      ∀ block ∈ (build given.input).sections, block.OneLined := by
  intro texts refused given
  have hpaths : ∀ path ∈ ["d".toList, "p".toList, "t".toList], '\n' ∉ path := by decide
  obtain ⟨-, hlines, -, htitles, -⟩ := lines_build given hpaths
  refine ⟨hpaths, hpaths, (lines_build refused hpaths).2.2.1, htitles, ?_⟩
  intro block hblock line hline hfeed
  obtain ⟨status, hstatus, -⟩ := (hlines block hblock line hline).mp hfeed
  cases hstatus

/-- A converter that complains in two lines gives its report a status line that is two lines, and
so a text that is one line longer than its sections say. -/
theorem status_line_of_two_lines :
    let complaints := Text.toOctets "error: bad magic\nat offset 0\n".toList
    let tools : Toolset := .installed (Installation.small { complaints, status := .code 1 })
    let session : Session := ⟨.small [("p", [])], [], []⟩
    (∀ path ∈ ["d".toList, "p".toList, "t".toList], '\n' ∉ path) ∧
      ∃ report ∈ (perform (Run.generate .small tools .noon) session).1.toOption,
        (∃ block ∈ report.sections, ∃ line ∈ block.lines, '\n' ∈ line) ∧
          (Text.lines report.text).length ≠ report.preamble.length + 1 +
            (report.sections.map fun block => block.lines.length + 3).sum := by
  intro complaints tools session
  exact ⟨by decide, by decide +kernel⟩

end Report

end BinarySize
