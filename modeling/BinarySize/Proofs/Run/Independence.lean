import BinarySize.Proofs.Files.Apart
import BinarySize.Proofs.Report.Titles
import BinarySize.Proofs.Run.Stages
import BinarySize.Proofs.Tools.Repeats

/-!
# Runs that differ in the module text

The module text has no say in the sizes. Two runs that see the same project, but for what stands at
the path of the module text, and that have different converters come to the same outcome: the same
failure, or reports that differ only in the sections about the module text
(`generate_independent`). The dumper is taken to do the same in both runs.
-/

namespace BinarySize

open FileTree

namespace SizeReportOptions

/-- The places at the path of the module text and below it. -/
def Hidden (options : SizeReportOptions) (place : Location) : Prop :=
  ∃ text, options.moduleText = some text ∧ text.place <:+ place

def inputs (options : SizeReportOptions) : List Path :=
  options.dump :: options.map :: options.module.toList

def Separate (options : SizeReportOptions) : Prop :=
  ∀ path ∈ options.inputs, ∀ text, options.moduleText = some text →
    path.place ≠ text.place ∧ ¬ path.Passes text.place

theorem Separate.keepsOut {options : SizeReportOptions} (h : options.Separate) {path : Path}
    (hpath : path ∈ options.inputs) : path.KeepsOut options.Hidden := by
  rintro place hplace ⟨text, htext, hbelow⟩
  obtain ⟨hne, hpassed⟩ := h path hpath text htext
  exact Path.keepsOut_below hne hpassed place hplace hbelow

theorem Separate.keepsOut_read {options : SizeReportOptions} (h : options.Separate) {path : Path}
    (hpath : path ∈ [options.dump, options.map]) : path.KeepsOut options.Hidden := by
  have hinput : path ∈ [options.dump, options.map] ++ options.module.toList :=
    List.mem_append_left _ hpath
  exact h.keepsOut hinput

end SizeReportOptions

namespace Run

/-- The dumpers of two tool sets do the same on the module of a run, whatever module text there is:
they answer the same, and leave trees that agree if they found trees that agree. -/
def SameDumper (options : SizeReportOptions) (tools other : Toolset) : Prop :=
  ∀ module, options.module = some module → ∀ session next : Session,
    session.files.isFile module = true → AlikeOutside options.Hidden session.files next.files →
      let dumped := perform (tools.run .dumper module options.dump) session
      let dumped' := perform (other.run .dumper module options.dump) next
      dumped.1 = dumped'.1 ∧ AlikeOutside options.Hidden dumped.2.files dumped'.2.files

/-- The converter changes nothing but what stands at the path of the module text or below it, and
may create directories on the way there. -/
def ConvertsInPlace (options : SizeReportOptions) (tools : Toolset) : Prop :=
  ∀ module text, options.module = some module → options.moduleText = some text →
    ∀ session : Session, ChangedInside options.Hidden text.Passes session.files
      (perform (tools.run .converter module text) session).2.files

/-- Two runs come to the same, but for what their reports say about the module text: they fail with
the same error, or their reports agree in all that is above the sections and in the first seven
sections, which are those that every report has. -/
def SameSizes (made made' : Except RunError Report) : Prop :=
  (∃ e, made = .error e ∧ made' = .error e) ∨
    ∃ report report', made = .ok report ∧ made' = .ok report' ∧
      report.preamble = report'.preamble ∧ report.sections.take 7 = report'.sections.take 7 ∧
      (report.sections.take 7).map (·.title) = Report.fixedTitles

variable {options : SizeReportOptions} {tools other : Toolset} {session next : Session}

/-! ## The stages -/

theorem refreshDump_alike (hseparate : options.Separate) (hdumper : SameDumper options tools other)
    (hfiles : AlikeOutside options.Hidden session.files next.files) :
    let dumped := perform (refreshDump tools options.module options.dump options.skipDump) session
    let dumped' := perform (refreshDump other options.module options.dump options.skipDump) next
    dumped.1 = dumped'.1 ∧ AlikeOutside options.Hidden dumped.2.files dumped'.2.files := by
  rw [perform_refreshDump, perform_refreshDump]
  cases options.skipDump with
  | true => exact ⟨rfl, hfiles⟩
  | false =>
    cases hmodule : options.module with
    | none => exact ⟨rfl, hfiles⟩
    | some module =>
      have hkeeps : module.KeepsOut options.Hidden :=
        hseparate.keepsOut (by simp [SizeReportOptions.inputs, hmodule])
      simp only [Bool.false_eq_true, ↓reduceIte]
      rw [← isFile_congr (hfiles.sameAlong hkeeps).find?]
      split
      · next hfile =>
        exact hdumper module hmodule { session with calls := _ } { next with calls := _ } hfile
          hfiles
      · exact ⟨rfl, hfiles⟩

/-- Seeing to the module text never fails, and leaves the files of the other inputs as they are. -/
theorem prepareModuleText_inPlace (htools : ConvertsInPlace options tools) (session : Session) :
    ∃ status prepared, perform (prepareModuleText options tools) session = (.ok status, prepared) ∧
      ∀ path, path.KeepsOut options.Hidden → session.files.isFile path = true →
        SameAlong path prepared.files session.files := by
  have hpreparing := preparing options tools session
  have hcalled : ∀ {module text answer after},
      options.conversion? session.files = some (module, text) →
      perform (tools.call .converter module text) session = (answer, after) →
      ∀ path, path.KeepsOut options.Hidden → session.files.isFile path = true →
        SameAlong path after.files session.files := by
    intro module text answer after hconversion hcall path hkeeps hfile
    obtain ⟨-, htext, -, hmodule, -⟩ := conversion?_eq_some_iff.mp hconversion
    obtain ⟨content, hfind⟩ := isFile_iff.mp hfile
    have hchanged := htools module text hmodule htext
      { session with calls := session.calls ++ [⟨.converter, module, text⟩] }
    rw [← Toolset.perform_call, hcall] at hchanged
    exact hchanged.sameAlong hkeeps hfind
  cases hprepare : perform (prepareModuleText options tools) session with
  | mk answer prepared =>
    rw [hprepare] at hpreparing
    cases hpreparing with
    | standing h => exact ⟨_, _, rfl, fun _ _ _ _ _ => rfl⟩
    | generated module text after h hcall => exact ⟨_, _, rfl, hcalled h hcall⟩
    | failed module text e after events h hcall =>
      exact ⟨_, _, rfl, fun path => hcalled h hcall path⟩

theorem reportOn_fixed {files files' : FileTree} (time : DateTime)
    (status status' : Option ModuleTextStatus)
    (hdump : textAt files options.dump = textAt files' options.dump)
    (hmap : textAt files options.map = textAt files' options.map) :
    let report := reportOn options status time files
    let report' := reportOn options status' time files'
    report.preamble = report'.preamble ∧ report.sections.take 7 = report'.sections.take 7 ∧
      (report.sections.take 7).map (·.title) = Report.fixedTitles := by
  have hfixed : ∀ input, (Report.build input).sections.take 7 = Report.fixedSections input := by
    intro input
    rw [Report.sections_build]
    exact List.take_left' rfl
  refine ⟨rfl, ?_, ?_⟩
  · simp only [reportOn, hfixed, Report.fixedSections, hdump, hmap]
  · simp only [reportOn, hfixed, Report.titles_fixedSections]

/-! ## The whole run -/

theorem textAt_congr {files files' : FileTree} {path : Path}
    (h : files.find? path = files'.find? path) : textAt files path = textAt files' path := by
  rw [textAt, textAt, content?_congr h]

/-- A run that has its inputs once the dump is made reports on them as they are then. -/
theorem generate_of_inputs (hseparate : options.Separate) (htools : ConvertsInPlace options tools)
    (time : DateTime) {dumped : Session} (hvalid : options.validate = .ok ())
    (hrefresh : perform (refreshDump tools options.module options.dump options.skipDump) session
      = (.ok (), dumped))
    (hinputs : ∀ path ∈ [options.dump, options.map], dumped.files.isFile path = true) :
    ∃ status files, (perform (generate options tools time) session).1
        = .ok (reportOn options status time files) ∧
      ∀ path ∈ [options.dump, options.map], textAt files path = textAt dumped.files path := by
  obtain ⟨status, prepared, hprepare, hkept⟩ := prepareModuleText_inPlace htools dumped
  have hfind : ∀ path ∈ [options.dump, options.map],
      prepared.files.find? path = dumped.files.find? path := fun path hpath =>
    (hkept path (hseparate.keepsOut_read hpath) (hinputs path hpath)).find?
  have hthere : ∀ path ∈ [options.dump, options.map],
      dumped.files.isFile path = true ∧ prepared.files.isFile path = true := fun path hpath =>
    ⟨hinputs path hpath, by rw [isFile_congr (hfind path hpath), hinputs path hpath]⟩
  obtain ⟨events, hmade⟩ := perform_generate_of_stages options time hvalid hrefresh hprepare
    (hthere _ (by simp)) (hthere _ (by simp))
  exact ⟨status, prepared.files, by rw [hmade], fun path hpath => textAt_congr (hfind path hpath)⟩

theorem sameSizes_of_dumped (hseparate : options.Separate) (htools : ConvertsInPlace options tools)
    (hother : ConvertsInPlace options other) (time : DateTime) {dumped dumped' : Session}
    (hvalid : options.validate = .ok ())
    (hrefresh : perform (refreshDump tools options.module options.dump options.skipDump) session
      = (.ok (), dumped))
    (hrefresh' : perform (refreshDump other options.module options.dump options.skipDump) next
      = (.ok (), dumped'))
    (hdumped : AlikeOutside options.Hidden dumped.files dumped'.files) :
    SameSizes (perform (generate options tools time) session).1
      (perform (generate options other time) next).1 := by
  have hmade := perform_generate options tools time session
  have hmade' := perform_generate options other time next
  simp only [hvalid, hrefresh, hrefresh'] at hmade hmade'
  have hfind : ∀ path ∈ [options.dump, options.map],
      dumped.files.find? path = dumped'.files.find? path := fun path hpath =>
    (hdumped.sameAlong (hseparate.keepsOut_read hpath)).find?
  have hdumpFile := isFile_congr (hfind options.dump (by simp))
  have hmapFile := isFile_congr (hfind options.map (by simp))
  -- both runs look for the same two files and find the same
  rw [hdumpFile, hmapFile] at hmade
  cases hdump : dumped'.files.isFile options.dump with
  | false =>
    rw [if_pos hdump] at hmade hmade'
    exact .inl ⟨_, by rw [hmade], by rw [hmade']⟩
  | true =>
    cases hmap : dumped'.files.isFile options.map with
    | false =>
      rw [hdump, if_neg Bool.true_eq_false.mp, if_pos hmap] at hmade hmade'
      exact .inl ⟨_, by rw [hmade], by rw [hmade']⟩
    | true =>
      obtain ⟨status, files, hreport, htext⟩ := generate_of_inputs hseparate htools time
        hvalid hrefresh (by simp [hdumpFile, hmapFile, hdump, hmap])
      obtain ⟨status', files', hreport', htext'⟩ := generate_of_inputs hseparate hother time
        hvalid hrefresh' (by simp [hdump, hmap])
      have hsame : ∀ path ∈ [options.dump, options.map],
          textAt files path = textAt files' path := by
        intro path hpath
        rw [htext path hpath, htext' path hpath, textAt_congr (hfind path hpath)]
      exact .inr ⟨_, _, hreport, hreport', reportOn_fixed time status status'
        (hsame _ (by simp)) (hsame _ (by simp))⟩

/-- **Independence.** Two runs with the same options, time and dumper, on trees that agree outside
the path of the module text, and with converters that write nowhere else, come to the same, but for
what their reports say about the module text. -/
theorem generate_independent (hseparate : options.Separate)
    (hdumper : SameDumper options tools other) (htools : ConvertsInPlace options tools)
    (hother : ConvertsInPlace options other) (time : DateTime)
    (hfiles : AlikeOutside options.Hidden session.files next.files) :
    SameSizes (perform (generate options tools time) session).1
      (perform (generate options other time) next).1 := by
  cases hvalid : options.validate with
  | error e =>
    refine .inl ⟨e, ?_, ?_⟩
    · rw [perform_generate, hvalid]
    · rw [perform_generate, hvalid]
  | ok _ =>
    obtain ⟨hanswer, hdumped⟩ := refreshDump_alike hseparate hdumper hfiles
    cases hrefresh : perform (refreshDump tools options.module options.dump options.skipDump)
        session with
    | mk answer dumped =>
      cases hrefresh' : perform (refreshDump other options.module options.dump options.skipDump)
          next with
      | mk answer' dumped' =>
        rw [hrefresh, hrefresh'] at hanswer hdumped
        obtain rfl : answer = answer' := hanswer
        cases answer with
        | error e =>
          refine .inl ⟨e, ?_, ?_⟩
          · rw [perform_generate, hvalid, hrefresh]
          · rw [perform_generate, hvalid, hrefresh']
        | ok _ =>
          exact sameSizes_of_dumped hseparate htools hother time hvalid hrefresh hrefresh' hdumped

/-! ## Tools -/

theorem convertsInPlace_of_confined (h : tools.Confined) : ConvertsInPlace options tools := by
  intro module text hmodule htext session place hplace
  exact (h.files .converter module text session).changedInside place fun hbelow =>
    hplace ⟨text, htext, hbelow⟩

/-- Scripts for the dumper that are chosen by the module do not see the module text. -/
theorem sameDumper_scriptedBy (hseparate : options.Separate)
    {script script' : Tool → Option Octets → Script} (h : script .dumper = script' .dumper) :
    SameDumper options (.scriptedBy script) (.scriptedBy script') := by
  intro module hmodule session next _ hfiles
  have hmoduleKeeps : module.KeepsOut options.Hidden :=
    hseparate.keepsOut (by simp [SizeReportOptions.inputs, hmodule])
  have hdumpKeeps : options.dump.KeepsOut options.Hidden := hseparate.keepsOut_read (by simp)
  have hcontent := content?_congr (hfiles.sameAlong hmoduleKeeps).find?
  rw [Toolset.perform_scriptedBy, Toolset.perform_scriptedBy, ← hcontent]
  cases hscript : script .dumper (session.files.content? module) with
  | writing content =>
    have hscript' := hscript
    rw [h] at hscript'
    simp only [Toolset.scripted, hscript, hscript', perform_onFiles]
    obtain ⟨hanswer, hleft⟩ := FileAction.write_alikeOutside hfiles hdumpKeeps content
    exact ⟨congrArg (Except.mapError RunError.io) hanswer, hleft⟩
  | _ =>
    have hscript' := hscript
    rw [h] at hscript'
    simp only [Toolset.scripted, hscript, hscript']
    exact ⟨rfl, hfiles⟩

/-- A converter that is not installed, and a module text that is there already: the first report
says that there is none, the second one sums it up, and the sizes are the same. -/
theorem generate_independent_small :
    let script (converted : Script) : Tool → Option Octets → Script
      | .dumper, _ => .writing (Text.toOctets "empty\n".toList)
      | .converter, _ => converted
    let tools : Toolset := .scriptedBy (script .absent)
    let other : Toolset := .scriptedBy (script .silent)
    let session : Session := ⟨.small [("p", [])], [], []⟩
    let next : Session :=
      ⟨session.files.put ["t".toList] (.file (Text.toOctets "(func $f)".toList)), [], []⟩
    let made := (perform (generate .small tools .noon) session).1
    let made' := (perform (generate .small other .noon) next).1
    SizeReportOptions.small.Separate ∧ SameDumper .small tools other ∧
      ConvertsInPlace .small tools ∧ ConvertsInPlace .small other ∧
      AlikeOutside SizeReportOptions.small.Hidden session.files next.files ∧
      (∃ report ∈ made.toOption, ¬ report.HasSnippets) ∧
      (∃ report ∈ made'.toOption, report.HasSnippets) ∧ SameSizes made made' := by
  intro script tools other session next made made'
  have hseparate : SizeReportOptions.small.Separate := by
    have hinputs : ∀ path ∈ SizeReportOptions.small.inputs,
        path.place ≠ Path.place "t".toList ∧ ¬ path.Passes (Path.place "t".toList) := by
      decide +kernel
    intro path hpath text htext
    cases htext
    exact hinputs path hpath
  have hdumper : SameDumper .small tools other := sameDumper_scriptedBy hseparate rfl
  have htools : ConvertsInPlace .small tools :=
    convertsInPlace_of_confined (Toolset.confined_scriptedBy _)
  have hother : ConvertsInPlace .small other :=
    convertsInPlace_of_confined (Toolset.confined_scriptedBy _)
  have hfiles : AlikeOutside SizeReportOptions.small.Hidden session.files next.files := by
    refine alikeOutside_put (by decide) ⟨"t".toList, rfl, ?_⟩ _
    rw [show Path.place "t".toList = ["t".toList] by decide +kernel]
  exact ⟨hseparate, hdumper, htools, hother, hfiles, by decide +kernel, by decide +kernel,
    generate_independent hseparate hdumper htools hother .noon hfiles⟩

end Run

end BinarySize
