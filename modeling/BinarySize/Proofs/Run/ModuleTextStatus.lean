import BinarySize.Proofs.Report.Titles
import BinarySize.Proofs.Run.Stages

/-!
# The reported status of the module text

The status is settled by one look at the path of the module text, and the text is read after
another look. With installed tools the two agree on files: what is called existing or generated
is summed up in the report (`reported_status`). They differ on a directory, which counts as an
existing module text and cannot be read as one (`directory_reported_existing`).
-/

namespace BinarySize

/-- Errors are told in several words. -/
theorem RunError.space_mem_message (e : RunError) : ' ' ∈ e.message := by
  cases e with
  | missingInput role path =>
    have h : ' ' ∈ "missing ".toList := by decide
    exact List.mem_append_left _ (List.mem_append_left _ (List.mem_append_left _ h))
  | toolNotFound tool =>
    have h : ' ' ∈ " not found in PATH".toList := by decide
    exact List.mem_append_right _ h
  | toolFailed tool status report =>
    have h : ' ' ∈ " failed (".toList := by decide
    exact List.mem_append_left _ (List.mem_append_left _ (List.mem_append_left _
      (List.mem_append_right _ h)))
  | invalidArgument reason =>
    have h : ' ' ∈ "Invalid argument: ".toList := by decide
    exact List.mem_append_left _ h
  | io cause =>
    have h : ' ' ∈ "IO error: ".toList := by decide
    exact List.mem_append_left _ h

namespace Run

def SumsUp (options : SizeReportOptions) (files : FileTree) (report : Report) : Prop :=
  ∃ text, options.moduleText = some text ∧ files.isFile text = true ∧
    let summary := ModuleSummary.ofText options.snippetLines (textAt files text)
    let functions := (Dump.functions (textAt files options.dump)).take options.limit
    Report.countsSection summary ∈ report.sections ∧
      Report.snippetSection summary functions ∈ report.sections

def DirectoryForText (options : SizeReportOptions) (files : FileTree) : Prop :=
  options.skipConversion = false ∧
    ∃ text, options.moduleText = some text ∧ files.isDirectory text = true

/-- Why there is no module text, and what the status line says about it. -/
inductive Absence (options : SizeReportOptions) (tools : Toolset) (dumped : Session) :
    Text → Prop
  | unwanted (h : options.skipConversion = true ∨ options.moduleText = none) :
      Absence options tools dumped "missing".toList
  | noModule (h : ∀ module, options.module = some module → dumped.files.occupied module = false) :
      Absence options tools dumped "missing wasm".toList
  | refused (module text : Path) (e : RunError) (after : Session)
      (h : options.conversion? dumped.files = some (module, text))
      (hcall : perform (tools.call .converter module text) dumped = (.error e, after)) :
      Absence options tools dumped e.message
  | directory (h : DirectoryForText options dumped.files) :
      Absence options tools dumped "existing".toList

variable {options : SizeReportOptions} {files : FileTree}

theorem standing_eq_some_iff {status : ModuleTextStatus} :
    options.standing files = some status ↔ options.skipConversion = false ∧
      ∃ text, options.moduleText = some text ∧
        (if files.occupied text then .existing else .missingModule) = status := by
  unfold SizeReportOptions.standing
  cases options.skipConversion with
  | true => simp
  | false => simp only [Bool.false_eq_true, ↓reduceIte, Option.map_eq_some_iff, true_and]

theorem not_occupied_of_standing (h : options.conversion? files = none)
    (hstanding : options.standing files = some .missingModule) :
    ∀ module, options.module = some module → files.occupied module = false := by
  obtain ⟨hskip, text, htext, hstatus⟩ := standing_eq_some_iff.mp hstanding
  intro module hmodule
  cases hfree : files.occupied text with
  | true =>
    rw [hfree] at hstatus
    cases hstatus
  | false =>
    cases hoccupied : files.occupied module with
    | false => rfl
    | true =>
      rw [conversion?_eq_some_iff.mpr ⟨hskip, htext, hfree, hmodule, hoccupied⟩] at h
      cases h

theorem sumsUp_reportOn (h : HasText options files) (status : Option ModuleTextStatus)
    (time : DateTime) : SumsUp options files (reportOn options status time files) := by
  obtain ⟨text, htext, hfile, hmodule⟩ := moduleTextOn_of_hasText h
  refine ⟨text, htext, hfile, Report.moduleSections_subset _ ?_, Report.moduleSections_subset _ ?_⟩
  · dsimp only
    rw [hmodule]
    exact List.mem_cons_self
  · dsimp only
    rw [hmodule]
    exact List.mem_cons_of_mem _ List.mem_cons_self

/-- A status is said exactly if no file stands where the module text is wanted. -/
theorem saysStatus_reportOn {status : Option ModuleTextStatus} {time : DateTime} {message : Text} :
    (reportOn options status time files).SaysStatus message ↔
      ¬ HasText options files ∧ (status.getD .missing).message = message := by
  rw [reportOn, Report.saysStatus_build]
  by_cases htext : HasText options files
  · obtain ⟨text, -, -, hmodule⟩ := moduleTextOn_of_hasText htext
    simp only [hmodule, reduceCtorEq, false_and, exists_false, htext, not_true_eq_false]
  · simp only [moduleTextOn_of_not_hasText htext, ModuleText.unavailable.injEq, exists_eq_left',
      htext, not_false_eq_true, true_and]

theorem isFile_or_isDirectory {path : Path} (h : files.occupied path = true) :
    files.isFile path = true ∨ files.isDirectory path = true := by
  obtain ⟨node, hnode⟩ := Option.isSome_iff_exists.mp h
  cases node with
  | file content => exact .inl (FileTree.isFile_iff.mpr ⟨content, hnode⟩)
  | directory => exact .inr (by rw [FileTree.isDirectory, hnode]; rfl)

theorem isFile_of_call {installation : Tool → Installation} {tool : Tool} {module output : Path}
    {session after : Session}
    (h : perform (Toolset.call (.installed installation) tool module output) session
      = (.ok (), after)) : after.files.isFile output = true := by
  rw [Toolset.perform_call] at h
  obtain ⟨called, files, events, heq, hcase⟩ := Toolset.installed_cases installation tool module
    output { session with calls := session.calls ++ [⟨tool, module, output⟩] }
  rw [heq] at h
  cases h
  rcases hcase with ⟨e, he, -⟩ | ⟨content, -, -, -, hfind⟩
  · cases he
  · exact FileTree.isFile_iff.mpr ⟨content, hfind⟩

theorem standing_eq_none_iff :
    options.standing files = none ↔ options.skipConversion = true ∨ options.moduleText = none := by
  unfold SizeReportOptions.standing
  cases options.skipConversion with
  | true => simp
  | false => simp only [Bool.false_eq_true, ↓reduceIte, Option.map_eq_none_iff, false_or]

variable {installation : Tool → Installation} {dumped prepared : Session}
  {status : Option ModuleTextStatus}

theorem status_of_directory (h : DirectoryForText options dumped.files)
    (hprepare : Preparing options (.installed installation) dumped (.ok status, prepared)) :
    status = some .existing ∧ prepared.files = dumped.files := by
  obtain ⟨hskip, text, htext, hdirectory⟩ := h
  have hoccupied : dumped.files.occupied text = true := by
    rw [FileTree.occupied, beq_iff_eq.mp hdirectory]
    rfl
  have hnone : options.conversion? dumped.files = none := by
    cases hconversion : options.conversion? dumped.files with
    | none => rfl
    | some call =>
      obtain ⟨module, other⟩ := call
      obtain ⟨-, hother, hfree, -, -⟩ := conversion?_eq_some_iff.mp hconversion
      cases htext.symm.trans hother
      rw [hoccupied] at hfree
      cases hfree
  have hstanding : options.standing dumped.files = some .existing :=
    standing_eq_some_iff.mpr ⟨hskip, text, htext, if_pos hoccupied⟩
  cases hprepare with
  | standing => exact ⟨hstanding, rfl⟩
  | generated module text after hsome =>
    rw [hnone] at hsome
    cases hsome
  | failed module text e after events hsome =>
    rw [hnone] at hsome
    cases hsome

/-- What is called generated is a file; what is called existing is one or a directory. -/
theorem text_of_preparing
    (h : Preparing options (.installed installation) dumped (.ok status, prepared)) :
    (status = some .generated → HasText options prepared.files) ∧
    (status = some .existing →
      HasText options prepared.files ∨ DirectoryForText options dumped.files) := by
  cases h with
  | standing hnone =>
    constructor
    · intro hstatus
      obtain ⟨-, text, -, heq⟩ := standing_eq_some_iff.mp hstatus
      split at heq
      · cases heq
      · cases heq
    · intro hstatus
      obtain ⟨hskip, text, htext, heq⟩ := standing_eq_some_iff.mp hstatus
      split at heq
      · next hoccupied =>
        rcases isFile_or_isDirectory hoccupied with hfile | hdirectory
        · exact .inl ⟨text, htext, hfile⟩
        · exact .inr ⟨hskip, text, htext, hdirectory⟩
      · cases heq
  | generated module text after hsome hcall =>
    obtain ⟨-, htext, -⟩ := conversion?_eq_some_iff.mp hsome
    exact ⟨fun _ => ⟨text, htext, isFile_of_call hcall⟩, fun hstatus => nomatch hstatus⟩
  | failed => exact ⟨nofun, nofun⟩

/-- Where no file is left for the module text, the status says why. -/
theorem absence_of_preparing
    (h : Preparing options (.installed installation) dumped (.ok status, prepared))
    (hnone : ¬ HasText options prepared.files) :
    Absence options (.installed installation) dumped (status.getD .missing).message := by
  cases h with
  | standing hconversion =>
    cases hstanding : options.standing dumped.files with
    | none => exact .unwanted (standing_eq_none_iff.mp hstanding)
    | some status =>
      obtain ⟨hskip, text, htext, heq⟩ := standing_eq_some_iff.mp hstanding
      split at heq
      · next hoccupied =>
        subst heq
        rcases isFile_or_isDirectory hoccupied with hfile | hdirectory
        · exact absurd ⟨text, htext, hfile⟩ hnone
        · exact .directory ⟨hskip, text, htext, hdirectory⟩
      · subst heq
        exact .noModule (not_occupied_of_standing hconversion hstanding)
  | generated module text after hsome hcall =>
    obtain ⟨-, htext, -⟩ := conversion?_eq_some_iff.mp hsome
    exact absurd ⟨text, htext, isFile_of_call hcall⟩ hnone
  | failed module text e after events hsome hcall => exact .refused module text e after hsome hcall

theorem directory_of_absence {tools : Toolset}
    (h : Absence options tools dumped "existing".toList) :
    DirectoryForText options dumped.files := by
  -- of the messages in words, only the error's is not known, but it has a blank
  generalize hmessage : "existing".toList = message at h
  cases h with
  | unwanted => exact absurd hmessage (by decide)
  | noModule => exact absurd hmessage (by decide)
  | refused module text e =>
    have hspace := e.space_mem_message
    rw [← hmessage] at hspace
    exact absurd hspace (by decide)
  | directory h => exact h

theorem not_absence_generated {tools : Toolset} :
    ¬ Absence options tools dumped "generated".toList := by
  generalize hmessage : "generated".toList = message
  intro h
  cases h with
  | unwanted => exact absurd hmessage (by decide)
  | noModule => exact absurd hmessage (by decide)
  | refused module text e =>
    have hspace := e.space_mem_message
    rw [← hmessage] at hspace
    exact absurd hspace (by decide)
  | directory => exact absurd hmessage (by decide)

/-- **Status of the module text.** A module text that an installed converter has generated is
summed up in the report, and one that is said to exist is, too, unless it is a directory. A status
that the report says instead is the reason why there is no file, and is never that one was
generated; that one exists is said exactly of a directory. -/
theorem reported_status (installation : Tool → Installation) {options : SizeReportOptions}
    {time : DateTime} {session after : Session} {report : Report}
    (h : perform (generate options (.installed installation) time) session = (.ok report, after)) :
    let tools : Toolset := .installed installation
    let dumped := (perform (refreshDump tools options.module options.dump options.skipDump)
      session).2
    let status := (perform (prepareModuleText options tools) dumped).1
    (status = .ok (some .generated) → SumsUp options after.files report) ∧
      (status = .ok (some .existing) →
        SumsUp options after.files report ∨ DirectoryForText options dumped.files) ∧
      (∀ message, report.SaysStatus message → Absence options tools dumped message) ∧
      ¬ report.SaysStatus "generated".toList ∧
      (report.SaysStatus "existing".toList ↔ DirectoryForText options dumped.files) := by
  intro tools dumped status
  have hmaking := making options time (Toolset.confined_installed installation) session
  rw [h] at hmaking
  cases hmaking with
  | made refreshed prepared said events hvalid hrefresh hdump hmap hprepare =>
    have hdumped : dumped = refreshed := congrArg Prod.snd hrefresh
    have hpreparing := preparing options tools dumped
    rw [hdumped, hprepare, ← hdumped] at hpreparing
    have hstatus : status = .ok said := by
      change (perform (prepareModuleText options tools) dumped).1 = _
      rw [hdumped, hprepare]
    obtain ⟨hgenerated, hexisting⟩ := text_of_preparing hpreparing
    have habsence : ∀ message, (reportOn options said time prepared.files).SaysStatus message →
        Absence options tools dumped message := by
      intro message hsays
      obtain ⟨hnone, rfl⟩ := saysStatus_reportOn.mp hsays
      exact absence_of_preparing hpreparing hnone
    rw [hstatus]
    refine ⟨fun hsaid => ?_, fun hsaid => ?_, habsence,
      fun hsays => not_absence_generated (habsence _ hsays),
      fun hsays => directory_of_absence (habsence _ hsays), fun hdirectory => ?_⟩
    · exact sumsUp_reportOn (hgenerated (Except.ok.inj hsaid)) said time
    · exact (hexisting (Except.ok.inj hsaid)).imp_left fun htext => sumsUp_reportOn htext said time
    · obtain ⟨rfl, hfiles⟩ := status_of_directory hdirectory hpreparing
      refine saysStatus_reportOn.mpr ⟨?_, rfl⟩
      rintro ⟨text, htext, hfile⟩
      obtain ⟨-, other, hother, hthere⟩ := hdirectory
      cases htext.symm.trans hother
      obtain ⟨content, hcontent⟩ := FileTree.isFile_iff.mp hfile
      rw [hfiles, beq_iff_eq.mp hthere] at hcontent
      cases hcontent

/-- A converter that writes nothing leaves an empty module text, which is summed up; for one that
gives up the report says so. -/
theorem reported_status_small :
    let generating : Toolset := .installed (Installation.small {})
    let failing : Toolset := .installed (Installation.small { status := .code 1 })
    let session : Session := ⟨.small [("p", [])], [], []⟩
    let generated := perform (generate .small generating .noon) session
    let failed := perform (generate .small failing .noon) session
    let dumped := (perform (refreshDump failing "m".toList "d".toList false) session).2
    let message := "wasm2wat failed (exit status: 1): wasm2wat failed".toList
    (∃ report, generated.1 = .ok report ∧ SumsUp .small generated.2.files report) ∧
      ∃ report, failed.1 = .ok report ∧ report.SaysStatus message ∧
        Absence .small failing dumped message := by
  intro generating failing session generated failed dumped message
  obtain ⟨report, hgenerated⟩ : ∃ report, generated.1 = .ok report :=
    exists_of_isOk (by decide +kernel)
  obtain ⟨other, hother, hsays⟩ : ∃ report ∈ failed.1.toOption, report.SaysStatus message := by
    decide +kernel
  have hfailed : failed.1 = .ok other := eq_ok_of_mem_toOption hother
  have hran : generated = (.ok report, generated.2) := by
    rw [← hgenerated]
  have hran' : failed = (.ok other, failed.2) := by
    rw [← hfailed]
  have hstatus : (perform (prepareModuleText .small generating) (perform (refreshDump generating
      "m".toList "d".toList false) session).2).1 = .ok (some .generated) := rfl
  exact ⟨⟨report, hgenerated, (reported_status _ hran).1 hstatus⟩,
    other, hfailed, hsays, (reported_status _ hran').2.2.1 message hsays⟩

/-- A directory is called an existing module text, and the report says so in place of counts and
snippets. -/
theorem directory_reported_existing :
    let options : SizeReportOptions :=
      { SizeReportOptions.small with module := none, skipDump := true }
    let session : Session :=
      ⟨⟨[(["d".toList], .file []), (["p".toList], .file []), (["t".toList], .directory)]⟩, [], []⟩
    let tools : Toolset := .installed (Installation.small {})
    (perform (prepareModuleText options tools) session).1 = .ok (some .existing) ∧
      ∃ report ∈ (perform (generate options tools .noon) session).1.toOption,
        ¬ report.HasSnippets ∧ report.SaysStatus "existing".toList := by
  intro options session tools
  exact ⟨rfl, by decide +kernel⟩

end Run
end BinarySize
