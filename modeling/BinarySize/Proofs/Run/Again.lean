import BinarySize.Proofs.Report.Titles
import BinarySize.Proofs.Run.Stages
import BinarySize.Proofs.Tools.Repeats

/-!
# Runs behind a run

What a run leaves behind makes its report again: whether a later run has the dump and the module
text made once more or uses those that it finds, it comes to the same report, as long as the tools
depend on the content of their module alone (`generate_again`).
-/

namespace BinarySize

open FileTree

namespace Run

variable {options : SizeReportOptions} {tools : Toolset} {session dumped prepared next : Session}
  {status : Option ModuleTextStatus}

/-! ## The dump again -/

/-- Where a dump has been refreshed, refreshing it again changes nothing. -/
theorem refreshDump_again (hconfined : tools.Confined) (hdepends : tools.DependsOnModule)
    {module : Option Path} {dump : Path} {skip skip' : Bool}
    (hrefresh : perform (refreshDump tools module dump skip) session = (.ok (), dumped))
    (hskip : skip' = skip ∨ skip' = true)
    (hmodule : ∀ path, module = some path → session.files.isFile path = true →
      next.files.find? path = session.files.find? path)
    (hdump : SameAlong dump next.files dumped.files) :
    ∃ left, perform (refreshDump tools module dump skip') next = (.ok (), left) ∧
      Alike left.files next.files := by
  cases skip' with
  | true => exact ⟨_, rfl, fun _ => rfl⟩
  | false =>
    obtain rfl : false = skip := hskip.elim id nofun
    rw [perform_refreshDump] at hrefresh ⊢
    simp only [Bool.false_eq_true, ↓reduceIte] at hrefresh ⊢
    cases module with
    | none => cases hrefresh
    | some path =>
      simp only at hrefresh ⊢
      cases hfile : session.files.isFile path with
      | false =>
        rw [hfile] at hrefresh
        cases hrefresh
      | true =>
        have hfind := hmodule path rfl hfile
        rw [hfile, if_pos rfl] at hrefresh
        rw [isFile_congr hfind, hfile, if_pos rfl]
        exact hdepends.call_again hconfined hrefresh (content?_congr hfind) hdump

/-! ## The module text again -/

/-- A converter that has been called is not called again if it has left a file; otherwise it is
called again and changes nothing. -/
theorem conversion_again (hconfined : tools.Confined) (hdepends : tools.DependsOnModule)
    {module text : Path} {answer : Except RunError Unit}
    (hconversion : options.conversion? dumped.files = some (module, text))
    (hcall : perform (tools.call .converter module text) dumped = (answer, prepared))
    (hdistinct : module.place ≠ text.place) (hnext : Alike next.files prepared.files) :
    next.files.isFile text = true ∨
      options.conversion? next.files = some (module, text) ∧
        ∃ left, perform (tools.call .converter module text) next = (answer, left) ∧
          Alike left.files next.files := by
  rcases hdepends.file_of_call hcall with hsame | hfile
  · refine .inr ?_
    obtain ⟨hskip, htext, hfree, hmodule, hthere⟩ := conversion?_eq_some_iff.mp hconversion
    obtain ⟨node, hnode⟩ := Option.isSome_iff_exists.mp hthere
    have hwrites := (hconfined.of_call hcall).2
    have hfind : next.files.find? module = dumped.files.find? module :=
      (hnext.find? module).trans (hwrites.sameAlong hdistinct hnode).find?
    refine ⟨conversion?_eq_some_iff.mpr ⟨hskip, htext, ?_, hmodule, ?_⟩, ?_⟩
    · rw [← hfree]
      exact occupied_congr ((hnext.find? text).trans hsame)
    · rw [← hthere]
      exact occupied_congr hfind
    · exact hdepends.call_again hconfined hcall (content?_congr hfind) fun place _ => hnext place
  · refine .inl ?_
    rw [hnext.isFile]
    exact hfile

theorem conversion?_congr {files other : FileTree} (h : Alike files other) :
    options.conversion? files = options.conversion? other := by
  rw [SizeReportOptions.conversion?, SizeReportOptions.conversion?, h.occupied]

theorem standing_congr {files other : FileTree} (h : Alike files other) :
    options.standing files = options.standing other := by
  rw [SizeReportOptions.standing, SizeReportOptions.standing, h.occupied]

/-- Where a module text has been seen to, seeing to it again changes nothing, and says the same
unless there is a text by now. -/
theorem prepareModuleText_again (hconfined : tools.Confined) (hdepends : tools.DependsOnModule)
    (hprepare : Preparing options tools dumped (.ok status, prepared))
    (hdistinct : ∀ module text, options.module = some module → options.moduleText = some text →
      module.place ≠ text.place)
    (hnext : Alike next.files prepared.files) :
    ∃ status' left, perform (prepareModuleText options tools) next = (.ok status', left) ∧
      Alike left.files next.files ∧ (status' = status ∨ HasText options next.files) := by
  -- a text that is there by now keeps the converter from being called
  have hquiet : ∀ {text}, options.moduleText = some text → next.files.isFile text = true →
      options.conversion? next.files = none ∧ HasText options next.files := by
    intro text htext hfile
    refine ⟨?_, text, htext, hfile⟩
    cases hconversion : options.conversion? next.files with
    | none => rfl
    | some call =>
      obtain ⟨module, other⟩ := call
      obtain ⟨-, hother, hfree, -⟩ := conversion?_eq_some_iff.mp hconversion
      cases htext.symm.trans hother
      rw [occupied_of_isFile hfile] at hfree
      cases hfree
  rw [perform_prepareModuleText]
  cases hprepare with
  | standing hnone =>
    rw [conversion?_congr hnext, hnone]
    exact ⟨_, next, rfl, fun _ => rfl, .inl (standing_congr hnext)⟩
  | generated module text after hsome hcall | failed module text e after events hsome hcall =>
    obtain ⟨-, htext, -, hmodule, -⟩ := conversion?_eq_some_iff.mp hsome
    rcases conversion_again hconfined hdepends hsome hcall (hdistinct module text hmodule htext)
      hnext with hfile | ⟨hagain, left, hcall', hleft⟩
    · obtain ⟨hnone, hthere⟩ := hquiet htext hfile
      rw [hnone]
      exact ⟨_, next, rfl, fun _ => rfl, .inr hthere⟩
    · simp only [hagain, hcall']
      exact ⟨_, _, rfl, hleft, .inl rfl⟩

/-! ## The report again -/

theorem hasText_of_snippets {time : DateTime} {files : FileTree}
    (h : (reportOn options status time files).HasSnippets) : HasText options files := by
  obtain ⟨summary, hmodule⟩ := Report.hasSnippets_build.mp h
  by_cases htext : HasText options files
  · exact htext
  · cases (moduleTextOn_of_not_hasText htext status).symm.trans hmodule

theorem reportOn_congr {status' : Option ModuleTextStatus} {files other : FileTree}
    (hfiles : Alike other files) (hstatus : status' = status ∨ HasText options files)
    (time : DateTime) :
    reportOn options status' time other = reportOn options status time files := by
  have htext : textAt other = textAt files := by
    funext path
    rw [textAt, textAt, content?_congr (hfiles.find? path)]
  have hmodule : moduleTextOn options status' other = moduleTextOn options status files := by
    have hsame : moduleTextOn options status' other = moduleTextOn options status' files := by
      rw [moduleTextOn, moduleTextOn, htext, hfiles.isFile]
    rcases hstatus with rfl | hthere
    · exact hsame
    · obtain ⟨text, -, -, havailable⟩ := moduleTextOn_of_hasText hthere
      rw [hsame, havailable, havailable]
  rw [reportOn, reportOn, htext, hmodule]

/-- What the path of a file or directory passes is left alone, unless it is the module text. -/
theorem sameAlong_preparing (hconfined : tools.Confined) {answer : Except RunError _}
    (h : Preparing options tools dumped (answer, prepared)) {path : Path} {node : FileNode}
    (hdistinct : ∀ text, options.moduleText = some text → path.place ≠ text.place)
    (hnode : dumped.files.find? path = some node) :
    SameAlong path prepared.files dumped.files := by
  rcases onlyWrites_preparing options hconfined h with hfiles | ⟨module, text, hsome, hwrites⟩
  · rw [hfiles]
    exact fun _ _ => rfl
  · obtain ⟨-, htext, -⟩ := conversion?_eq_some_iff.mp hsome
    exact hwrites.sameAlong (hdistinct text htext) hnode

theorem HasText.congr {files other : FileTree} (h : HasText options files)
    (hother : Alike other files) : HasText options other := by
  obtain ⟨text, htext, hfile⟩ := h
  exact ⟨text, htext, by rw [hother.isFile, hfile]⟩

theorem distinct_of_places (h : options.places.Nodup) :
    (∀ module, options.module = some module → module.place ≠ options.dump.place) ∧
      (∀ text, options.moduleText = some text → options.dump.place ≠ text.place) ∧
      ∀ module text, options.module = some module → options.moduleText = some text →
        module.place ≠ text.place := by
  unfold SizeReportOptions.places at h
  obtain ⟨hdump, hrest⟩ := List.nodup_cons.mp h
  obtain ⟨-, hothers⟩ := List.nodup_cons.mp hrest
  refine ⟨?_, ?_, ?_⟩
  · intro module hmodule heq
    refine hdump (List.mem_cons_of_mem _ (List.mem_map.mpr ⟨module, ?_, heq⟩))
    simp [hmodule]
  · intro text htext heq
    refine hdump (List.mem_cons_of_mem _ (List.mem_map.mpr ⟨text, ?_, heq.symm⟩))
    simp [htext]
  · intro module text hmodule htext
    rw [hmodule, htext] at hothers
    simpa using hothers

theorem find?_module_of_run (hconfined : tools.Confined) (hplaces : options.places.Nodup)
    (hrefresh : perform (refreshDump tools options.module options.dump options.skipDump) session
      = (.ok (), dumped))
    (hpreparing : Preparing options tools dumped (.ok status, prepared)) {module : Path}
    (hmodule : options.module = some module) (hfile : session.files.isFile module = true) :
    prepared.files.find? module = session.files.find? module := by
  obtain ⟨hmoduleDump, -, hmoduleText⟩ := distinct_of_places hplaces
  obtain ⟨content, hfind⟩ := isFile_iff.mp hfile
  have hwrites := onlyWrites_refreshDump hconfined options.module options.dump options.skipDump
    session
  rw [hrefresh] at hwrites
  have hdumped := (hwrites.sameAlong (hmoduleDump module hmodule) hfind).find?
  have hprepared := (sameAlong_preparing hconfined hpreparing
    (fun text => hmoduleText module text hmodule) (hdumped.trans hfind)).find?
  exact hprepared.trans hdumped

/-- **Runs behind a run.** A run on the files that a run has left makes the same report, with the
dump made again or not; and with conversion turned off, too, if the report is about a module
text. -/
theorem generate_again (tools : Toolset) (hconfined : tools.Confined)
    (hdepends : tools.DependsOnModule) {options : SizeReportOptions}
    (hplaces : options.places.Nodup) {time : DateTime} {session after : Session} {report : Report}
    (h : perform (generate options tools time) session = (.ok report, after)) {next : Session}
    (hnext : next.files = after.files) {skipDump skipConversion : Bool}
    (hskipDump : skipDump = options.skipDump ∨ skipDump = true)
    (hskipConversion : skipConversion = options.skipConversion ∨
      skipConversion = true ∧ report.HasSnippets) :
    (perform (generate { options with skipDump, skipConversion } tools time) next).1
      = .ok report := by
  obtain ⟨-, hdumpText, hmoduleText⟩ := distinct_of_places hplaces
  have hmaking := making options time hconfined session
  rw [h] at hmaking
  cases hmaking with
  | made dumped prepared status events hvalid hrefresh hdump hmap hprepare =>
    have hpreparing := preparing options tools dumped
    rw [hprepare] at hpreparing
    -- the dump and the module are as the dumper has left and found them
    have hdumpAlong : SameAlong options.dump next.files dumped.files := by
      obtain ⟨content, hfind⟩ := isFile_iff.mp hdump
      rw [hnext]
      exact sameAlong_preparing hconfined hpreparing hdumpText hfind
    have hmodule : ∀ path, options.module = some path → session.files.isFile path = true →
        next.files.find? path = session.files.find? path := by
      intro path hpath hfile
      rw [hnext]
      exact find?_module_of_run hconfined hplaces hrefresh hpreparing hpath hfile
    -- so both stages change nothing, and the report is read from the same tree
    obtain ⟨left, hrefresh', hleft⟩ :=
      refreshDump_again hconfined hdepends hrefresh hskipDump hmodule hdumpAlong
    rw [hnext] at hleft
    obtain ⟨status', last, hprepare', hlast, hstatus⟩ : ∃ status' last,
        perform (prepareModuleText { options with skipDump, skipConversion } tools) left
          = (.ok status', last) ∧
        Alike last.files left.files ∧ (status' = status ∨ HasText options left.files) := by
      rcases hskipConversion with rfl | ⟨rfl, hsnippets⟩
      · have hagain := prepareModuleText_again hconfined hdepends hpreparing hmoduleText hleft
        exact hagain
      · exact ⟨none, left, rfl, fun _ => rfl, .inr ((hasText_of_snippets hsnippets).congr hleft)⟩
    have hlast' : Alike last.files prepared.files := fun place => (hlast place).trans (hleft place)
    have hthere : ∀ {path}, dumped.files.isFile path = true →
        left.files.isFile path = true ∧ last.files.isFile path = true := by
      intro path hpath
      have hprepared := isFile_preparing options hconfined hpreparing hpath
      exact ⟨by rw [hleft.isFile, hprepared], by rw [hlast'.isFile, hprepared]⟩
    obtain ⟨events', hmade⟩ := perform_generate_of_stages { options with skipDump, skipConversion }
      time hvalid hrefresh' hprepare' (hthere hdump) (hthere hmap)
    rw [hmade]
    refine congrArg Except.ok (reportOn_congr hlast' (hstatus.imp_right fun htext => ?_) time)
    exact htext.congr fun place => (hleft place).symm

/-- A run has both tools called, which copy the module. The next one calls neither, and makes the
same report. -/
theorem generate_again_small :
    let tools : Toolset := .scriptedBy fun _ module => .writing (module.getD [])
    let session : Session := ⟨.small [("p", [])], [], []⟩
    let made := perform (generate .small tools .noon) session
    let cached : SizeReportOptions := { SizeReportOptions.small with
      skipDump := true, skipConversion := true }
    tools.Confined ∧ tools.DependsOnModule ∧ SizeReportOptions.small.places.Nodup ∧
      ∃ report, made.1 = .ok report ∧ report.HasSnippets ∧
        (perform (generate cached tools .noon) made.2).1 = .ok report := by
  intro tools session made cached
  have hconfined : tools.Confined := Toolset.confined_scriptedBy _
  have hdepends : tools.DependsOnModule := Toolset.dependsOnModule_scriptedBy _
  have hplaces : SizeReportOptions.small.places.Nodup := by decide +kernel
  obtain ⟨report, hreport, hsnippets⟩ : ∃ report ∈ made.1.toOption, report.HasSnippets := by
    decide +kernel
  have hok : made.1 = .ok report := eq_ok_of_mem_toOption hreport
  have hmade : made = (.ok report, made.2) := by
    rw [← hok]
  exact ⟨hconfined, hdepends, hplaces, report, hok, hsnippets,
    generate_again tools hconfined hdepends hplaces hmade rfl (.inr rfl) (.inr ⟨rfl, hsnippets⟩)⟩

end Run

end BinarySize
