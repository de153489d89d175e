import BinarySize.Proofs.Run.Stages

/-!
# Outputs of whole runs

A run with installed tools has at most three outputs: the dump, the module text and the report.
Whatever the tools do and wherever the run ends, every regular file is what it was or is a
complete output of this run at its own path (`outputs_only`). The report is there exactly if the
run returns it.
-/

namespace BinarySize

open FileTree

namespace Run

variable (installation : Tool → Installation)

/-- The dumper has been called on a tree and has made this dump. -/
def DumpMade (module : Option Path) (dump : Path) (skip : Bool) (files : FileTree)
    (content : Octets) : Prop :=
  skip = false ∧ ∃ path, module = some path ∧
    Toolset.Makes installation .dumper path dump files content

/-- The converter has been called on a tree and has made this module text, where nothing was. -/
def TextMade (options : SizeReportOptions) (files : FileTree) (text : Path) (content : Octets) :
    Prop :=
  options.skipConversion = false ∧ options.moduleText = some text ∧
    files.occupied text = false ∧ ∃ path, options.module = some path ∧
    Toolset.Makes installation .converter path text files content

/-- Where the file at a place comes from after a run that makes a size report. -/
inductive SizeReportOrigin (options : SizeReportOptions) (session dumped : Session)
    (answer : Except RunError Report) (place : Location) : Option Octets → Prop
  | kept : SizeReportOrigin options session dumped answer place (session.files.fileAt place)
  | dump (content : Octets) (h : place = options.dump.place)
      (hmade : DumpMade installation options.module options.dump options.skipDump session.files
        content) :
      SizeReportOrigin options session dumped answer place (some content)
  | moduleText (text : Path) (content : Octets) (h : place = text.place)
      (hfree : session.files.occupied text = false)
      (hmade : TextMade installation options dumped.files text content) :
      SizeReportOrigin options session dumped answer place (some content)
  | report (report : Report) (h : place = options.out.place) (hreturned : answer = .ok report) :
      SizeReportOrigin options session dumped answer place (some (Text.toOctets report.text))

/-- Where the file at a place comes from after a run that reports on a dump. -/
inductive DumpReportOrigin (options : DumpReportOptions) (session : Session)
    (answer : Except RunError (List SizedFunction)) (place : Location) : Option Octets → Prop
  | kept : DumpReportOrigin options session answer place (session.files.fileAt place)
  | dump (content : Octets) (h : place = options.dump.place)
      (hmade : DumpMade installation (some options.module) options.dump options.skipDump
        session.files content) :
      DumpReportOrigin options session answer place (some content)
  | table (functions : List SizedFunction) (h : place = options.report.place)
      (hreturned : answer = .ok functions) :
      DumpReportOrigin options session answer place
        (some (Text.toOctets (Dump.table options.dump functions)))

/-! ## One stage at a time -/

variable {installation}

theorem fileAt_call {tool : Tool} {module output : Path} {session after : Session}
    {answer : Except RunError Unit}
    (h : perform (Toolset.call (.installed installation) tool module output) session
      = (answer, after)) (place : Location) :
    after.files.fileAt place = session.files.fileAt place ∨
      place = output.place ∧ ∃ content, after.files.fileAt place = some content ∧
        Toolset.Makes installation tool module output session.files content := by
  rw [Toolset.perform_call] at h
  obtain ⟨called, files, events, heq, hcase⟩ := Toolset.installed_cases installation tool module
    output { session with calls := session.calls ++ [⟨tool, module, output⟩] }
  rw [heq] at h
  cases h
  rcases hcase with ⟨e, -, hgrown⟩ | ⟨content, -, hmakes, hfilled, -⟩
  · exact .inl (hgrown.fileAt place)
  · by_cases hplace : place = output.place
    · exact .inr ⟨hplace, content, (hfilled.fileAt place).trans (if_pos hplace), hmakes⟩
    · exact .inl ((hfilled.fileAt place).trans (if_neg hplace))

theorem fileAt_refreshDump {module : Option Path} {dump : Path} {skip : Bool}
    {session after : Session} {answer : Except RunError Unit}
    (h : perform (refreshDump (.installed installation) module dump skip) session
      = (answer, after)) (place : Location) :
    after.files.fileAt place = session.files.fileAt place ∨
      place = dump.place ∧ ∃ content, after.files.fileAt place = some content ∧
        DumpMade installation module dump skip session.files content := by
  rw [perform_refreshDump] at h
  cases skip with
  | true =>
    cases h
    exact .inl rfl
  | false =>
    cases module with
    | none =>
      cases h
      exact .inl rfl
    | some path =>
      simp only [Bool.false_eq_true, ↓reduceIte] at h
      split at h
      · rcases fileAt_call h place with hkept | ⟨hplace, content, hfile, hmakes⟩
        · exact .inl hkept
        · exact .inr ⟨hplace, content, hfile, rfl, path, rfl, hmakes⟩
      · cases h
        exact .inl rfl

theorem fileAt_preparing {options : SizeReportOptions} {session after : Session}
    {answer : Except RunError (Option ModuleTextStatus)}
    (h : Preparing options (.installed installation) session (answer, after)) (place : Location) :
    after.files.fileAt place = session.files.fileAt place ∨ ∃ text, place = text.place ∧
      ∃ content, after.files.fileAt place = some content ∧
        TextMade installation options session.files text content := by
  cases h with
  | standing => exact .inl rfl
  | generated module text after h hcall | failed module text e after events h hcall =>
    rcases fileAt_call hcall place with hkept | ⟨hplace, content, hfile, hmakes⟩
    · exact .inl hkept
    · obtain ⟨hskip, htext, hfree, hmodule, -⟩ := conversion?_eq_some_iff.mp h
      exact .inr ⟨text, hplace, content, hfile, hskip, htext, hfree, module, hmodule, hmakes⟩

theorem perform_writeText (path : Path) (text : Text) (session : Session) :
    ∃ answer files, perform (writeText path text) session = (answer, { session with files }) ∧
      ((∃ e, answer = .error e ∧ ∀ place, files.fileAt place = session.files.fileAt place) ∨
        answer = .ok () ∧ files.content? path = some (Text.toOctets text) ∧
          ∀ place, files.fileAt place =
            if place = path.place then some (Text.toOctets text)
            else session.files.fileAt place) := by
  simp only [writeText, perform_onFiles]
  rcases FileAction.writeBelow_cases path (Text.toOctets text) session.files with
    ⟨e, files, heq, hgrown⟩ | ⟨files, heq, hfilled, hfind⟩
  · rw [heq]
    exact ⟨_, files, rfl, .inl ⟨.io e, rfl, hgrown.fileAt⟩⟩
  · rw [heq]
    exact ⟨_, files, rfl, .inr ⟨rfl, content?_eq_some_iff.mpr hfind, hfilled.fileAt⟩⟩

theorem origin_generate {options : SizeReportOptions} {time : DateTime} {session : Session}
    {answer : Except RunError Report} {after : Session}
    (h : perform (generate options (.installed installation) time) session = (answer, after))
    (place : Location) :
    after.files.fileAt place = session.files.fileAt place ∨
      (place = options.dump.place ∧ ∃ content, after.files.fileAt place = some content ∧
        DumpMade installation options.module options.dump options.skipDump session.files content) ∨
      ∃ text, place = text.place ∧ session.files.occupied text = false ∧
        ∃ content, after.files.fileAt place = some content ∧
        TextMade installation options (perform (refreshDump (.installed installation)
          options.module options.dump options.skipDump) session).2.files text content := by
  have hconfined := Toolset.confined_installed installation
  have hmaking := making options time hconfined session
  rw [h] at hmaking
  cases hmaking with
  | invalid => exact .inl rfl
  | noRefresh e dumped hvalid hrefresh
  | noDump dumped hvalid hrefresh
  | noMap dumped hvalid hrefresh =>
    rcases fileAt_refreshDump hrefresh place with hkept | hdumped
    · exact .inl hkept
    · exact .inr (.inl hdumped)
  | made dumped prepared status events hvalid hrefresh hdump hmap hprepare =>
    have hpreparing := preparing options (.installed installation) dumped
    rw [hprepare] at hpreparing
    rcases fileAt_preparing hpreparing place with hkept | ⟨text, hplace, content, hfile, hmade⟩
    · rcases fileAt_refreshDump hrefresh place with hkept' | ⟨hplace, content, hfile, hmade⟩
      · exact .inl (hkept.trans hkept')
      · exact .inr (.inl ⟨hplace, content, hkept.trans hfile, hmade⟩)
    · refine .inr (.inr ⟨text, hplace, ?_, content, hfile, ?_⟩)
      · -- nothing that was there before the dump is gone behind it
        have hwrites := onlyWrites_refreshDump hconfined options.module options.dump
          options.skipDump session
        rw [hrefresh] at hwrites
        cases hfree : session.files.occupied text with
        | false => rfl
        | true =>
          have hthere := hwrites.occupied hfree
          rw [hmade.2.2.1] at hthere
          cases hthere
      · rw [hrefresh]
        exact hmade

theorem origin_sizeReport {options : SizeReportOptions} {time : DateTime} {session : Session}
    {answer : Except RunError Report} {after : Session}
    (h : perform (sizeReport options (.installed installation) time) session = (answer, after)) :
    (∀ place, SizeReportOrigin installation options session (perform (refreshDump
        (.installed installation) options.module options.dump options.skipDump) session).2 answer
      place (after.files.fileAt place)) ∧
    ∀ report, answer = .ok report →
      after.files.content? options.out = some (Text.toOctets report.text) := by
  simp only [sizeReport, perform_bind] at h
  cases hgenerate : perform (generate options (.installed installation) time) session with
  | mk made left =>
    rw [hgenerate] at h
    have horigin : ∀ place {answer : Except RunError Report}, SizeReportOrigin installation options
        session (perform (refreshDump (.installed installation) options.module options.dump
          options.skipDump) session).2 answer place (left.files.fileAt place) := by
      intro place answer
      rcases origin_generate hgenerate place with
        hkept | ⟨hplace, content, hfile, hmade⟩ | ⟨text, hplace, hfree, content, hfile, hmade⟩
      · rw [hkept]
        exact .kept
      · rw [hfile]
        exact .dump content hplace hmade
      · rw [hfile]
        exact .moduleText text content hplace hfree hmade
    cases made with
    | error e =>
      cases h
      exact ⟨fun place => horigin place, fun _ hreport => by cases hreport⟩
    | ok report =>
      obtain ⟨written, files, hwrite, hcase⟩ := perform_writeText options.out report.text left
      simp only [hwrite] at h
      rcases hcase with ⟨e, rfl, hsame⟩ | ⟨rfl, hout, hfiles⟩
      · cases h
        refine ⟨fun place => ?_, fun _ hreport => by cases hreport⟩
        rw [hsame place]
        exact horigin place
      · simp only [perform_log, perform_pure] at h
        cases h
        refine ⟨fun place => ?_, fun other hreport => ?_⟩
        · rw [hfiles place]
          split
          · next hplace => exact .report report hplace rfl
          · exact horigin place
        · cases hreport
          exact hout

theorem origin_dumpReport {options : DumpReportOptions} {session : Session}
    {answer : Except RunError (List SizedFunction)} {after : Session}
    (h : perform (dumpReport options (.installed installation)) session = (answer, after)) :
    (∀ place, DumpReportOrigin installation options session answer place
      (after.files.fileAt place)) ∧
    ∀ functions, answer = .ok functions → after.files.content? options.report =
      some (Text.toOctets (Dump.table options.dump functions)) := by
  simp only [dumpReport, perform_bind] at h
  cases hrefresh : perform (refreshDump (.installed installation) (some options.module)
      options.dump options.skipDump) session with
  | mk refreshed left =>
    rw [hrefresh] at h
    have horigin : ∀ place {answer : Except RunError (List SizedFunction)}, DumpReportOrigin
        installation options session answer place (left.files.fileAt place) := by
      intro place answer
      rcases fileAt_refreshDump hrefresh place with hkept | ⟨hplace, content, hfile, hmade⟩
      · rw [hkept]
        exact .kept
      · rw [hfile]
        exact .dump content hplace hmade
    cases refreshed with
    | error e =>
      cases h
      exact ⟨fun place => horigin place, fun _ hfunctions => by cases hfunctions⟩
    | ok _ =>
      cases hdump : left.files.isFile options.dump with
      | false =>
        simp only [loadFunctions, perform_bind, perform_requireFile, hdump, Bool.false_eq_true,
          ↓reduceIte] at h
        cases h
        exact ⟨fun place => horigin place, fun _ hfunctions => by cases hfunctions⟩
      | true =>
        obtain ⟨events, hload⟩ := perform_loadFunctions left hdump
        generalize Dump.functions (textAt left.files options.dump) = functions at hload
        obtain ⟨written, files, hwrite, hcase⟩ := perform_writeText options.report
          (Dump.table options.dump functions) { left with events }
        simp only [hload, hwrite] at h
        rcases hcase with ⟨e, rfl, hsame⟩ | ⟨rfl, hout, hfiles⟩
        · cases h
          refine ⟨fun place => ?_, fun _ hfunctions => by cases hfunctions⟩
          rw [hsame place]
          exact horigin place
        · simp only [perform_log, perform_pure] at h
          cases h
          refine ⟨fun place => ?_, fun other hfunctions => ?_⟩
          · rw [hfiles place]
            split
            · next hplace => exact .table functions hplace rfl
            · exact horigin place
          · cases hfunctions
            exact hout

/-- **Outputs.** After a run with installed tools every regular file is what it was, or it is a
complete output at its own path: a dump that a successful dumper has made for this run, a module
text that a successful converter has made where nothing was, or the report that the run returns.
A run that returns a report has written it, and one that fails has left the report alone. -/
theorem outputs_only (installation : Tool → Installation) (session : Session) :
    (∀ options time answer after,
      perform (sizeReport options (.installed installation) time) session = (answer, after) →
      (∀ place, SizeReportOrigin installation options session (perform (refreshDump
          (.installed installation) options.module options.dump options.skipDump) session).2 answer
        place (after.files.fileAt place)) ∧
      (∀ report, answer = .ok report →
        after.files.content? options.out = some (Text.toOctets report.text)) ∧
      ∀ e, answer = .error e → (options.out.place :: options.places).Nodup →
        after.files.fileAt options.out.place = session.files.fileAt options.out.place) ∧
    ∀ options answer after,
      perform (dumpReport options (.installed installation)) session = (answer, after) →
      (∀ place, DumpReportOrigin installation options session answer place
        (after.files.fileAt place)) ∧
      (∀ functions, answer = .ok functions → after.files.content? options.report =
        some (Text.toOctets (Dump.table options.dump functions))) ∧
      ∀ e, answer = .error e →
        [options.report.place, options.dump.place, options.module.place].Nodup →
        after.files.fileAt options.report.place = session.files.fileAt options.report.place := by
  constructor
  · intro options time answer after h
    obtain ⟨horigin, hreport⟩ := origin_sizeReport h
    refine ⟨horigin, hreport, ?_⟩
    rintro e rfl hdistinct
    have hout : options.out.place ∉ options.places := (List.nodup_cons.mp hdistinct).1
    have hplace := horigin options.out.place
    generalize after.files.fileAt options.out.place = file at hplace ⊢
    cases hplace with
    | kept => rfl
    | dump content hsame => exact absurd (hsame ▸ List.mem_cons_self) hout
    | moduleText text content hsame hfree hmade =>
      refine absurd ?_ hout
      rw [hsame, SizeReportOptions.places, hmade.2.1]
      simp
    | report report hsame hreturned => cases hreturned
  · intro options answer after h
    obtain ⟨horigin, htable⟩ := origin_dumpReport h
    refine ⟨horigin, htable, ?_⟩
    rintro e rfl hdistinct
    have hout : options.report.place ∉ [options.dump.place, options.module.place] :=
      (List.nodup_cons.mp hdistinct).1
    have hplace := horigin options.report.place
    generalize after.files.fileAt options.report.place = file at hplace ⊢
    cases hplace with
    | kept => rfl
    | dump content hsame => exact absurd (hsame ▸ List.mem_cons_self) hout
    | table functions hsame hreturned => cases hreturned

/-- Without a map a run fails behind the dump and leaves the old report; with one it replaces
it. The table of the dump is written, and stays where there is no module. -/
theorem outputs_only_small :
    let tools : Toolset := .installed (Installation.small { status := .code 1 })
    let unmapped : Session := ⟨.small [("o", [65])], [], []⟩
    let mapped : Session := ⟨.small [("o", [65]), ("p", [])], [], []⟩
    let table : DumpReportOptions := ⟨"m".toList, "d".toList, "o".toList, false⟩
    let elsewhere : DumpReportOptions := ⟨"n".toList, "d".toList, "o".toList, false⟩
    let failed := perform (sizeReport .small tools .noon) unmapped
    let made := perform (sizeReport .small tools .noon) mapped
    let tabled := perform (dumpReport table tools) unmapped
    let refused := perform (dumpReport elsewhere tools) unmapped
    (failed.1 = .error (.missingInput "map".toList "p".toList) ∧
      failed.2.files.fileAt ["d".toList] = some (Text.toOctets "empty\n".toList) ∧
      failed.2.files.fileAt ["o".toList] = some [65]) ∧
    (∃ report, made.1 = .ok report ∧
      made.2.files.content? "o".toList = some (Text.toOctets report.text)) ∧
    (∃ functions, tabled.1 = .ok functions ∧ tabled.2.files.content? "o".toList =
      some (Text.toOctets (Dump.table "d".toList functions))) ∧
    refused.1 = .error (.missingInput "wasm".toList "n".toList) ∧
      refused.2.files.fileAt ["o".toList] = some [65] := by
  intro tools unmapped mapped table elsewhere failed made tabled refused
  have hunmapped := outputs_only (Installation.small { status := .code 1 }) unmapped
  have hmapped := outputs_only (Installation.small { status := .code 1 }) mapped
  have hfailed : failed.1 = .error (.missingInput "map".toList "p".toList) := rfl
  have hrefused : refused.1 = .error (.missingInput "wasm".toList "n".toList) := rfl
  obtain ⟨report, hmade⟩ : ∃ report, made.1 = .ok report := exists_of_isOk (by decide +kernel)
  obtain ⟨functions, htabled⟩ : ∃ functions, tabled.1 = .ok functions :=
    exists_of_isOk (by decide +kernel)
  have hkept := (hunmapped.1 .small .noon failed.1 failed.2 (Prod.eta _).symm).2.2 _ hfailed
    (by decide +kernel)
  have hwritten := (hmapped.1 .small .noon made.1 made.2 (Prod.eta _).symm).2.1 report hmade
  have hlisted := (hunmapped.2 table tabled.1 tabled.2 (Prod.eta _).symm).2.1 _ htabled
  have hleft := (hunmapped.2 elsewhere refused.1 refused.2 (Prod.eta _).symm).2.2 _ hrefused
    (by decide +kernel)
  exact ⟨⟨hfailed, by decide +kernel, hkept⟩, ⟨report, hmade, hwritten⟩,
    ⟨functions, htabled, hlisted⟩, hrefused, hleft⟩

end Run

end BinarySize
