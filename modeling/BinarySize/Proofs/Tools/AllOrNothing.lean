import BinarySize.Proofs.Files.Staging
import BinarySize.Proofs.Tools.Calls

/-!
# Calls that do all or nothing

A call of an installed tool does all that is asked of it or leaves every file as it was. What a
success takes (`Succeeds`) is told of the installation and of the files before the call. What a
success leaves, and what a failure leaves, is told of every place (`installed_allOrNothing`).
-/

namespace BinarySize

open FileTree

namespace Toolset

/-- The arguments with which a tool is started for an output. -/
def argumentsFor (tool : Tool) (module output : Path) (before : FileTree) : List Text :=
  tool.arguments module (output.directory.join ((before.stagedPlace output).headD []))

/-- A program is installed as a tool, and this is what it does when it is started for an output,
with an empty file for that beside the place of the output. -/
def Launches (installation : Tool → Installation) (tool : Tool) (module output : Path)
    (before : FileTree) (run : ProgramRun) : Prop :=
  ∃ behaviour, installation tool = .program behaviour ∧
    Installation.argumentRefusal? (argumentsFor tool module output before) = none ∧
    behaviour (argumentsFor tool module output before) (before.withStaged output) = run

/-- All that a successful call takes. -/
structure Succeeds (installation : Tool → Installation) (tool : Tool) (module output : Path)
    (before : FileTree) (run : ProgramRun) : Prop where
  launched : Launches installation tool module output before run
  status : run.status = .code 0
  stageable : Stageable output before
  replaceable : Replaceable output before

variable {installation : Tool → Installation} {tool : Tool} {module output : Path}
  {session : Session}

theorem Launches.unique {before : FileTree} {run other : ProgramRun}
    (h : Launches installation tool module output before run)
    (h' : Launches installation tool module output before other) : run = other := by
  obtain ⟨behaviour, hprogram, -, rfl⟩ := h
  obtain ⟨behaviour', hprogram', -, rfl⟩ := h'
  rw [hprogram] at hprogram'
  cases hprogram'
  rfl

theorem start_launched_iff {before : FileTree} {content : Octets} :
    (installation tool).start tool (argumentsFor tool module output before)
        (before.withStaged output) = .ok content ↔
      ∃ run, Launches installation tool module output before run ∧ run.status = .code 0 ∧
        tool.output run = content := by
  rw [start_eq_ok_iff]
  constructor
  · rintro ⟨behaviour, hprogram, haccepted, hstatus, houtput⟩
    exact ⟨_, ⟨behaviour, hprogram, haccepted, rfl⟩, hstatus, houtput⟩
  · rintro ⟨run, ⟨behaviour, hprogram, haccepted, rfl⟩, hstatus, houtput⟩
    exact ⟨behaviour, hprogram, haccepted, hstatus, houtput⟩

/-! ## Steps of a call -/

theorem perform_stageBeside (output : Path) (session : Session) :
    (perform (stageBeside output) session = (.ok (session.files.stagedPlace output),
        { session with files := session.files.withStaged output }) ∧
      Stageable output session.files ∧
      Made (session.files.withDirectory output) output.directory.names) ∨
    ∃ e files, perform (stageBeside output) session = (.error (.io e), { session with files }) ∧
      ¬ Stageable output session.files := by
  simp only [stageBeside, Run.perform_onFiles, perform_bind]
  rcases FileAction.createAll_directory_cases output session.files with
    ⟨hcreate, hstageable, hmade⟩ | ⟨e, hcreate, hnot⟩
  · rw [hcreate]
    simp only [FileAction.stage_of_made hstageable.accepted hmade]
    exact .inl ⟨rfl, hstageable, hmade⟩
  · rw [hcreate]
    exact .inr ⟨e, _, rfl, hnot⟩

theorem produce_eq_ok_iff {program : Installation} {staged : Location} :
    (perform (produce program tool module output staged) session).1 = .ok () ↔
      ∃ content, program.start tool
          (tool.arguments module (output.directory.join (staged.headD []))) session.files
            = .ok content ∧
        (perform (FileAction.moveTo staged content output) session.files).1 = .ok () := by
  simp only [produce, perform_bind, Run.perform_files]
  cases program.start tool (tool.arguments module (output.directory.join (staged.headD [])))
      session.files with
  | error e => simp [perform_throw]
  | ok content =>
    simp only [Run.perform_onFiles, Except.ok.injEq, exists_eq_left']
    cases (perform (FileAction.moveTo staged content output) session.files).1 <;>
      simp [Except.mapError]

/-- A tool that is there fails for other causes than that it is not. -/
theorem produce_ne_toolNotFound {program : Installation} (hfound : program ≠ .absent)
    {staged : Location} (name : Text) :
    (perform (produce program tool module output staged) session).1 ≠
      .error (.toolNotFound name) := by
  have hstart : ∀ arguments files,
      program.start tool arguments files ≠ .error (.toolNotFound name) := by
    intro arguments files h
    unfold Installation.start at h
    split at h
    · exact hfound rfl
    · cases h
    · cases h
    · simp only [Tool.failure] at h
      split at h
      · cases h
      · cases h
  simp only [produce, perform_bind, Run.perform_files]
  cases h : program.start tool (tool.arguments module (output.directory.join (staged.headD [])))
      session.files with
  | error e =>
    simp only [perform_throw]
    rintro ⟨⟩
    exact hstart _ _ h
  | ok content =>
    simp only [Run.perform_onFiles]
    cases (perform (FileAction.moveTo staged content output) session.files).1 <;>
      simp [Except.mapError]

/-- A tool that is there either fails to stage a file, or gives the answer of producing its
output; a success leaves what that has left. -/
theorem installed_found (hfound : installation tool ≠ .absent) (module output : Path)
    (session : Session) :
    (∃ e after, perform ((installed installation).run tool module output) session =
        (.error (.io e), after) ∧ ¬ Stageable output session.files) ∨
      ∃ events answer after left,
        perform ((installed installation).run tool module output) session = (answer, after) ∧
        perform (produce (installation tool) tool module output (session.files.stagedPlace output))
          { session with files := session.files.withStaged output, events } = (answer, left) ∧
        (answer = .ok () → after = left) ∧ Stageable output session.files ∧
        Made (session.files.withDirectory output) output.directory.names := by
  have hisFound : (installation tool).isFound = true := by
    unfold Installation.isFound
    split
    · next habsent => exact absurd habsent hfound
    · rfl
  simp only [installed, perform_bind, hisFound, ↓reduceIte, Run.perform_log]
  generalize session.events ++ [tool.announcement module output] = events
  rcases perform_stageBeside output { session with events } with
    ⟨hstage, hstageable, hmade⟩ | ⟨e, files, hstage, hnot⟩
  · refine .inr ⟨events, ?_⟩
    simp only [hstage, Run.perform_orElseUndo]
    cases hproduce : perform (produce (installation tool) tool module output
        (session.files.stagedPlace output))
        { session with files := session.files.withStaged output, events } with
    | mk answer left =>
      cases answer with
      | ok _ => exact ⟨_, _, left, rfl, rfl, fun _ => rfl, hstageable, hmade⟩
      | error e =>
        refine ⟨_, _, left, rfl, rfl, fun hok => ?_, hstageable, hmade⟩
        cases hok
  · rw [hstage]
    exact .inl ⟨e, _, rfl, hnot⟩

theorem installed_absent (habsent : installation tool = .absent) :
    perform ((installed installation).run tool module output) session =
      (.error (.toolNotFound tool.name.toList), session) := by
  simp only [installed, perform_bind, habsent, Installation.isFound, Bool.false_eq_true,
    ↓reduceIte, perform_throw]

/-! ## Whole calls -/

/-- A tool that is there fails, for another cause than that it is not, if something that a success
takes is missing; otherwise it succeeds, and the output of its program is found at the path. -/
theorem installed_outcome (hfound : installation tool ≠ .absent) (module output : Path)
    (session : Session) :
    ∃ answer after, perform ((installed installation).run tool module output) session =
        (answer, after) ∧
      ((∃ e, answer = .error e ∧ (∀ name, e ≠ .toolNotFound name) ∧
          ∀ run, ¬ Succeeds installation tool module output session.files run) ∨
        ∃ run, answer = .ok () ∧ Succeeds installation tool module output session.files run ∧
          after.files.find? output = some (.file (tool.output run))) := by
  rcases installed_found hfound module output session with
    ⟨e, after, heq, hnot⟩ |
    ⟨events, answer, after, left, heq, hproduce, hafter, hstageable, hmade⟩
  · exact ⟨_, after, heq, .inl ⟨.io e, rfl, nofun, fun run h => hnot h.stageable⟩⟩
  refine ⟨answer, after, heq, ?_⟩
  have hgrown : Grown output.Passes session.files (session.files.withDirectory output) :=
    FileAction.grown_createAll_directory output session.files
  have hfresh : (session.files.withDirectory output).node? (session.files.stagedPlace output)
      = none := FileAction.node?_freshName _ _
  have hmoves : ∀ content, (perform (FileAction.moveTo (session.files.stagedPlace output) content
      output) (session.files.withStaged output)).1 = .ok () ↔ Replaceable output session.files :=
    fun content => FileAction.moveTo_staged_iff hgrown hmade hfresh
  cases answer with
  | error e =>
    refine .inl ⟨e, rfl, ?_, ?_⟩
    · rintro name rfl
      exact produce_ne_toolNotFound hfound name (congrArg Prod.fst hproduce)
    · rintro run ⟨hlaunched, hstatus, -, hreplaceable⟩
      have hstart := start_launched_iff.mpr ⟨run, hlaunched, hstatus, rfl⟩
      have hok := (congrArg Prod.fst hproduce).symm.trans
        (produce_eq_ok_iff.mpr ⟨_, hstart, (hmoves _).mpr hreplaceable⟩)
      cases hok
  | ok _ =>
    have hstaged : (session.files.withStaged output).node? (session.files.stagedPlace output)
        = some (.file []) := by
      have hnotDirectory : (session.files.withDirectory output).node?
          (session.files.stagedPlace output) ≠ some .directory := by
        rw [hfresh]
        exact nofun
      rw [withStaged, node?_put _ (isUpward_of_ne_directory hnotDirectory), if_pos rfl]
    obtain ⟨content, hstart, hmove⟩ := produce_eq_ok_iff.mp (congrArg Prod.fst hproduce)
    rcases produce_cases (installation tool) tool module output
        { session with files := session.files.withStaged output, events } hstaged with
      ⟨e, hfailed⟩ | ⟨content', files, hdone, hstart', -, -, hfind⟩
    · rw [hproduce] at hfailed
      cases hfailed
    · rw [hproduce] at hdone
      cases hdone
      obtain rfl : content = content' := Except.ok.inj (hstart.symm.trans hstart')
      obtain ⟨run, hlaunched, hstatus, rfl⟩ := start_launched_iff.mp hstart
      rw [hafter rfl]
      exact .inr ⟨run, rfl, ⟨hlaunched, hstatus, hstageable, (hmoves _).mp hmove⟩, hfind⟩

/-- **All or nothing.** A call of an installed tool succeeds exactly if the tool is there, a file
can be staged beside the output, the program can be started and ends with status 0, and the output
can be replaced. Then the output of the program is found at the path, and no other file has
changed. A call that fails leaves every file as it was, the staged one removed, and nothing but
directories on the way to the output is new; if the tool is not there, nothing is. -/
theorem installed_allOrNothing (installation : Tool → Installation) (tool : Tool)
    (module output : Path) (session : Session) :
    let before := session.files
    let done := perform ((installed installation).run tool module output) session
    (done.1 = .ok () ↔ ∃ run, Succeeds installation tool module output before run) ∧
    (∀ run, Succeeds installation tool module output before run →
      done.2.files.content? output = some (tool.output run) ∧
      ∀ place, done.2.files.fileAt place =
        if place = output.place then some (tool.output run) else before.fileAt place) ∧
    (∀ e, done.1 = .error e →
      (∀ place, done.2.files.fileAt place = before.fileAt place) ∧
      done.2.files.fileAt (before.stagedPlace output) = none ∧
      Grown output.Passes before done.2.files) ∧
    (done.1 = .error (.toolNotFound tool.name.toList) ↔ installation tool = .absent) ∧
    ∀ name, done.1 = .error (.toolNotFound name) → done.2 = session := by
  intro before done
  have hunstaged : before.fileAt (before.stagedPlace output) = none := by
    have hgrown := FileAction.grown_createAll_directory output before
    rw [← hgrown.fileAt]
    exact fileAt_eq_none_iff.mpr (.inl (FileAction.node?_freshName _ _))
  by_cases hfound : installation tool = .absent
  · have hnot : ∀ run, ¬ Succeeds installation tool module output before run := by
      rintro run ⟨⟨behaviour, hprogram, -⟩, -⟩
      rw [hfound] at hprogram
      cases hprogram
    have hdone : done = (.error (.toolNotFound tool.name.toList), session) :=
      installed_absent hfound
    rw [hdone]
    refine ⟨⟨nofun, ?_⟩, ?_, ?_, ⟨fun _ => hfound, fun _ => rfl⟩, fun _ _ => rfl⟩
    · rintro ⟨run, hrun⟩
      exact absurd hrun (hnot run)
    · exact fun run hrun => absurd hrun (hnot run)
    · exact fun e _ => ⟨fun place => rfl, hunstaged, Grown.refl _ _⟩
  · obtain ⟨answer, after, hdone, houtcome⟩ := installed_outcome hfound module output session
    obtain ⟨made, files, events, heq, heffect⟩ :=
      installed_cases installation tool module output session
    rw [hdone] at heq
    cases heq
    have hdone : done = (answer, { session with files, events }) := hdone
    rw [hdone]
    rcases heffect with ⟨e, rfl, hgrown⟩ | ⟨content, rfl, -, hfilled, hfind⟩
    · rcases houtcome with ⟨e', he, hcause, hnot⟩ | ⟨run, hok, -⟩
      · cases he
        have hcause : ∀ name, (Except.error e : Except RunError Unit) ≠
            .error (.toolNotFound name) := fun name h => hcause name (Except.error.inj h)
        refine ⟨⟨nofun, ?_⟩, ?_, ?_, ⟨?_, ?_⟩, ?_⟩
        · rintro ⟨run, hrun⟩
          exact absurd hrun (hnot run)
        · exact fun run hrun => absurd hrun (hnot run)
        · exact fun _ _ => ⟨hgrown.fileAt, (hgrown.fileAt _).trans hunstaged, hgrown⟩
        · exact fun h => absurd h (hcause _)
        · exact fun h => absurd h hfound
        · exact fun name h => absurd h (hcause name)
      · cases hok
    · rcases houtcome with ⟨e', he, -⟩ | ⟨run, -, hrun, hfind'⟩
      · cases he
      · rw [hfind] at hfind'
        cases hfind'
        refine ⟨⟨fun _ => ⟨run, hrun⟩, fun _ => rfl⟩, fun other hother => ?_, nofun,
          ⟨nofun, fun h => absurd h hfound⟩, nofun⟩
        rw [hother.launched.unique hrun.launched]
        exact ⟨content?_eq_some_iff.mpr hfind, hfilled.fileAt⟩

/-- A converter that succeeds replaces the old output with what it wrote; one that a signal ends
has written in vain, and one that is not there leaves all as it was. -/
theorem installed_allOrNothing_converter :
    let converting (status : ExitStatus) : Tool → Installation := fun _ =>
      .program fun _ _ => { printed := [66], written := some [67], status }
    let session : Session := ⟨⟨[(["o".toList], .file [65])]⟩, [], []⟩
    let replaced := perform ((installed (converting (.code 0))).run .converter "m".toList
      "o".toList) session
    let failed := perform ((installed (converting (.signal 9))).run .converter "m".toList
      "a/o".toList) session
    let missed := perform ((installed fun _ => .absent).run .converter "m".toList
      "a/o".toList) session
    (replaced.1 = .ok () ∧ replaced.2.files.content? "o".toList = some [67]) ∧
      ((∃ e, failed.1 = .error e) ∧
        ∀ place, failed.2.files.fileAt place = session.files.fileAt place) ∧
      missed.1 = .error (.toolNotFound "wasm2wat".toList) ∧ missed.2 = session := by
  intro converting session replaced failed missed
  have hok : replaced.1 = .ok () := by decide +kernel
  have herror : failed.1 = .error (.toolFailed "wasm2wat".toList "signal: 9 (SIGKILL)".toList
    "wasm2wat failed".toList) := by decide +kernel
  obtain ⟨hsucceeds, hreplaced, -⟩ :=
    installed_allOrNothing (converting (.code 0)) .converter "m".toList "o".toList session
  obtain ⟨-, -, hfailed, -⟩ :=
    installed_allOrNothing (converting (.signal 9)) .converter "m".toList "a/o".toList session
  obtain ⟨-, -, -, hmissing, hmissed⟩ :=
    installed_allOrNothing (fun _ => .absent) .converter "m".toList "a/o".toList session
  obtain ⟨run, hrun⟩ := hsucceeds.mp hok
  obtain ⟨behaviour, hprogram, -, hdid⟩ := hrun.launched
  have hcontent := (hreplaced run hrun).1
  rw [← hdid] at hcontent
  cases hprogram
  exact ⟨⟨hok, hcontent⟩, ⟨⟨_, herror⟩, (hfailed _ herror).1⟩, hmissing.mpr rfl,
    hmissed _ (hmissing.mpr rfl)⟩

end Toolset

end BinarySize
