import BinarySize.Proofs.Files.Actions
import BinarySize.Tools.Installed

/-!
# What tool calls do

A confined tool set writes nothing but the output of a call. Proved here:

* `installed_cases`: an installed tool that fails leaves every file as it was, and one that
  succeeds puts the complete output of a program that ended well at the output path;
* `confined_scripted`, `confined_installed`: both kinds of tool sets are confined.
-/

namespace BinarySize

open FileTree

namespace Toolset

/-- The tools of the set write to their outputs alone; recording calls is left to the run. -/
structure Confined (tools : Toolset) : Prop where
  calls : ∀ tool module output session,
    (perform (tools.run tool module output) session).2.calls = session.calls
  files : ∀ tool module output session, OnlyWrites output session.files
    (perform (tools.run tool module output) session).2.files

/-- The program behind a tool has ended well on a module and has left this output. It saw the
tree as it was before the call, but for an empty file beside the place of the output. -/
def Makes (installation : Tool → Installation) (tool : Tool) (module output : Path)
    (before : FileTree) (content : Octets) : Prop :=
  ∃ behaviour files staged, installation tool = .program behaviour ∧
    before.node? staged = none ∧ Filled output.Passes staged [] before files ∧
    (behaviour (tool.arguments module (output.directory.join (staged.headD []))) files).status
      = .code 0 ∧
    tool.output (behaviour (tool.arguments module (output.directory.join (staged.headD []))) files)
      = content

theorem perform_call (tools : Toolset) (tool : Tool) (module output : Path) (session : Session) :
    perform (tools.call tool module output) session =
      perform (tools.run tool module output)
        { session with calls := session.calls ++ [⟨tool, module, output⟩] } := rfl

theorem Confined.of_call {tools : Toolset} (h : tools.Confined) {tool : Tool}
    {module output : Path} {session after : Session} {answer : Except RunError Unit}
    (hcall : perform (tools.call tool module output) session = (answer, after)) :
    after.calls = session.calls ++ [⟨tool, module, output⟩] ∧
      OnlyWrites output session.files after.files := by
  rw [perform_call] at hcall
  have hcalls := h.calls tool module output
    { session with calls := session.calls ++ [⟨tool, module, output⟩] }
  have hfiles := h.files tool module output
    { session with calls := session.calls ++ [⟨tool, module, output⟩] }
  rw [hcall] at hcalls hfiles
  exact ⟨hcalls, hfiles⟩

/-! ## Scripted tools -/

theorem confined_scripted (script : Tool → Script) : (scripted script).Confined := by
  constructor
  · intro tool module output session
    cases h : script tool with
    | _ => simp only [scripted, h]; rfl
  · intro tool module output session
    cases h : script tool with
    | writing content =>
      simp only [scripted, h, Run.perform_onFiles]
      rcases FileAction.write_cases output content session.files with ⟨e, heq⟩ | ⟨heq, hvacant, -⟩
      · rw [heq]
        exact OnlyWrites.refl output _
      · rw [heq]
        exact .inr ⟨content, filled_put hvacant content⟩
    | _ =>
      simp only [scripted, h]
      exact OnlyWrites.refl output _

/-! ## Installed tools -/

theorem start_eq_ok_iff {installation : Installation} {tool : Tool} {arguments : List Text}
    {files : FileTree} {content : Octets} :
    installation.start tool arguments files = .ok content ↔
      ∃ behaviour, installation = .program behaviour ∧
        Installation.argumentRefusal? arguments = none ∧
        (behaviour arguments files).status = .code 0 ∧
        tool.output (behaviour arguments files) = content := by
  constructor
  · intro h
    unfold Installation.start at h
    split at h
    · cases h
    · cases h
    · cases h
    · next behaviour haccepted =>
      simp only [ExitStatus.isSuccess, beq_iff_eq] at h
      split at h
      · next hstatus =>
        cases h
        exact ⟨behaviour, rfl, haccepted, hstatus, rfl⟩
      · cases h
  · rintro ⟨behaviour, rfl, haccepted, hstatus, rfl⟩
    simp only [Installation.start, haccepted, hstatus, ExitStatus.isSuccess, beq_self_eq_true,
      ↓reduceIte]

theorem stageBeside_cases (output : Path) (session : Session) :
    (∃ e files, perform (stageBeside output) session = (.error e, { session with files }) ∧
        Grown output.Passes session.files files) ∨
      ∃ staged grown, perform (stageBeside output) session =
          (.ok staged, { session with files := grown.put staged (.file []) }) ∧
        Grown output.Passes session.files grown ∧ grown.node? staged = none := by
  have hgrown := FileAction.grown_createAll_directory output session.files
  simp only [stageBeside, Run.perform_onFiles, perform_bind]
  generalize perform (FileAction.createAll output.directory) session.files = created at hgrown ⊢
  obtain ⟨answer, grown⟩ := created
  cases answer with
  | error e => exact .inl ⟨.io e, grown, rfl, hgrown⟩
  | ok _ =>
    rcases FileAction.stage_cases output.directory grown with ⟨e, heq⟩ | ⟨staged, heq, hfresh⟩
    · simp only [heq]
      exact .inl ⟨.io e, grown, rfl, hgrown⟩
    · simp only [heq]
      exact .inr ⟨staged, grown, rfl, hgrown, hfresh⟩

theorem produce_cases (installation : Installation) (tool : Tool) (module output : Path)
    (session : Session) {staged : Location} {empty : Octets}
    (hstaged : session.files.node? staged = some (.file empty)) :
    (∃ e, perform (produce installation tool module output staged) session = (.error e, session)) ∨
      ∃ content files, perform (produce installation tool module output staged) session =
          (.ok (), { session with files }) ∧
        installation.start tool
          (tool.arguments module (output.directory.join (staged.headD []))) session.files
            = .ok content ∧
        session.files.node? output.place ≠ some .directory ∧
        (∀ place, files.node? place = if place = output.place then some (.file content)
          else if place = staged then none else session.files.node? place) ∧
        files.find? output = some (.file content) := by
  simp only [produce, perform_bind, Run.perform_files]
  cases installation.start tool (tool.arguments module (output.directory.join (staged.headD [])))
      session.files with
  | error e => exact .inl ⟨e, rfl⟩
  | ok content =>
    simp only [Run.perform_onFiles]
    rcases FileAction.moveTo_cases hstaged content output with
      ⟨e, heq⟩ | ⟨files, heq, hvacant, hnodes, hfind⟩
    · rw [heq]
      exact .inl ⟨.io e, rfl⟩
    · rw [heq]
      exact .inr ⟨content, files, rfl, rfl, hvacant, hnodes, hfind⟩

/-- **Installed tools.** A call of an installed tool fails and changes no file, or it puts the
output of the tool's program in place. -/
theorem installed_cases (installation : Tool → Installation) (tool : Tool) (module output : Path)
    (session : Session) :
    ∃ answer files events,
      perform ((installed installation).run tool module output) session =
        (answer, { session with files, events }) ∧
      ((∃ e, answer = .error e ∧ Grown output.Passes session.files files) ∨
        ∃ content, answer = .ok () ∧
          Makes installation tool module output session.files content ∧
          Filled output.Passes output.place content session.files files ∧
          files.find? output = some (.file content)) := by
  have hrefl := Grown.refl output.Passes session.files
  simp only [installed, perform_bind, perform_ite, perform_throw]
  cases hfound : (installation tool).isFound with
  | false => exact ⟨_, _, _, rfl, .inl ⟨_, rfl, hrefl⟩⟩
  | true =>
    simp only [↓reduceIte, Run.perform_log]
    generalize session.events ++ [tool.announcement module output] = events
    rcases stageBeside_cases output { session with events } with
      ⟨e, files, heq, hgrown⟩ | ⟨staged, grown, heq, hgrown, hfresh⟩
    · simp only [heq]
      exact ⟨_, _, _, rfl, .inl ⟨e, rfl, hgrown⟩⟩
    · have hnotDirectory : grown.node? staged ≠ some .directory := by
        rw [hfresh]
        exact nofun
      have hup := isUpward_of_ne_directory hnotDirectory
      have hput := node?_put grown hup (.file [])
      have hstaged : (grown.put staged (.file [])).node? staged = some (.file []) := by
        rw [hput, if_pos rfl]
      simp only [heq, Run.perform_orElseUndo]
      rcases produce_cases (installation tool) tool module output
          { session with files := grown.put staged (.file []), events } hstaged with
        ⟨e, hproduce⟩ | ⟨content, files, hproduce, hstart, hvacant, hnodes, hfind⟩
      · simp only [hproduce]
        refine ⟨.error e, (grown.put staged (.file [])).erase staged, events, rfl,
          .inl ⟨e, rfl, hgrown.trans fun place => .inl ?_⟩⟩
        rw [node?_erase _ hup, hput]
        by_cases hplace : place = staged
        · rw [if_pos hplace, hplace, hfresh]
        · rw [if_neg hplace, if_neg hplace]
      · simp only [hproduce]
        obtain ⟨behaviour, hprogram, -, hstatus, houtput⟩ := start_eq_ok_iff.mp hstart
        have hbefore : session.files.node? staged = none := by
          rcases hgrown staged with hsame | ⟨-, hnone, -⟩
          · exact hsame.symm.trans hfresh
          · exact hnone
        refine ⟨.ok (), files, events, rfl, .inr ⟨content, rfl, ⟨behaviour, _, staged, hprogram,
          hbefore, hgrown.filled (filled_put hnotDirectory []), hstatus, houtput⟩, ?_, hfind⟩⟩
        refine ⟨grown, hgrown, ?_, fun place => ?_⟩
        · intro hdirectory
          rw [hput] at hvacant
          by_cases hplace : output.place = staged
          · rw [hplace, hfresh] at hdirectory
            cases hdirectory
          · rw [if_neg hplace] at hvacant
            exact hvacant hdirectory
        · rw [hnodes, hput]
          by_cases hplace : place = staged
          · rw [if_pos hplace, hplace, hfresh]
          · rw [if_neg hplace, if_neg hplace]

theorem confined_installed (installation : Tool → Installation) :
    (installed installation).Confined := by
  constructor
  · intro tool module output session
    obtain ⟨answer, files, events, heq, -⟩ :=
      installed_cases installation tool module output session
    rw [heq]
  · intro tool module output session
    obtain ⟨answer, files, events, heq, hcase⟩ :=
      installed_cases installation tool module output session
    rw [heq]
    rcases hcase with ⟨e, -, hgrown⟩ | ⟨content, -, -, hfilled, -⟩
    · exact .inl hgrown
    · exact .inr ⟨content, hfilled⟩

end Toolset

end BinarySize
