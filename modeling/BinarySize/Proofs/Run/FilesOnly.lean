import BinarySize.Proofs.Perform
import BinarySize.Run.SizeReport
import BinarySize.Tools.Installed

/-!
# Runs look at files only

A session keeps the events and the tool calls of a run, but no run ever looks back at them. Proved
here:

* `FilesOnly.bind` and `FilesOnly.tryCatch`: what is made of runs that look at files only does so
  too;
* `filesOnly_installed`: installed tools look at files only;
* `filesOnly_dumpReport`, `filesOnly_sizeReport`: so do both kinds of runs, if their tools do.
-/

namespace BinarySize.Run

/-! ## Composition -/

/-- The answer of a run and the files that it leaves depend on nothing but the files that it
finds. -/
def FilesOnly (run : Run α) : Prop :=
  ∀ ⦃session other : Session⦄, session.files = other.files →
    (perform run session).1 = (perform run other).1 ∧
      (perform run session).2.files = (perform run other).2.files

namespace FilesOnly

theorem pure (a : α) : FilesOnly (Pure.pure a) := fun _ _ h => ⟨rfl, h⟩

theorem throw (e : RunError) : FilesOnly (MonadExcept.throw e : Run α) := fun _ _ h => ⟨rfl, h⟩

theorem log (event : LogEvent) : FilesOnly (Run.log event) := fun _ _ h => ⟨rfl, h⟩

theorem record (call : ToolCall) : FilesOnly (Run.record call) := fun _ _ h => ⟨rfl, h⟩

theorem files : FilesOnly Run.files := fun _ _ h => ⟨congrArg Except.ok h, h⟩

theorem onFiles (action : FileAction α) : FilesOnly (Run.onFiles action) := by
  intro session other h
  rw [perform_onFiles, perform_onFiles, h]
  exact ⟨rfl, rfl⟩

theorem ofExcept (answer : Except RunError α) :
    FilesOnly (MonadExcept.ofExcept answer : Run α) := by
  intro session other h
  rw [perform_ofExcept, perform_ofExcept]
  exact ⟨rfl, h⟩

theorem bind {run : Run α} {next : α → Run β} (hrun : FilesOnly run)
    (hnext : ∀ a, FilesOnly (next a)) : FilesOnly (run >>= next) := by
  intro session other h
  obtain ⟨hanswer, hfiles⟩ := hrun h
  rw [perform_bind, perform_bind]
  generalize perform run session = ran at *
  generalize perform run other = ran' at *
  obtain ⟨answer, left⟩ := ran
  obtain ⟨answer', left'⟩ := ran'
  obtain rfl : answer = answer' := hanswer
  cases answer with
  | ok a => exact hnext a hfiles
  | error e => exact ⟨rfl, hfiles⟩

theorem map {run : Run α} (change : α → β) (hrun : FilesOnly run) :
    FilesOnly (change <$> run) := by
  intro session other h
  obtain ⟨hanswer, hfiles⟩ := hrun h
  rw [perform_map, perform_map]
  exact ⟨congrArg (Except.map change) hanswer, hfiles⟩

theorem tryCatch {run : Run α} {handler : RunError → Run α} (hrun : FilesOnly run)
    (hhandler : ∀ e, FilesOnly (handler e)) : FilesOnly (MonadExcept.tryCatch run handler) := by
  intro session other h
  obtain ⟨hanswer, hfiles⟩ := hrun h
  rw [perform_tryCatch, perform_tryCatch]
  generalize perform run session = ran at *
  generalize perform run other = ran' at *
  obtain ⟨answer, left⟩ := ran
  obtain ⟨answer', left'⟩ := ran'
  obtain rfl : answer = answer' := hanswer
  cases answer with
  | ok a => exact ⟨rfl, hfiles⟩
  | error e => exact hhandler e hfiles

theorem outcome {run : Run α} (hrun : FilesOnly run) : FilesOnly (Run.outcome run) :=
  tryCatch (map Except.ok hrun) fun e => pure (Except.error e)

theorem orElseUndo {run : Run α} {undo : Run Unit} (hrun : FilesOnly run)
    (hundo : FilesOnly undo) : FilesOnly (Run.orElseUndo run undo) :=
  tryCatch hrun fun e => bind hundo fun _ => throw e

/-! ## Files -/

theorem requireFile (role : String) (path : Path) : FilesOnly (Run.requireFile role path) := by
  refine bind files fun tree => ?_
  split
  · exact pure _
  · exact throw _

theorem readText (path : Path) : FilesOnly (Run.readText path) := by
  refine bind files fun tree => ?_
  split
  · exact pure _
  · exact throw _
  · exact throw _

theorem writeText (path : Path) (text : Text) : FilesOnly (Run.writeText path text) :=
  onFiles _

end FilesOnly

end Run

/-! ## Tools -/

namespace Toolset

def FilesOnly (tools : Toolset) : Prop :=
  ∀ tool module output, Run.FilesOnly (tools.run tool module output)

theorem FilesOnly.call {tools : Toolset} (h : tools.FilesOnly) (tool : Tool)
    (module output : Path) : Run.FilesOnly (tools.call tool module output) :=
  .bind (.record _) fun _ => h tool module output

theorem filesOnly_discard (staged : Location) : Run.FilesOnly (discard staged) :=
  fun _ _ h => ⟨rfl, congrArg (·.erase staged) h⟩

theorem filesOnly_produce (installation : Installation) (tool : Tool) (module output : Path)
    (staged : Location) : Run.FilesOnly (produce installation tool module output staged) := by
  refine .bind .files fun files => ?_
  split
  · exact .throw _
  · exact .onFiles _

theorem filesOnly_installed (installation : Tool → Installation) :
    (installed installation).FilesOnly := by
  intro tool module output
  have hstaged (staged : Location) := Run.FilesOnly.orElseUndo
    (filesOnly_produce (installation tool) tool module output staged) (filesOnly_discard staged)
  have hbeside : Run.FilesOnly (stageBeside output) := .onFiles _
  have hstarted := Run.FilesOnly.bind (.log (tool.announcement module output)) fun _ =>
    hbeside.bind hstaged
  simp only [installed]
  split
  · exact hstarted
  · exact .bind (.throw _) fun _ => hstarted

end Toolset

/-! ## Runs -/

namespace Run

variable {tools : Toolset}

theorem filesOnly_refreshDump (h : tools.FilesOnly) (module : Option Path) (dump : Path)
    (skip : Bool) : FilesOnly (refreshDump tools module dump skip) := by
  unfold refreshDump
  split
  · exact .log _
  · split
    · exact .throw _
    · exact .bind (.requireFile _ _) fun _ => h.call _ _ _

theorem filesOnly_loadFunctions (dump : Path) : FilesOnly (loadFunctions dump) :=
  .bind (.requireFile _ _) fun _ => .bind (.readText _) fun _ => .bind (.log _) fun _ => .pure _

theorem filesOnly_loadMap (map : Path) : FilesOnly (loadMap map) :=
  .bind (.readText _) fun _ => .bind (.log _) fun _ => .pure _

theorem filesOnly_prepareModuleText (h : tools.FilesOnly) (options : SizeReportOptions) :
    FilesOnly (prepareModuleText options tools) := by
  unfold prepareModuleText
  split
  · exact .pure _
  · split
    · refine .bind .files fun files => ?_
      split
      · exact .pure _
      · split
        · exact .pure _
        · refine .bind (.outcome (h.call _ _ _)) fun answer => ?_
          split
          · exact .pure _
          · exact .bind (.log _) fun _ => .pure _
    · exact .pure _

theorem filesOnly_loadModuleText (options : SizeReportOptions)
    (status : Option ModuleTextStatus) : FilesOnly (loadModuleText options status) := by
  refine .bind .files fun files => ?_
  split
  · exact .bind (.bind (.readText _) fun _ => .bind (.log _) fun _ => .pure _) fun _ => .pure _
  · exact .pure _

theorem filesOnly_generate (h : tools.FilesOnly) (options : SizeReportOptions)
    (time : DateTime) : FilesOnly (generate options tools time) :=
  .bind (.ofExcept _) fun _ => .bind (filesOnly_refreshDump h _ _ _) fun _ =>
    .bind (.requireFile _ _) fun _ => .bind (.requireFile _ _) fun _ =>
    .bind (filesOnly_prepareModuleText h options) fun _ =>
    .bind (filesOnly_loadFunctions _) fun _ => .bind (filesOnly_loadMap _) fun _ =>
    .bind (filesOnly_loadModuleText _ _) fun _ => .pure _

theorem filesOnly_dumpReport (h : tools.FilesOnly) (options : DumpReportOptions) :
    FilesOnly (dumpReport options tools) :=
  .bind (filesOnly_refreshDump h _ _ _) fun _ => .bind (filesOnly_loadFunctions _) fun _ =>
    .bind (.writeText _ _) fun _ => .bind (.log _) fun _ => .pure _

theorem filesOnly_sizeReport (h : tools.FilesOnly) (options : SizeReportOptions)
    (time : DateTime) : FilesOnly (sizeReport options tools time) :=
  .bind (filesOnly_generate h options time) fun _ => .bind (.writeText _ _) fun _ =>
    .bind (.log _) fun _ => .pure _

end Run
end BinarySize
