import BinarySize.Run.Session

/-!
# Performing

Runs and file actions are computations on a state that may fail. `perform` lets one act on a
state and gives both its answer and the state that it leaves. The equations below open such a
computation step by step.
-/

namespace BinarySize

section
variable {ε σ α β : Type}

/-- What a computation answers, and the state that it leaves. -/
def perform (action : ExceptT ε (StateM σ) α) (state : σ) : Except ε α × σ :=
  action.run.run state

theorem exists_of_isOk {answer : Except ε α} (h : answer.isOk = true) : ∃ a, answer = .ok a := by
  cases answer with
  | error e => cases h
  | ok a => exact ⟨a, rfl⟩

theorem eq_ok_of_mem_toOption {answer : Except ε α} {a : α} (h : a ∈ answer.toOption) :
    answer = .ok a := by
  cases answer with
  | error e => cases h
  | ok b => exact congrArg Except.ok (Option.some.inj h)

variable (state : σ)

theorem perform_pure (a : α) :
    perform (pure a : ExceptT ε (StateM σ) α) state = (.ok a, state) := rfl

theorem perform_throw (e : ε) :
    perform (throw e : ExceptT ε (StateM σ) α) state = (.error e, state) := rfl

theorem perform_set (next : σ) :
    perform (set next : ExceptT ε (StateM σ) PUnit) state = (.ok ⟨⟩, next) := rfl

theorem perform_ofExcept (answer : Except ε α) :
    perform (MonadExcept.ofExcept answer : ExceptT ε (StateM σ) α) state = (answer, state) := by
  cases answer <;> rfl

theorem perform_ite (c : Prop) [Decidable c] (first second : ExceptT ε (StateM σ) α) :
    perform (if c then first else second) state =
      if c then perform first state else perform second state := by
  split <;> rfl

theorem perform_bind (action : ExceptT ε (StateM σ) α) (next : α → ExceptT ε (StateM σ) β) :
    perform (action >>= next) state =
      match perform action state with
      | (.ok a, state) => perform (next a) state
      | (.error e, state) => (.error e, state) := by
  unfold perform
  simp only [ExceptT.run_bind, StateT.run_bind]
  rcases action.run.run state with ⟨answer, left⟩
  cases answer <;> rfl

theorem perform_bind_get (next : σ → ExceptT ε (StateM σ) β) :
    perform (get >>= next) state = perform (next state) state := rfl

theorem perform_bind_throw (e : ε) (next : α → ExceptT ε (StateM σ) β) :
    perform (throw e >>= next) state = (.error e, state) := rfl

theorem perform_bind_except (answer : Except ε α) (next : α → ExceptT ε (StateM σ) β) :
    perform (liftM answer >>= next) state =
      match answer with
      | .ok a => perform (next a) state
      | .error e => (.error e, state) := by
  cases answer <;> rfl

theorem perform_map (change : α → β) (action : ExceptT ε (StateM σ) α) :
    perform (change <$> action) state =
      ((perform action state).1.map change, (perform action state).2) := by
  unfold perform
  simp only [ExceptT.run_map, StateT.run_map]
  rcases action.run.run state with ⟨answer, left⟩
  cases answer <;> rfl

theorem perform_tryCatch (action : ExceptT ε (StateM σ) α) (handler : ε → ExceptT ε (StateM σ) α) :
    perform (tryCatch action handler) state =
      match perform action state with
      | (.ok a, state) => (.ok a, state)
      | (.error e, state) => perform (handler e) state := by
  change (ExceptT.tryCatch action handler).run.run state = _
  unfold perform ExceptT.tryCatch
  simp only [ExceptT.run_mk, StateT.run_bind]
  rcases h : action.run.run state with ⟨answer, left⟩
  have h' : StateT.run action state = (answer, left) := h
  rw [h']
  cases answer <;> rfl

end

namespace Run

variable (session : Session)

theorem perform_log (event : LogEvent) :
    perform (log event) session =
      (.ok (), { session with events := session.events ++ [event] }) := rfl

theorem perform_files : perform files session = (.ok session.files, session) := rfl

theorem perform_onFiles (action : FileAction α) :
    perform (onFiles action) session =
      ((perform action session.files).1.mapError .io,
        { session with files := (perform action session.files).2 }) := rfl

theorem perform_outcome (run : Run α) :
    perform (outcome run) session =
      (.ok (perform run session).1, (perform run session).2) := by
  rw [outcome, perform_tryCatch, perform_map]
  rcases perform run session with ⟨answer, left⟩
  cases answer <;> rfl

theorem perform_orElseUndo (run : Run α) (undo : Run Unit) :
    perform (orElseUndo run undo) session =
      match perform run session with
      | (.ok a, session) => (.ok a, session)
      | (.error e, session) =>
        match perform undo session with
        | (.ok (), session) => (.error e, session)
        | (.error e, session) => (.error e, session) := by
  rw [orElseUndo, perform_tryCatch]
  rcases perform run session with ⟨answer, left⟩
  cases answer with
  | ok a => rfl
  | error e =>
    simp only [perform_bind, perform_throw]
    rcases perform undo left with ⟨undone, back⟩
    cases undone <;> rfl

theorem perform_requireFile (role : String) (path : Path) :
    perform (requireFile role path) session =
      if session.files.isFile path then (.ok (), session)
      else (.error (.missingInput role.toList path), session) := by
  simp only [requireFile, perform_bind, perform_files]
  cases session.files.isFile path <;> rfl

theorem perform_readText {path : Path} {content : Octets}
    (h : session.files.content? path = some content) :
    perform (readText path) session = (.ok (Octets.decode content), session) := by
  have hfind : session.files.find? path = some (.file content) := by
    unfold FileTree.content? at h
    split at h
    · next heq =>
      cases h
      exact heq
    · cases h
  simp only [readText, perform_bind, perform_files, hfind, perform_pure]

end Run

end BinarySize
