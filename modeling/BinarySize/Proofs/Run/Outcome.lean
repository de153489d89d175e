import BinarySize.Proofs.Run.Stages

/-!
# Outcomes of making a size report

Which of its reasons to give up a run gives, and which tools it calls before, is decided by the
options, by what stands at the four input paths before and after the dump is made, and by what
the dumper answers (`generate_outcome`). The converter has no say in it.
-/

namespace BinarySize

namespace SizeReportOptions

/-- Why the dumper cannot be called on a tree, if it is to be called. -/
def noDumping? (options : SizeReportOptions) (files : FileTree) : Option RunError :=
  if options.skipDump then none
  else match options.module with
    | none => some (.invalidArgument
        "a wasm module is required unless the dump step is skipped".toList)
    | some module =>
      if files.isFile module then none else some (.missingInput "wasm".toList module)

/-- The first reason to give up that applies: to the options, to the tree before the dump is
made, to the dumper, or to the tree behind it. -/
def refusal? (options : SizeReportOptions) (before : FileTree) (dumped : Except RunError Unit)
    (files : FileTree) : Option RunError :=
  if options.limit = 0 then some (.invalidArgument "top-n must be at least 1".toList)
  else if options.snippetLines = 0 then
    some (.invalidArgument "snippet-lines must be at least 1".toList)
  else match options.noDumping? before with
    | some e => some e
    | none =>
      match dumped with
      | .error e => some e
      | .ok () =>
        if files.isFile options.dump = false then
          some (.missingInput "dwarf text".toList options.dump)
        else if files.isFile options.map = false then
          some (.missingInput "map".toList options.map)
        else none

/-- The module for which the dumper is called on a tree, if it is called. -/
def dumping? (options : SizeReportOptions) (files : FileTree) : Option Path :=
  if options.limit = 0 ∨ options.snippetLines = 0 ∨ options.skipDump = true then none
  else options.module.filter files.isFile

end SizeReportOptions

namespace Run

variable (options : SizeReportOptions) (tools : Toolset) (time : DateTime) (session : Session)

/-- What the dumper answers and leaves, if it is called. -/
def dumpStep : Except RunError Unit × Session :=
  match options.dumping? session.files with
  | some module => perform (tools.call .dumper module options.dump) session
  | none => (.ok (), session)

def dumperCalls (files : FileTree) : List ToolCall :=
  (options.dumping? files).toList.map fun module => ⟨.dumper, module, options.dump⟩

def converterCalls (files : FileTree) : List ToolCall :=
  (options.conversion? files).toList.map fun (module, text) => ⟨.converter, module, text⟩

/-! ## Options -/

theorem validate_eq_ok_iff :
    options.validate = .ok () ↔ options.limit ≠ 0 ∧ options.snippetLines ≠ 0 := by
  unfold SizeReportOptions.validate
  split
  · simp [*]
  · split <;> simp [*]

variable {options} {tools} {session} {dumped : Session}

theorem refusal?_of_valid (hvalid : options.validate = .ok ()) (before : FileTree)
    (answer : Except RunError Unit) (files : FileTree) :
    options.refusal? before answer files =
      match options.noDumping? before with
      | some e => some e
      | none =>
        match answer with
        | .error e => some e
        | .ok () =>
          if files.isFile options.dump = false then
            some (.missingInput "dwarf text".toList options.dump)
          else if files.isFile options.map = false then
            some (.missingInput "map".toList options.map)
          else none := by
  obtain ⟨hlimit, hlines⟩ := (validate_eq_ok_iff options).mp hvalid
  exact (if_neg hlimit).trans (if_neg hlines)

theorem refusal?_of_invalid {e : RunError} (h : options.validate = .error e) (before : FileTree)
    (answer : Except RunError Unit) (files : FileTree) :
    options.refusal? before answer files = some e ∧ options.dumping? before = none := by
  unfold SizeReportOptions.validate at h
  split at h
  · next hlimit =>
    cases h
    exact ⟨if_pos hlimit, if_pos (.inl hlimit)⟩
  · next hlimit =>
    split at h
    · next hlines =>
      cases h
      exact ⟨(if_neg hlimit).trans (if_pos hlines), if_pos (.inr (.inl hlines))⟩
    · cases h

theorem dumping?_of_valid (hvalid : options.validate = .ok ()) (hskip : options.skipDump = false)
    (files : FileTree) : options.dumping? files = options.module.filter files.isFile := by
  obtain ⟨hlimit, hlines⟩ := (validate_eq_ok_iff options).mp hvalid
  refine if_neg ?_
  rintro (h | h | h)
  · exact hlimit h
  · exact hlines h
  · rw [hskip] at h
    cases h

/-! ## The dump -/

inductive Refreshing (options : SizeReportOptions) (tools : Toolset) (session : Session) :
    Except RunError Unit × Session → Prop
  | reused (events : List LogEvent) (hdumping : options.dumping? session.files = none)
      (hpossible : options.noDumping? session.files = none) :
      Refreshing options tools session (.ok (), { session with events })
  | impossible (e : RunError) (hdumping : options.dumping? session.files = none)
      (himpossible : options.noDumping? session.files = some e) :
      Refreshing options tools session (.error e, session)
  | called (module : Path) (hdumping : options.dumping? session.files = some module)
      (hpossible : options.noDumping? session.files = none) :
      Refreshing options tools session (perform (tools.call .dumper module options.dump) session)

theorem refreshing (hvalid : options.validate = .ok ()) (tools : Toolset) (session : Session) :
    Refreshing options tools session
      (perform (refreshDump tools options.module options.dump options.skipDump) session) := by
  rw [perform_refreshDump]
  cases hskip : options.skipDump with
  | true =>
    refine .reused _ (if_pos (.inr (.inr hskip))) ?_
    rw [SizeReportOptions.noDumping?, if_pos hskip]
  | false =>
    have hdumping := dumping?_of_valid hvalid hskip session.files
    have hpossible : options.noDumping? session.files = match options.module with
        | none => some (.invalidArgument
            "a wasm module is required unless the dump step is skipped".toList)
        | some module =>
          if session.files.isFile module then none
          else some (.missingInput "wasm".toList module) := by
      rw [SizeReportOptions.noDumping?, hskip, if_neg Bool.false_ne_true]
    simp only [Bool.false_eq_true, ↓reduceIte]
    cases hmodule : options.module with
    | none =>
      rw [hmodule] at hdumping hpossible
      exact .impossible _ hdumping hpossible
    | some module =>
      simp only [hmodule, Option.filter_some] at hdumping hpossible ⊢
      cases hfile : session.files.isFile module with
      | false =>
        rw [hfile] at hdumping hpossible
        exact .impossible _ hdumping hpossible
      | true =>
        rw [hfile] at hdumping hpossible
        exact .called module hdumping hpossible

theorem refusal?_of_not_refreshed {e : RunError} (hvalid : options.validate = .ok ())
    (hrefresh : perform (refreshDump tools options.module options.dump options.skipDump) session
      = (.error e, dumped)) (files : FileTree) :
    options.refusal? session.files (dumpStep options tools session).1 files = some e := by
  have h := refreshing hvalid tools session
  rw [hrefresh] at h
  rw [refusal?_of_valid hvalid, dumpStep]
  -- the dumper's answer is no constructor, so the cases need it as a variable
  generalize hleft : (Except.error e, dumped) = left at h
  cases h with
  | reused => cases hleft
  | impossible e' hdumping himpossible =>
    cases hleft
    rw [himpossible]
  | called module hdumping hpossible => simp only [hpossible, hdumping, ← hleft]

/-- Once the dump is refreshed, only the inputs can be missing. -/
theorem refusal?_of_refreshed (hvalid : options.validate = .ok ())
    (hrefresh : perform (refreshDump tools options.module options.dump options.skipDump) session
      = (.ok (), dumped)) :
    (dumpStep options tools session).2.files = dumped.files ∧
    options.refusal? session.files (dumpStep options tools session).1 dumped.files =
      if dumped.files.isFile options.dump = false then
        some (.missingInput "dwarf text".toList options.dump)
      else if dumped.files.isFile options.map = false then
        some (.missingInput "map".toList options.map)
      else none := by
  have h := refreshing hvalid tools session
  rw [hrefresh] at h
  rw [refusal?_of_valid hvalid, dumpStep]
  generalize hleft : (Except.ok (), dumped) = left at h
  cases h with
  | reused events hdumping hpossible =>
    cases hleft
    rw [hpossible, hdumping]
    exact ⟨rfl, rfl⟩
  | impossible => cases hleft
  | called module hdumping hpossible =>
    simp only [hpossible, hdumping, ← hleft, and_self]

theorem calls_refreshDump (h : tools.Confined) (hvalid : options.validate = .ok ())
    (session : Session) :
    (perform (refreshDump tools options.module options.dump options.skipDump) session).2.calls =
      session.calls ++ dumperCalls options session.files := by
  have hrefreshing := refreshing hvalid tools session
  generalize perform (refreshDump tools options.module options.dump options.skipDump) session
    = left at hrefreshing ⊢
  cases hrefreshing with
  | reused events hdumping => simp [dumperCalls, hdumping]
  | impossible e hdumping => simp [dumperCalls, hdumping]
  | called module hdumping =>
    rw [Toolset.perform_call, h.calls, dumperCalls, hdumping]
    rfl

theorem calls_preparing (hconfined : tools.Confined) {answer : Except RunError _}
    {after : Session} (h : Preparing options tools session (answer, after)) :
    after.calls = session.calls ++ converterCalls options session.files := by
  cases h with
  | standing hnone => simp [converterCalls, hnone]
  | generated module text after hsome hcall =>
    rw [(hconfined.of_call hcall).1, converterCalls, hsome]
    rfl
  | failed module text e after events hsome hcall =>
    rw [converterCalls, hsome]
    exact (hconfined.of_call hcall).1

/-! ## The whole run -/

/-- **Outcomes.** A run whose tools write to their outputs alone fails with the first reason that
applies, and otherwise makes a report. It calls the dumper, if at all, before the converter, and
the converter only if no reason to give up applies. -/
theorem generate_outcome (options : SizeReportOptions) (tools : Toolset) (h : tools.Confined)
    (time : DateTime) (session : Session) :
    let dumped := dumpStep options tools session
    let refusal := options.refusal? session.files dumped.1 dumped.2.files
    let done := perform (generate options tools time) session
    (match refusal with
      | some e => done.1 = .error e
      | none => ∃ report, done.1 = .ok report) ∧
    done.2.calls = session.calls ++ dumperCalls options session.files ++
      if refusal = none then converterCalls options dumped.2.files else [] := by
  have hmaking := making options time h session
  dsimp only
  generalize perform (generate options tools time) session = done at hmaking ⊢
  cases hmaking with
  | invalid e hvalid =>
    obtain ⟨hrefusal, hdumping⟩ := refusal?_of_invalid hvalid session.files
      (dumpStep options tools session).1 (dumpStep options tools session).2.files
    rw [hrefusal]
    exact ⟨rfl, by simp [dumperCalls, hdumping]⟩
  | noRefresh e dumped hvalid hrefresh =>
    have hcalls := calls_refreshDump h hvalid session
    rw [hrefresh] at hcalls
    rw [refusal?_of_not_refreshed hvalid hrefresh]
    exact ⟨rfl, hcalls.trans (List.append_nil _).symm⟩
  | noDump dumped hvalid hrefresh hdump =>
    have hcalls := calls_refreshDump h hvalid session
    rw [hrefresh] at hcalls
    obtain ⟨hfiles, hrefusal⟩ := refusal?_of_refreshed hvalid hrefresh
    rw [hfiles, hrefusal, if_pos hdump]
    exact ⟨rfl, hcalls.trans (List.append_nil _).symm⟩
  | noMap dumped hvalid hrefresh hdump hmap =>
    have hcalls := calls_refreshDump h hvalid session
    rw [hrefresh] at hcalls
    obtain ⟨hfiles, hrefusal⟩ := refusal?_of_refreshed hvalid hrefresh
    rw [hfiles, hrefusal, if_neg (by simp [hdump]), if_pos hmap]
    exact ⟨rfl, hcalls.trans (List.append_nil _).symm⟩
  | made dumped prepared status events hvalid hrefresh hdump hmap hprepare =>
    have hcalls := calls_refreshDump h hvalid session
    rw [hrefresh] at hcalls
    have hpreparing := preparing options tools dumped
    rw [hprepare] at hpreparing
    have hcalls' := calls_preparing h hpreparing
    obtain ⟨hfiles, hrefusal⟩ := refusal?_of_refreshed hvalid hrefresh
    rw [hfiles, hrefusal, if_neg (by simp [hdump]), if_neg (by simp [hmap])]
    refine ⟨⟨_, rfl⟩, ?_⟩
    rw [if_pos rfl, hcalls', hcalls]

/-- The converter gives up behind a dump, and there is a report all the same. -/
theorem generate_outcome_small :
    let tools : Toolset := .scripted fun
      | .dumper => .writing []
      | .converter => .failing "exit status: 1".toList "bad magic".toList
    let session : Session := ⟨.small [("p", [])], [], []⟩
    let done := perform (generate .small tools .noon) session
    tools.Confined ∧ (∃ report, done.1 = .ok report) ∧
      done.2.calls = [⟨.dumper, "m".toList, "d".toList⟩, ⟨.converter, "m".toList, "t".toList⟩] := by
  intro tools session done
  have hconfined : tools.Confined := Toolset.confined_scripted _
  have h := generate_outcome .small tools hconfined .noon session
  dsimp only at h
  have hrefusal : SizeReportOptions.small.refusal? session.files
      (dumpStep .small tools session).1 (dumpStep .small tools session).2.files = none := by
    decide +kernel
  rw [hrefusal] at h
  exact ⟨hconfined, h.1, h.2.trans (by decide +kernel)⟩

end Run

end BinarySize
