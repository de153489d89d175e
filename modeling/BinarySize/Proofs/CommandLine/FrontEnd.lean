import BinarySize.CommandLine.Execute
import BinarySize.Log.Directive
import BinarySize.Proofs.CommandLine.Grammar
import BinarySize.Proofs.Report.Lines
import BinarySize.Proofs.Run.FilesOnly

/-!
# The program in front of the runs

Given arguments that write a request, the program makes the run of that request and tells how it
ended. Proved here:

* `setsDumpReport`, `setsSizeReport`: every option of the run is what is given for it, and else the
  usual one below the root;
* `execute_relays`: the program leaves the files of the run, and prints one line or says why the
  run failed, unless the reader of filters breaks down, whatever that reader is;
* `log_breaks`: the reader of directives does, on a filter with a cut inside a character.
-/

namespace BinarySize.CommandLine

open Text

/-! ## Options -/

section

variable {α : Type}

/-- What an option says: what its value is read as if it is given, and the usual thing if not. -/
inductive Given.Says (given : Given) (switch : Switch) (read? : Text → Option α) (usual : α) :
    α → Prop
  | given {value : Text} {a : α} (h : (switch, value) ∈ given) (hread : read? value = some a) :
      Says given switch read? usual a
  | usual (h : ∀ value, (switch, value) ∉ given) : Says given switch read? usual usual

end

structure Given.SetsDumpReport (given : Given) (paths : ProjectPaths)
    (options : DumpReportOptions) : Prop where
  module : given.Says .module some paths.module options.module
  dump : given.Says .dump some paths.dump options.dump
  report : given.Says .report some paths.dumpReport options.report
  skipDump : options.skipDump = true ↔ ∃ value, (.skipDump, value) ∈ given

structure Given.SetsSizeReport (given : Given) (paths : ProjectPaths)
    (options : SizeReportOptions) : Prop where
  dump : given.Says .dump some paths.dump options.dump
  map : given.Says .map some paths.map options.map
  module : ∃ path, options.module = some path ∧ given.Says .module some paths.module path
  moduleText : ∃ path, options.moduleText = some path ∧
    given.Says .moduleText some paths.moduleText path
  out : given.Says .out some paths.sizeReport options.out
  limit : given.Says .limit (Number.read? 10) 20 options.limit
  snippetLines : given.Says .snippetLines (Number.read? 10) 12 options.snippetLines
  skipDump : options.skipDump = true ↔ ∃ value, (.skipDump, value) ∈ given
  skipConversion : options.skipConversion = true ↔ ∃ value, (.skipConversion, value) ∈ given

namespace Given

variable {given : Given} {switch : Switch}

theorem mem_of_lookup {value : Text} (h : given.lookup switch = some value) :
    (switch, value) ∈ given := by
  obtain ⟨front, back, rfl, -⟩ := List.lookup_eq_some_iff.mp h
  simp

theorem not_mem_of_lookup (h : given.lookup switch = none) (value : Text) :
    (switch, value) ∉ given :=
  fun hmem => bne_iff_ne.mp (List.lookup_eq_none_iff.mp h _ hmem) rfl

theorem says_path (usual : Path) : given.Says switch some usual (given.path switch usual) := by
  unfold path
  cases h : given.lookup switch with
  | none => exact .usual (not_mem_of_lookup h)
  | some value => exact .given (mem_of_lookup h) rfl

theorem says_number (usual : Nat)
    (hread : ∀ value, (switch, value) ∈ given → (Number.read? 10 value).isSome) :
    given.Says switch (Number.read? 10) usual (given.number switch usual) := by
  unfold number
  cases h : given.lookup switch with
  | none => exact .usual (not_mem_of_lookup h)
  | some value =>
    obtain ⟨n, hn⟩ := Option.isSome_iff_exists.mp (hread value (mem_of_lookup h))
    refine .given (mem_of_lookup h) ?_
    rw [Option.bind_some, hn]
    rfl

theorem has_iff : given.has switch = true ↔ ∃ value, (switch, value) ∈ given := by
  unfold has
  cases h : given.lookup switch with
  | none => simpa using not_mem_of_lookup h
  | some value => simpa using ⟨value, mem_of_lookup h⟩

theorem IsWritten.accepts {verb : Option Verb} {ending arguments : List Text}
    (h : given.IsWritten verb ending arguments) {value : Text} (hmem : (switch, value) ∈ given) :
    switch.accepts value = true := by
  induction h with
  | nil => cases hmem
  | cons hswitch haccepts hwords h ih =>
    rcases List.mem_cons.mp hmem with heq | hmem
    · cases heq
      exact haccepts
    · exact ih hmem

end Given

section

variable {request : Request} {arguments : List Text}

theorem says_root (request : Request) :
    ∃ root, request.behind.Says .root some ".".toList root ∧ request.paths = .below root :=
  ⟨_, Given.says_path _, rfl⟩

theorem setsDumpReport (request : Request) :
    request.behind.SetsDumpReport request.paths request.dumpReportOptions :=
  ⟨Given.says_path _, Given.says_path _, Given.says_path _, Given.has_iff⟩

theorem setsSizeReport (h : request.IsWritten arguments) :
    request.behind.SetsSizeReport request.paths request.sizeReportOptions := by
  obtain ⟨-, hbehind, -, -⟩ := h
  exact ⟨Given.says_path _, Given.says_path _, ⟨_, rfl, Given.says_path _⟩,
    ⟨_, rfl, Given.says_path _⟩, Given.says_path _, Given.says_number _ fun _ => hbehind.accepts,
    Given.says_number _ fun _ => hbehind.accepts, Given.has_iff, Given.has_iff⟩

end

/-! ## Outcomes -/

/-- The program relays a run: it leaves the files of the run, and prints one line about what the
run answers or says why it failed. -/
structure Relays {α : Type} (outcome : Outcome) (ran : Except RunError α × Session)
    (line : α → Text) : Prop where
  files : outcome.files = ran.2.files
  made : ∀ a, ran.1 = .ok a → outcome.status = 0 ∧ outcome.printed = line a ++ ['\n'] ∧
    '\n' ∉ line a ∧ outcome.complaint = none
  failed : ∀ e, ran.1 = .error e → outcome.status = 1 ∧ outcome.printed = [] ∧
    outcome.complaint = some ("Error: ".toList ++ e.message ++ ['\n'])

section

variable {request : Request} {tools : Toolset} {time : DateTime} {files : FileTree}
  {session : Session}

theorem perform_of_made {line : Text} (filter : LogFilter)
    (h : BinarySize.perform (run request tools time) { files } = (.ok line, session)) :
    perform request tools time filter files =
      { status := 0
        printed := line
        events := session.events.filter filter
        files := session.files } := by
  have hrun : ((run request tools time).run).run { files } = (.ok line, session) := h
  rw [perform, hrun]

theorem perform_of_failed {e : RunError} (filter : LogFilter)
    (h : BinarySize.perform (run request tools time) { files } = (.error e, session)) :
    perform request tools time filter files =
      { status := 1
        complaint := some ("Error: ".toList ++ e.message ++ ['\n'])
        events := (session.events ++ [failureEvent e]).filter filter
        files := session.files } := by
  have hrun : ((run request tools time).run).run { files } = (.error e, session) := h
  rw [perform, hrun]

theorem relays_perform {α : Type} {event : LogEvent} {ran : Run α} {line : α → Text}
    (hrun : run request tools time = do
      Run.log event
      let a ← ran
      return line a ++ ['\n'])
    (hfiles : ran.FilesOnly) (hline : ∀ a, '\n' ∉ line a) (filter : LogFilter) :
    Relays (perform request tools time filter files) (BinarySize.perform ran { files }) line := by
  obtain ⟨hanswer, hleft⟩ := @hfiles { files } { files, events := [event] } rfl
  have hbehind : BinarySize.perform (run request tools time) { files } =
      BinarySize.perform (do
        let a ← ran
        return line a ++ ['\n']) { files, events := [event] } := by
    rw [hrun, perform_bind, Run.perform_log]
    rfl
  rw [perform_bind] at hbehind
  generalize BinarySize.perform ran { files, events := [event] } = ended at *
  obtain ⟨answer, left⟩ := ended
  cases answer with
  | ok a =>
    rw [perform_of_made filter hbehind]
    refine ⟨hleft.symm, ?made, ?failed⟩
    case made =>
      intro b hb
      cases hb.symm.trans hanswer
      exact ⟨rfl, rfl, hline a, rfl⟩
    case failed =>
      intro e he
      cases he.symm.trans hanswer
  | error e =>
    rw [perform_of_failed filter hbehind]
    refine ⟨hleft.symm, ?made, ?failed⟩
    case made =>
      intro b hb
      cases hb.symm.trans hanswer
    case failed =>
      intro e' he
      cases he.symm.trans hanswer
      exact ⟨rfl, rfl, rfl⟩

end

/-! ## The log -/

/-- The log cannot be set up: no level is among the arguments, and the reader of filters breaks
down on the filter of the environment. -/
def Environment.BreaksLog (environment : Environment) (readFilter : LogFilter.Reader)
    (level : Option LogLevel) : Prop :=
  level = none ∧
    ∃ written, environment.logFilter = some written ∧ readFilter written = .error .breakdown

theorem filter?_eq_none_iff (environment : Environment) (readFilter : LogFilter.Reader)
    (level : Option LogLevel) :
    environment.filter? readFilter level = none ↔ environment.BreaksLog readFilter level := by
  unfold Environment.filter? Environment.BreaksLog
  split
  · simp
  · next h => simp [h]
  · next written h =>
    simp only [h, Option.some.injEq, exists_eq_left', true_and]
    split
    · next hread => simp [hread]
    · next hread => simp [hread]
    · next hread => simp [hread]

/-! ## The program -/

theorem lf_not_mem_join {path : Path} {name : Text} (hpath : '\n' ∉ path) (hname : '\n' ∉ name) :
    '\n' ∉ path.join name := by
  unfold Path.join
  split
  · simp [hpath, hname]
  · simp [hpath, hname]

theorem lf_not_mem_of_option {given : Given} {switch : Switch} {usual path : Path}
    (h : given.Says switch some usual path)
    (hgiven : ∀ value, (switch, value) ∈ given → '\n' ∉ value) (husual : '\n' ∉ usual) :
    '\n' ∉ path := by
  cases h with
  | given hmem hread =>
    cases hread
    exact hgiven _ hmem
  | usual => exact husual

/-- No line feed is in any path at which the program says that it wrote a report. -/
structure Request.Plain (request : Request) : Prop where
  root : ∀ value, (.root, value) ∈ request.behind → '\n' ∉ value
  report : ∀ value, (.report, value) ∈ request.behind → '\n' ∉ value
  out : ∀ value, (.out, value) ∈ request.behind → '\n' ∉ value

theorem Request.Plain.below {request : Request} (h : request.Plain) {name : Text}
    (hname : '\n' ∉ name) {root : Path} (hroot : request.behind.Says .root some ".".toList root) :
    '\n' ∉ root.join name :=
  lf_not_mem_join (lf_not_mem_of_option hroot h.root (by decide)) hname

/-- **The program is a front end.** Whatever arguments write a request and however filters are
read, the program makes its run with the options that the arguments set, and relays how it ended;
it breaks down before that, and touches no file, only if the log cannot be set up. -/
theorem execute_relays (readFilter : LogFilter.Reader) (installation : Tool → Installation)
    (environment : Environment) (time : DateTime) {arguments : List Text} {request : Request}
    (haccepted : Request.read arguments = .ok request) (hlog : environment.logFile = none)
    (hplain : request.Plain) (files : FileTree) :
    let tools := Toolset.installed installation
    let outcome := execute readFilter tools environment time arguments files
    request.IsWritten arguments ∧
      (environment.BreaksLog readFilter request.level? →
        outcome.status = 101 ∧ outcome.printed = [] ∧ outcome.files = files) ∧
      (¬ environment.BreaksLog readFilter request.level? →
        ∃ root, request.behind.Says .root some ".".toList root ∧
          match request.verb with
          | .dump => ∃ options, request.behind.SetsDumpReport (.below root) options ∧
            Relays outcome (BinarySize.perform (Run.dumpReport options tools) { files })
              fun functions => decimal functions.length ++ " functions -> ".toList ++ options.report
          | .merge => ∃ options, request.behind.SetsSizeReport (.below root) options ∧
            Relays outcome (BinarySize.perform (Run.sizeReport options tools time) { files })
              fun _ => options.out) := by
  intro tools outcome
  have hwritten := read_eq_ok_iff.mp haccepted
  refine ⟨hwritten, fun hbreaks => ?_, fun hsound => ?_⟩
  · have hbroken : outcome = brokenDown files := by
      simp only [outcome, execute, haccepted, (filter?_eq_none_iff _ _ _).mpr hbreaks]
    rw [hbroken]
    exact ⟨rfl, rfl, rfl⟩
  · obtain ⟨filter, hfilter⟩ :=
      Option.ne_none_iff_exists'.mp fun hnone => hsound ((filter?_eq_none_iff _ _ _).mp hnone)
    have hperform : outcome = perform request tools time filter files := by
      simp only [outcome, execute, haccepted, hfilter, hlog]
    obtain ⟨root, hroot, hbelow⟩ := says_root request
    have hdump := setsDumpReport request
    have hsize := setsSizeReport hwritten
    have htools := Toolset.filesOnly_installed installation
    rw [hbelow] at hdump hsize
    refine ⟨root, hroot, ?_⟩
    rw [hperform]
    cases hverb : request.verb with
    | dump =>
      have hreport := lf_not_mem_of_option hdump.report hplain.report
        (hplain.below (by decide) hroot)
      refine ⟨_, hdump, relays_perform (by rw [run, hverb]) ?_ ?_ filter⟩
      · exact Run.filesOnly_dumpReport htools _
      · intro functions
        simp [hreport]
    | merge =>
      have hout := lf_not_mem_of_option hsize.out hplain.out (hplain.below (by decide) hroot)
      refine ⟨_, hsize, relays_perform (by rw [run, hverb]) ?_ ?_ filter⟩
      · exact Run.filesOnly_sizeReport htools _ _
      · exact fun _ => hout

/-- A limit of zero can be asked for, but no run accepts it. -/
theorem execute_relays_zero :
    let arguments := ["--log-level", "warn", "merge", "--top-n=0", "--root", "p"].map String.toList
    let request : Request := ⟨.merge, [(.logLevel, "warn".toList)],
      [(.limit, "0".toList), (.root, "p".toList)]⟩
    let outcome :=
      execute LogDirective.readFilter (.installed (Installation.small {})) {} .noon arguments {}
    Request.read arguments = .ok request ∧ request.Plain ∧
      ¬ Environment.BreaksLog {} LogDirective.readFilter request.level? ∧
      outcome.status = 1 ∧ outcome.printed = [] ∧ outcome.files = {} ∧
      outcome.complaint =
        some "Error: Invalid argument: top-n must be at least 1\n".toList := by
  intro arguments request outcome
  have haccepted : Request.read arguments = .ok request := by decide +kernel
  have hplain : request.Plain := by
    constructor <;> simp [request]
  have hsound : ¬ Environment.BreaksLog {} LogDirective.readFilter request.level? := by
    rw [← filter?_eq_none_iff]
    decide +kernel
  obtain ⟨-, -, hrelays⟩ :=
    execute_relays LogDirective.readFilter (Installation.small {}) {} .noon haccepted rfl hplain {}
  obtain ⟨root, -, options, hoptions, hfiles, -, hfailed⟩ := hrelays hsound
  have hlimit : options.limit = 0 := by
    have hset := hoptions.limit
    generalize options.limit = limit at hset
    cases hset with
    | given hmem hread =>
      obtain rfl : _ = "0".toList := by simpa [request] using hmem
      exact (Option.some.inj hread).symm
    | usual h => exact absurd List.mem_cons_self (h "0".toList)
  have hrun : BinarySize.perform (Run.sizeReport options (.installed (Installation.small {})) .noon)
      { files := {} } =
        (.error (.invalidArgument "top-n must be at least 1".toList), { files := {} }) := by
    simp only [Run.sizeReport, Run.generate, SizeReportOptions.validate, hlimit, perform_bind,
      perform_ofExcept, if_true]
  obtain ⟨hstatus, hprinted, hcomplaint⟩ := hfailed _ (congrArg Prod.fst hrun)
  have hleft := hfiles.trans (congrArg (·.2.files) hrun)
  exact ⟨haccepted, hplain, hsound, hstatus, hprinted, hleft, hcomplaint⟩

/-- A filter with a cut inside a character, where the reader of directives breaks down, ends the
program before the run, which would have said what is missing. -/
theorem log_breaks :
    let arguments := ["dwarf", "--root", "nope", "--skip-dump"].map String.toList
    let request : Request := ⟨.dump, [], [(.root, "nope".toList), (.skipDump, [])]⟩
    let environment : Environment := { logFilter := some " é=debug".toList }
    let tools := Toolset.installed (Installation.small {})
    let outcome := execute LogDirective.readFilter tools environment .noon arguments {}
    Request.read arguments = .ok request ∧ request.Plain ∧ environment.logFile = none ∧
      (BinarySize.perform (Run.dumpReport request.dumpReportOptions tools) { files := {} }).1 =
        .error (.missingInput "dwarf text".toList "nope/output.gl.dwarf.txt".toList) ∧
      outcome.status = 101 ∧ outcome.complaint = some "The log cannot be set up\n".toList := by
  intro arguments request environment tools outcome
  have hplain : request.Plain := by
    constructor <;> simp [request]
  exact ⟨by decide +kernel, hplain, rfl, by decide +kernel, by decide +kernel, by decide +kernel⟩

end BinarySize.CommandLine
