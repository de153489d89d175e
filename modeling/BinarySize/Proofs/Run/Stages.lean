import BinarySize.Proofs.Tools.Calls
import BinarySize.Run.SizeReport

/-!
# The stages of a run

A run that makes a size report checks its options, has the dump made, looks for its two inputs,
sees to the module text, and reads what it reports on. Here every stage is an equation for what
it answers and leaves, and `perform_generate` puts them in their order.
-/

namespace BinarySize

namespace SizeReportOptions

/-- The places of the inputs of a size report, and of the outputs but the report itself. -/
def places (options : SizeReportOptions) : List Location :=
  options.dump.place :: options.map.place ::
    (options.module.toList ++ options.moduleText.toList).map Path.place

/-- The module and the path for which the converter is called on a tree, if it is called. -/
def conversion? (options : SizeReportOptions) (files : FileTree) : Option (Path × Path) :=
  if options.skipConversion then none
  else options.moduleText.bind fun text =>
    if files.occupied text then none
    else (options.module.filter files.occupied).map fun module => (module, text)

/-- What is said about the module text of a tree when nothing is converted. -/
def standing (options : SizeReportOptions) (files : FileTree) : Option ModuleTextStatus :=
  if options.skipConversion then none
  else options.moduleText.map fun text =>
    if files.occupied text then .existing else .missingModule

end SizeReportOptions

namespace Run

variable (options : SizeReportOptions) (tools : Toolset) (time : DateTime) (session : Session)

/-! ## The dump -/

theorem perform_refreshDump (module : Option Path) (dump : Path) (skip : Bool) :
    perform (refreshDump tools module dump skip) session =
      if skip then
        (.ok (), { session with events := session.events ++ [⟨.debug, target,
          "reusing existing DWARF dump".toList, [("dwarf", .text dump)]⟩] })
      else match module with
        | none => (.error (.invalidArgument
            "a wasm module is required unless the dump step is skipped".toList), session)
        | some module =>
          if session.files.isFile module then perform (tools.call .dumper module dump) session
          else (.error (.missingInput "wasm".toList module), session) := by
  cases skip with
  | true => rfl
  | false =>
    cases module with
    | none => rfl
    | some module =>
      simp only [refreshDump, Bool.false_eq_true, ↓reduceIte, perform_bind, perform_requireFile]
      cases session.files.isFile module <;> rfl

/-! ## The module text -/

theorem perform_prepareModuleText :
    perform (prepareModuleText options tools) session =
      match options.conversion? session.files with
      | none => (.ok (options.standing session.files), session)
      | some (module, text) =>
        match perform (tools.call .converter module text) session with
        | (.ok (), after) => (.ok (some .generated), after)
        | (.error e, after) => (.ok (some (.failed e.message)),
            { after with events := after.events ++ [⟨.warn, target,
              "module text conversion failed".toList, [("error", .text e.message)]⟩] }) := by
  unfold prepareModuleText SizeReportOptions.conversion? SizeReportOptions.standing
  cases options.skipConversion with
  | true => rfl
  | false =>
    cases options.moduleText with
    | none => rfl
    | some text =>
      simp only [Bool.false_eq_true, ↓reduceIte, perform_bind, perform_files, Option.bind_some,
        Option.map_some, perform_ite, perform_pure]
      cases session.files.occupied text with
      | true => rfl
      | false =>
        cases options.module.filter session.files.occupied with
        | none => rfl
        | some module =>
          simp only [Bool.false_eq_true, ↓reduceIte, Option.map_some, perform_bind,
            perform_outcome]
          rcases perform (tools.call .converter module text) session with ⟨answer, after⟩
          cases answer <;> rfl

/-! ## Reading -/

/-- The text of the file at a path. -/
def textAt (files : FileTree) (path : Path) : Text :=
  Octets.decode ((files.content? path).getD [])

def moduleTextOn (options : SizeReportOptions) (status : Option ModuleTextStatus)
    (files : FileTree) : ModuleText :=
  match options.moduleText.filter files.isFile with
  | some text => .available (ModuleSummary.ofText options.snippetLines (textAt files text))
  | none => .unavailable (status.getD .missing)

def HasText (options : SizeReportOptions) (files : FileTree) : Prop :=
  ∃ text, options.moduleText = some text ∧ files.isFile text = true

def reportOn (options : SizeReportOptions) (status : Option ModuleTextStatus) (time : DateTime)
    (files : FileTree) : Report :=
  Report.build
    { dumpPath := options.dump
      mapPath := options.map
      modulePath := options.moduleText
      time
      limit := options.limit
      functions := Dump.functions (textAt files options.dump)
      map := LinkMap.listing (textAt files options.map)
      module := moduleTextOn options status files }

def finish (options : SizeReportOptions) (status : Option ModuleTextStatus) (time : DateTime) :
    Run Report := do
  let functions ← loadFunctions options.dump
  let map ← loadMap options.map
  let module ← loadModuleText options status
  return Report.build
    { dumpPath := options.dump
      mapPath := options.map
      modulePath := options.moduleText
      time
      limit := options.limit
      functions
      map
      module }

section

variable {options} {files : FileTree}

theorem moduleTextOn_of_hasText (h : HasText options files) :
    ∃ text, options.moduleText = some text ∧ files.isFile text = true ∧
      ∀ status, moduleTextOn options status files =
        .available (ModuleSummary.ofText options.snippetLines (textAt files text)) := by
  obtain ⟨text, htext, hfile⟩ := h
  refine ⟨text, htext, hfile, fun status => ?_⟩
  rw [moduleTextOn, htext, Option.filter_some, if_pos hfile]

theorem moduleTextOn_of_not_hasText (h : ¬ HasText options files)
    (status : Option ModuleTextStatus) :
    moduleTextOn options status files = .unavailable (status.getD .missing) := by
  have hnone : options.moduleText.filter files.isFile = none :=
    Option.filter_eq_none_iff.mpr fun text htext hfile => h ⟨text, htext, hfile⟩
  rw [moduleTextOn, hnone]

end

theorem perform_readText_of_isFile {path : Path} (h : session.files.isFile path = true) :
    perform (readText path) session = (.ok (textAt session.files path), session) := by
  obtain ⟨content, hcontent⟩ := Option.isSome_iff_exists.mp h
  rw [perform_readText session hcontent, textAt, hcontent]
  rfl

theorem perform_loadFunctions {dump : Path} (h : session.files.isFile dump = true) :
    ∃ events, perform (loadFunctions dump) session =
      (.ok (Dump.functions (textAt session.files dump)), { session with events }) := by
  simp only [loadFunctions, perform_bind, perform_requireFile, h, ↓reduceIte,
    perform_readText_of_isFile session h, perform_log, perform_pure]
  exact ⟨_, rfl⟩

theorem perform_loadMap {map : Path} (h : session.files.isFile map = true) :
    ∃ events, perform (loadMap map) session =
      (.ok (LinkMap.listing (textAt session.files map)), { session with events }) := by
  simp only [loadMap, perform_bind, perform_readText_of_isFile session h, perform_log,
    perform_pure]
  exact ⟨_, rfl⟩

theorem perform_loadModuleText (status : Option ModuleTextStatus) :
    ∃ events, perform (loadModuleText options status) session =
      (.ok (moduleTextOn options status session.files), { session with events }) := by
  unfold loadModuleText moduleTextOn
  simp only [perform_bind, perform_files]
  cases htext : options.moduleText.filter session.files.isFile with
  | none => exact ⟨_, rfl⟩
  | some text =>
    have hfile : session.files.isFile text = true := (Option.filter_eq_some_iff.mp htext).2
    simp only [loadSummary, perform_bind, perform_readText_of_isFile session hfile, perform_log,
      perform_pure]
    exact ⟨_, rfl⟩

theorem perform_finish (status : Option ModuleTextStatus)
    (hdump : session.files.isFile options.dump = true)
    (hmap : session.files.isFile options.map = true) :
    ∃ events, perform (finish options status time) session =
      (.ok (reportOn options status time session.files), { session with events }) := by
  obtain ⟨events, hfunctions⟩ := perform_loadFunctions session hdump
  obtain ⟨events', hlisting⟩ := perform_loadMap { session with events } hmap
  obtain ⟨events'', htext⟩ :=
    perform_loadModuleText options { session with events := events' } status
  refine ⟨events'', ?_⟩
  simp only [finish, perform_bind, hfunctions, hlisting, htext, perform_pure]
  rfl

/-! ## The whole run -/

theorem generate_eq :
    generate options tools time = (do
      MonadExcept.ofExcept options.validate
      refreshDump tools options.module options.dump options.skipDump
      requireFile "dwarf text" options.dump
      requireFile "map" options.map
      let status ← prepareModuleText options tools
      finish options status time) := rfl

/-- The stages of making a size report, in their order. -/
theorem perform_generate :
    perform (generate options tools time) session =
      match options.validate with
      | .error e => (.error e, session)
      | .ok () =>
        match perform (refreshDump tools options.module options.dump options.skipDump) session with
        | (.error e, dumped) => (.error e, dumped)
        | (.ok (), dumped) =>
          if dumped.files.isFile options.dump = false then
            (.error (.missingInput "dwarf text".toList options.dump), dumped)
          else if dumped.files.isFile options.map = false then
            (.error (.missingInput "map".toList options.map), dumped)
          else
            match perform (prepareModuleText options tools) dumped with
            | (.error e, prepared) => (.error e, prepared)
            | (.ok status, prepared) => perform (finish options status time) prepared := by
  rw [generate_eq]
  simp only [perform_bind, perform_ofExcept, perform_requireFile]
  cases options.validate with
  | error e => rfl
  | ok _ =>
    dsimp only
    generalize perform (refreshDump tools options.module options.dump options.skipDump) session
      = refreshed
    obtain ⟨answer, dumped⟩ := refreshed
    cases answer with
    | error e => rfl
    | ok _ =>
      dsimp only
      cases dumped.files.isFile options.dump with
      | false => rfl
      | true =>
        simp only [↓reduceIte, Bool.true_eq_false]
        cases dumped.files.isFile options.map with
        | false => rfl
        | true =>
          simp only [↓reduceIte, Bool.true_eq_false]
          rcases perform (prepareModuleText options tools) dumped with ⟨answer, prepared⟩
          cases answer <;> rfl

variable {tools} {session}

/-- A run that gets through its first stages makes the report of the tree that they leave. -/
theorem perform_generate_of_stages {dumped prepared : Session} {status : Option ModuleTextStatus}
    (hvalid : options.validate = .ok ())
    (hrefresh : perform (refreshDump tools options.module options.dump options.skipDump) session
      = (.ok (), dumped))
    (hprepare : perform (prepareModuleText options tools) dumped = (.ok status, prepared))
    (hdump : dumped.files.isFile options.dump = true ∧ prepared.files.isFile options.dump = true)
    (hmap : dumped.files.isFile options.map = true ∧ prepared.files.isFile options.map = true) :
    ∃ events, perform (generate options tools time) session =
      (.ok (reportOn options status time prepared.files), { prepared with events }) := by
  obtain ⟨events, hfinish⟩ := perform_finish options time prepared status hdump.2 hmap.2
  refine ⟨events, ?_⟩
  rw [perform_generate]
  simp only [hvalid, hrefresh, hdump.1, hmap.1, hprepare, Bool.true_eq_false, ↓reduceIte]
  exact hfinish

/-! ## Confined tools -/

theorem onlyWrites_refreshDump (h : tools.Confined) (module : Option Path) (dump : Path)
    (skip : Bool) (session : Session) : FileTree.OnlyWrites dump session.files
      (perform (refreshDump tools module dump skip) session).2.files := by
  have hrefl := FileTree.OnlyWrites.refl dump session.files
  rw [perform_refreshDump]
  cases skip with
  | true => exact hrefl
  | false =>
    cases module with
    | none => exact hrefl
    | some module =>
      simp only [Bool.false_eq_true, ↓reduceIte]
      split
      · exact h.files .dumper module dump _
      · exact hrefl

/-- What seeing to the module text may come to. -/
inductive Preparing (options : SizeReportOptions) (tools : Toolset) (session : Session) :
    Except RunError (Option ModuleTextStatus) × Session → Prop
  | standing (h : options.conversion? session.files = none) :
      Preparing options tools session (.ok (options.standing session.files), session)
  | generated (module text : Path) (after : Session)
      (h : options.conversion? session.files = some (module, text))
      (hcall : perform (tools.call .converter module text) session = (.ok (), after)) :
      Preparing options tools session (.ok (some .generated), after)
  | failed (module text : Path) (e : RunError) (after : Session) (events : List LogEvent)
      (h : options.conversion? session.files = some (module, text))
      (hcall : perform (tools.call .converter module text) session = (.error e, after)) :
      Preparing options tools session
        (.ok (some (.failed e.message)), { after with events })

theorem preparing (options : SizeReportOptions) (tools : Toolset) (session : Session) :
    Preparing options tools session (perform (prepareModuleText options tools) session) := by
  rw [perform_prepareModuleText]
  cases h : options.conversion? session.files with
  | none => exact .standing h
  | some found =>
    obtain ⟨module, text⟩ := found
    dsimp only
    cases hcall : perform (tools.call .converter module text) session with
    | mk answer after =>
      cases answer with
      | ok _ => exact .generated module text after h hcall
      | error e => exact .failed module text e after _ h hcall

theorem conversion?_eq_some_iff {options : SizeReportOptions} {files : FileTree}
    {module text : Path} :
    options.conversion? files = some (module, text) ↔
      options.skipConversion = false ∧ options.moduleText = some text ∧
        files.occupied text = false ∧ options.module = some module ∧
        files.occupied module = true := by
  unfold SizeReportOptions.conversion?
  cases options.skipConversion with
  | true => simp
  | false =>
    cases options.moduleText with
    | none => simp
    | some path =>
      cases hoccupied : files.occupied path with
      | true =>
        simp only [Bool.false_eq_true, ↓reduceIte, Option.bind_some, hoccupied, reduceCtorEq,
          true_and, Option.some.injEq, false_iff]
        rintro ⟨rfl, hfree, -⟩
        rw [hoccupied] at hfree
        cases hfree
      | false =>
        simp only [Bool.false_eq_true, ↓reduceIte, Option.bind_some, hoccupied,
          Option.map_eq_some_iff, Option.filter_eq_some_iff, Prod.mk.injEq, true_and,
          Option.some.injEq]
        constructor
        · rintro ⟨_, ⟨hmodule, hthere⟩, rfl, rfl⟩
          exact ⟨rfl, hoccupied, hmodule, hthere⟩
        · rintro ⟨rfl, -, hmodule, hthere⟩
          exact ⟨_, ⟨hmodule, hthere⟩, rfl, rfl⟩

/-- Seeing to the module text leaves all files alone unless it has one made, and then writes
nothing but that. -/
theorem onlyWrites_preparing (hconfined : tools.Confined) {answer : Except RunError _}
    {after : Session} (h : Preparing options tools session (answer, after)) :
    after.files = session.files ∨ ∃ module text,
      options.conversion? session.files = some (module, text) ∧
      FileTree.OnlyWrites text session.files after.files := by
  cases h with
  | standing => exact .inl rfl
  | generated module text after h hcall | failed module text e after events h hcall =>
    exact .inr ⟨module, text, h, (hconfined.of_call hcall).2⟩

theorem isFile_preparing (hconfined : tools.Confined) {answer : Except RunError _}
    {after : Session} (h : Preparing options tools session (answer, after)) {path : Path}
    (hpath : session.files.isFile path = true) : after.files.isFile path = true := by
  rcases onlyWrites_preparing options hconfined h with hfiles | ⟨_, _, -, hfiles⟩
  · rw [hfiles]
    exact hpath
  · exact hfiles.isFile hpath

inductive Making (options : SizeReportOptions) (tools : Toolset) (time : DateTime)
    (session : Session) : Except RunError Report × Session → Prop
  | invalid (e : RunError) (h : options.validate = .error e) :
      Making options tools time session (.error e, session)
  | noRefresh (e : RunError) (dumped : Session) (hvalid : options.validate = .ok ())
      (hrefresh : perform (refreshDump tools options.module options.dump options.skipDump) session
        = (.error e, dumped)) :
      Making options tools time session (.error e, dumped)
  | noDump (dumped : Session) (hvalid : options.validate = .ok ())
      (hrefresh : perform (refreshDump tools options.module options.dump options.skipDump) session
        = (.ok (), dumped))
      (hdump : dumped.files.isFile options.dump = false) :
      Making options tools time session
        (.error (.missingInput "dwarf text".toList options.dump), dumped)
  | noMap (dumped : Session) (hvalid : options.validate = .ok ())
      (hrefresh : perform (refreshDump tools options.module options.dump options.skipDump) session
        = (.ok (), dumped))
      (hdump : dumped.files.isFile options.dump = true)
      (hmap : dumped.files.isFile options.map = false) :
      Making options tools time session
        (.error (.missingInput "map".toList options.map), dumped)
  | made (dumped prepared : Session) (status : Option ModuleTextStatus) (events : List LogEvent)
      (hvalid : options.validate = .ok ())
      (hrefresh : perform (refreshDump tools options.module options.dump options.skipDump) session
        = (.ok (), dumped))
      (hdump : dumped.files.isFile options.dump = true)
      (hmap : dumped.files.isFile options.map = true)
      (hprepare : perform (prepareModuleText options tools) dumped = (.ok status, prepared)) :
      Making options tools time session
        (.ok (reportOn options status time prepared.files), { prepared with events })

/-- With confined tools both inputs are still there when they are read. -/
theorem making (h : tools.Confined) (session : Session) :
    Making options tools time session (perform (generate options tools time) session) := by
  have hstages := perform_generate options tools time session
  cases hvalid : options.validate with
  | error e =>
    rw [hstages, hvalid]
    exact .invalid e hvalid
  | ok _ =>
    cases hrefresh : perform (refreshDump tools options.module options.dump options.skipDump)
        session with
    | mk answer dumped =>
      cases answer with
      | error e =>
        rw [hstages, hvalid, hrefresh]
        exact .noRefresh e dumped hvalid hrefresh
      | ok _ =>
        simp only [hvalid, hrefresh] at hstages
        cases hdump : dumped.files.isFile options.dump with
        | false =>
          rw [hstages, if_pos hdump]
          exact .noDump dumped hvalid hrefresh hdump
        | true =>
          cases hmap : dumped.files.isFile options.map with
          | false =>
            rw [hstages, hdump, if_neg Bool.false_ne_true.symm, if_pos hmap]
            exact .noMap dumped hvalid hrefresh hdump hmap
          | true =>
            have hpreparing := preparing options tools dumped
            cases hprepare : perform (prepareModuleText options tools) dumped with
            | mk answer prepared =>
              rw [hprepare] at hpreparing
              obtain ⟨status, rfl⟩ : ∃ status, answer = .ok status := by
                cases hpreparing with
                | _ => exact ⟨_, rfl⟩
              obtain ⟨events, hmade⟩ :=
                perform_generate_of_stages options time hvalid hrefresh hprepare
                  ⟨hdump, isFile_preparing options h hpreparing hdump⟩
                  ⟨hmap, isFile_preparing options h hpreparing hmap⟩
              rw [hmade]
              exact .made dumped prepared status events hvalid hrefresh hdump hmap hprepare

end Run

/-! ## A small project -/

def SizeReportOptions.small : SizeReportOptions where
  dump := "d".toList
  map := "p".toList
  module := some "m".toList
  moduleText := some "t".toList
  out := "o".toList

/-- The directory of that project, with a module and what else is given by names and contents. -/
def FileTree.small (others : List (String × Octets)) : FileTree :=
  ⟨(("m", []) :: others).map fun (name, content) => ([name.toList], .file content)⟩

/-- A dumper that prints one line, and a converter that always does the same. -/
def Installation.small (converted : ProgramRun) : Tool → Installation
  | .dumper => .program fun _ _ => { printed := Text.toOctets "empty\n".toList }
  | .converter => .program fun _ _ => converted

def DateTime.noon : DateTime := ⟨2024, 5, 1, 12, 0, 0, 0⟩

end BinarySize
