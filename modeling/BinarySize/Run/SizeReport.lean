import BinarySize.Report.Build
import BinarySize.Run.DumpReport

/-!
# Making a size report

The run that puts the dump, the linker map and the module text together. The first two are
needed. The module text is not: where there is none and none can be made, the report says why.
-/

namespace BinarySize.Run

/-- Sees to it that there is a module text, if one is wanted and none is there, and says how
that went. Nothing is said if none is wanted. -/
def prepareModuleText (options : SizeReportOptions) (tools : Toolset) :
    Run (Option ModuleTextStatus) := do
  if options.skipConversion then return none
  let some text := options.moduleText | return none
  let files ← files
  if files.occupied text then return some .existing
  match options.module.filter files.occupied with
  | none => return some .missingModule
  | some module =>
    match ← outcome (tools.call .converter module text) with
    | .ok () => return some .generated
    | .error e =>
      log ⟨.warn, target, "module text conversion failed".toList, [("error", .text e.message)]⟩
      return some (.failed e.message)

def loadMap (map : Path) : Run LinkMap.Listing := do
  let listing := LinkMap.listing (← readText map)
  log ⟨.debug, "sizelens_core::map", "parsed linker map".toList,
    [("sections", .count listing.totals.size), ("symbols", .count listing.symbols.length)]⟩
  pure listing

def loadSummary (limit : Nat) (text : Path) : Run ModuleSummary := do
  let summary := ModuleSummary.ofText limit (← readText text)
  log ⟨.debug, "sizelens_core::module_text", "summarized module text".toList,
    [("functions", .count summary.functions.length)]⟩
  pure summary

/-- The module text for the report: what stands at its path now, whatever was said before. -/
def loadModuleText (options : SizeReportOptions) (status : Option ModuleTextStatus) :
    Run ModuleText := do
  match options.moduleText.filter (← files).isFile with
  | some text => return .available (← loadSummary options.snippetLines text)
  | none => return .unavailable (status.getD .missing)

/-- Makes the size report without writing it. -/
def generate (options : SizeReportOptions) (tools : Toolset) (time : DateTime) : Run Report := do
  MonadExcept.ofExcept options.validate
  refreshDump tools options.module options.dump options.skipDump
  requireFile "dwarf text" options.dump
  requireFile "map" options.map
  let status ← prepareModuleText options tools
  let functions ← loadFunctions options.dump
  let map ← loadMap options.map
  let module ← loadModuleText options status
  return Report.build
    { dumpPath := options.dump
      mapPath := options.map
      modulePath := options.moduleText
      time
      limit := options.limit
      functions
      map
      module }

def sizeReport (options : SizeReportOptions) (tools : Toolset) (time : DateTime) :
    Run Report := do
  let report ← generate options tools time
  writeText options.out report.text
  log ⟨.info, target, "wrote size report".toList, [("report", .text options.out)]⟩
  pure report

end BinarySize.Run
