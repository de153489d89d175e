import BinarySize.Dump.Entry
import BinarySize.Dump.Table
import BinarySize.Run.Options
import BinarySize.Tools.Basic

/-!
# Reporting on a dump

The run that has the debug information of a module dumped, unless an earlier dump is to be used
again, and writes the table of its functions.
-/

namespace BinarySize.Run

def target : String := "sizelens_core::pipeline"

/-- Has a module dumped unless the dump is to be used again. -/
def refreshDump (tools : Toolset) (module : Option Path) (dump : Path) (skip : Bool) :
    Run Unit := do
  if skip then
    log ⟨.debug, target, "reusing existing DWARF dump".toList, [("dwarf", .text dump)]⟩
  else
    match module with
    | none =>
      throw (.invalidArgument
        "a wasm module is required unless the dump step is skipped".toList)
    | some module =>
      requireFile "wasm" module
      tools.call .dumper module dump

def loadFunctions (dump : Path) : Run (List SizedFunction) := do
  requireFile "dwarf text" dump
  let functions := Dump.functions (← readText dump)
  log ⟨.debug, "sizelens_core::dwarf", "extracted function size records".toList,
    [("count", .count functions.length)]⟩
  pure functions

/-- Writes the table of the functions of a dump, and answers with them. -/
def dumpReport (options : DumpReportOptions) (tools : Toolset) : Run (List SizedFunction) := do
  refreshDump tools (some options.module) options.dump options.skipDump
  let functions ← loadFunctions options.dump
  writeText options.report (Dump.table options.dump functions)
  log ⟨.info, target, "wrote DWARF report".toList,
    [("count", .count functions.length), ("report", .text options.report)]⟩
  pure functions

end BinarySize.Run
