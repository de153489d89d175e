import BinarySize.Files.Path
import BinarySize.Run.Error

/-!
# Options of a run

Where a project keeps its files by convention, and the options of the two kinds of runs, which
follow the convention unless they are told otherwise.
-/

namespace BinarySize

structure ProjectPaths where
  module : Path
  dump : Path
  dumpReport : Path
  map : Path
  moduleText : Path
  sizeReport : Path
  deriving DecidableEq

namespace ProjectPaths

def below (root : Path) : ProjectPaths where
  module := ((root.join "web".toList).join "dist".toList).join "output.gl.wasm".toList
  dump := root.join "output.gl.dwarf.txt".toList
  dumpReport := root.join "output.gl.dwarf.report.txt".toList
  map := root.join "output.gl.map".toList
  moduleText := root.join "output.gl.wat".toList
  sizeReport := root.join "output.gl.size.report.txt".toList

end ProjectPaths

structure DumpReportOptions where
  module : Path
  dump : Path
  report : Path
  skipDump : Bool := false
  deriving DecidableEq

namespace DumpReportOptions

def ofPaths (paths : ProjectPaths) : DumpReportOptions where
  module := paths.module
  dump := paths.dump
  report := paths.dumpReport

end DumpReportOptions

structure SizeReportOptions where
  dump : Path
  map : Path
  module : Option Path
  moduleText : Option Path
  out : Path
  limit : Nat := 20
  snippetLines : Nat := 12
  skipDump : Bool := false
  skipConversion : Bool := false
  deriving DecidableEq

namespace SizeReportOptions

def ofPaths (paths : ProjectPaths) : SizeReportOptions where
  dump := paths.dump
  map := paths.map
  module := some paths.module
  moduleText := some paths.moduleText
  out := paths.sizeReport

def validate (options : SizeReportOptions) : Except RunError Unit :=
  if options.limit = 0 then .error (.invalidArgument "top-n must be at least 1".toList)
  else if options.snippetLines = 0 then
    .error (.invalidArgument "snippet-lines must be at least 1".toList)
  else .ok ()

end SizeReportOptions

end BinarySize
