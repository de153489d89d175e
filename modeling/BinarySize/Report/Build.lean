import BinarySize.ByteSize.Kilobytes
import BinarySize.Dump.Function
import BinarySize.ModuleText.Summary
import BinarySize.Ranking
import BinarySize.Report.Basic
import BinarySize.Report.DateTime

/-!
# The size report

The report has a fixed shape: the largest functions, the totals of the sections, the largest
symbols of four sections, the largest object files of the code section, and then either what the
module text says or why there is none. A ranked list with nothing in it says so.
-/

namespace BinarySize

open Text

/-- All that a size report is made from. The functions come in report order. -/
structure ReportInput where
  dumpPath : Text
  mapPath : Text
  modulePath : Option Text
  time : DateTime
  limit : Nat
  functions : List SizedFunction
  map : LinkMap.Listing
  module : ModuleText
  deriving DecidableEq

namespace Report

def preambleOf (input : ReportInput) : List Text :=
  ["sizelens size report".toList,
   "Time: ".toList ++ input.time.text,
   "DWARF: ".toList ++ input.dumpPath,
   "Map: ".toList ++ input.mapPath]
    ++ input.modulePath.toList.map ("WAT: ".toList ++ ·)

def sizeColumns (bytesWidth : Nat) (size : ByteSize) : Text :=
  padLeft bytesWidth size.bytesLabel ++ "  ".toList ++ padLeft 9 size.kilobytesLabel

def entryStart (numberWidth number : Nat) (size : ByteSize) : Text :=
  padLeft numberWidth (decimal number) ++ ". ".toList ++ sizeColumns 7 size ++ "  ".toList

/-- The lines of a numbered list, or one line that says that it is empty. -/
def numbered (line : Nat → α → Text) : List α → List Text
  | [] => ["(no entries)".toList]
  | entries => entries.zipIdx.map fun (entry, index) => line (index + 1) entry

def functionSection (functions : List SizedFunction) : ReportSection where
  title := "DWARF Top Functions".toList
  lines := numbered
    (fun number f => entryStart 3 number f.size ++ f.location ++ "  ".toList ++ f.name) functions

def summaryOrder : List String :=
  ["CODE", ".rodata", ".data", ".bss", "CUSTOM(name)", "CUSTOM(producers)",
   "CUSTOM(target_features)", "TYPE", "IMPORT", "EXPORT", "ELEM", "FUNCTION", "TABLE", "MEMORY",
   "GLOBAL", "DATA"]

/-- The section of the totals, with a line for each label that the map has. -/
def totalsSection (totals : Tally) : ReportSection where
  title := "Map Section Summary".toList
  lines := summaryOrder.filterMap fun label =>
    (totals.get? label.toList).map fun size =>
      padRight 22 label.toList ++ ' ' :: sizeColumns 8 size

def rankedSection (title : Text) (entries : List (Text × ByteSize)) : ReportSection where
  title := title
  lines := numbered (fun number entry => entryStart 2 number entry.2 ++ entry.1) entries

def rankedLabels : List String := ["CODE", ".rodata", ".data", ".bss"]

def symbolSection (limit : Nat) (map : LinkMap.Listing) (label : String) : ReportSection :=
  rankedSection ("Map Top ".toList ++ label.toList ++ " Symbols".toList)
    (Ranking.bySymbol limit (map.symbolsIn label.toList))

def objectFileSection (limit : Nat) (map : LinkMap.Listing) : ReportSection :=
  rankedSection "Map CODE By Object File".toList
    (Ranking.byObjectFile limit (map.symbolsIn "CODE".toList))

def moduleLine (label value : Text) : Text := padRight 9 label ++ ": ".toList ++ value

def moduleTitle : Text := "WAT Summary".toList

def countsSection (summary : ModuleSummary) : ReportSection where
  title := moduleTitle
  lines := (ModuleSummary.counts summary.openers).map fun (construct, count) =>
    moduleLine construct.label.toList (decimal count)

def statusSection (status : ModuleTextStatus) : ReportSection where
  title := moduleTitle
  lines := [moduleLine "status".toList status.message]

/-- What the section of snippets shows for a function: its name and, moved to the right, the
snippet of the function of the module text that it is found to be. -/
def snippetBlock? (summary : ModuleSummary) (f : SizedFunction) : Option (List Text) :=
  (ModuleFunction.find? f.name summary.functions).map fun found =>
    f.name :: found.snippet.map ("  ".toList ++ ·)

def snippetSection (summary : ModuleSummary) (functions : List SizedFunction) : ReportSection where
  title := "WAT Snippets (Top Functions)".toList
  lines := List.intercalate [[]] (functions.filterMap (snippetBlock? summary))

def moduleSections (module : ModuleText) (functions : List SizedFunction) : List ReportSection :=
  match module with
  | .available summary => [countsSection summary, snippetSection summary functions]
  | .unavailable status => [statusSection status]

def build (input : ReportInput) : Report :=
  let functions := input.functions.take input.limit
  { preamble := preambleOf input
    sections := functionSection functions :: totalsSection input.map.totals
      :: rankedLabels.map (symbolSection input.limit input.map)
      ++ objectFileSection input.limit input.map :: moduleSections input.module functions }

end Report

end BinarySize
