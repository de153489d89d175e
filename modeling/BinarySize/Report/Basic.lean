import BinarySize.Text.Basic

/-!
# Reports

A report is a preamble and a list of titled sections; each section is written as its title, a
rule as wide as the title, its lines and a blank line.
-/

namespace BinarySize

structure ReportSection where
  title : Text
  lines : List Text
  deriving DecidableEq

structure Report where
  preamble : List Text
  sections : List ReportSection
  deriving DecidableEq

namespace ReportSection

def written (block : ReportSection) : List Text :=
  block.title :: List.replicate block.title.length '=' :: block.lines ++ [[]]

end ReportSection

namespace Report

def written (report : Report) : List Text :=
  report.preamble ++ [] :: report.sections.flatMap ReportSection.written

def text (report : Report) : Text := Text.unlines report.written

def find? (report : Report) (title : Text) : Option ReportSection :=
  report.sections.find? (·.title == title)

end Report

end BinarySize
