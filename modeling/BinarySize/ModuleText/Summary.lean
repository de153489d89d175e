import BinarySize.ModuleText.Construct
import BinarySize.ModuleText.Function
import BinarySize.Text.Lines

/-!
# Summary of a module text

What the report shows of a module text, or why there is none to show.
-/

namespace BinarySize

structure ModuleSummary where
  openers : List Construct
  functions : List ModuleFunction
  deriving DecidableEq

namespace ModuleSummary

/-- The functions of a module text, with snippets of at most `limit` lines. The line that
defines a function is part of its snippet whatever the limit. -/
def functionsOf (limit : Nat) (text : Text) : List ModuleFunction :=
  ModuleFunction.fromLines limit none (Text.lines text)

def ofText (limit : Nat) (text : Text) : ModuleSummary :=
  ⟨Construct.openers text, functionsOf limit text⟩

def counts (openers : List Construct) : List (Construct × Nat) :=
  Construct.all.map fun construct => (construct, openers.count construct)

end ModuleSummary

/-- How the module text for a run was come by, or why it was not. -/
inductive ModuleTextStatus where
  /-- Something was there already. -/
  | existing
  /-- The converter wrote it in this run. -/
  | generated
  /-- There is none, and no module to convert either. -/
  | missingModule
  /-- There is none, and none was asked for. -/
  | missing
  /-- The converter failed with a message. -/
  | failed (message : Text)
  deriving DecidableEq

namespace ModuleTextStatus

def message : ModuleTextStatus → Text
  | existing => "existing".toList
  | generated => "generated".toList
  | missingModule => "missing wasm".toList
  | missing => "missing".toList
  | failed message => message

end ModuleTextStatus

inductive ModuleText where
  | available (summary : ModuleSummary)
  | unavailable (status : ModuleTextStatus)
  deriving DecidableEq

end BinarySize
