import BinarySize.Identifier
import BinarySize.Text.Recogniser

/-!
# Functions of a module text

A line that starts with `(func` and an identifier defines a function. Its snippet is that line
and the lines below it, up to the next definition and to a limit.
-/

namespace BinarySize

open Text

/-- A function of a module text: its identifier as written, its plain name, and its snippet. -/
structure ModuleFunction where
  identifier : Text
  name : Text
  snippet : List Text
  deriving DecidableEq

namespace ModuleFunction

/-- The identifier of the function that a line defines: a dollar sign and then all up to the
next blank or closing parenthesis, which is not nothing. -/
def definedBy? (line : Text) : Option Text := do
  let rest ← after? "(func".toList (dropBlanks line)
  let rest ← afterBlanks? rest
  let rest ← after? "$".toList rest
  let (name, _) ← run? (fun c => !isBlank c && c != ')') rest
  some ('$' :: name)

def define (identifier line : Text) : ModuleFunction :=
  ⟨identifier, Identifier.plainName identifier, [line]⟩

/-- Adds a line to the snippet unless that has reached the limit. -/
def addLine (limit : Nat) (line : Text) (f : ModuleFunction) : ModuleFunction :=
  if f.snippet.length < limit then { f with snippet := f.snippet ++ [line] } else f

/-- The functions that end in some lines or behind the last of them, where `current` is the one
to whose snippet the lines belong at first. -/
def fromLines (limit : Nat) (current : Option ModuleFunction) :
    List Text → List ModuleFunction
  | [] => current.toList
  | line :: rest =>
    match definedBy? line with
    | some identifier => current.toList ++ fromLines limit (some (define identifier line)) rest
    | none => fromLines limit (current.map (addLine limit line)) rest

/-- The first function whose name matches the plain form of a name from the debug information.
A name that is blank, or nothing but a dollar sign, finds none. -/
def find? (debugName : Text) (functions : List ModuleFunction) : Option ModuleFunction :=
  match Identifier.plainName (trim debugName) with
  | [] => none
  | target => functions.find? fun f => Identifier.namesMatch target f.name

end ModuleFunction

end BinarySize
