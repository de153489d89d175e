import BinarySize.Text.Recogniser
import BinarySize.Text.Word

/-!
# Constructs of a module text

A construct opens with a parenthesis and a keyword as a whole word; blanks, line ends included,
may stand between the two. The openers of a text are found by one scan from left to right, which
goes on behind each opener that it finds.
-/

namespace BinarySize

open Text

inductive Construct where
  | type | importing | exporting | function | data | element | table | memory | global
  deriving DecidableEq

namespace Construct

def all : List Construct :=
  [type, importing, exporting, function, data, element, table, memory, global]

def keyword : Construct → String
  | type => "type"
  | importing => "import"
  | exporting => "export"
  | function => "func"
  | data => "data"
  | element => "elem"
  | table => "table"
  | memory => "memory"
  | global => "global"

def label : Construct → String
  | type => "types"
  | importing => "imports"
  | exporting => "exports"
  | function => "funcs"
  | data => "data"
  | element => "elem"
  | table => "tables"
  | memory => "memories"
  | global => "globals"

/-- The construct whose keyword starts a text, and what follows the keyword. -/
def atKeyword? (cs : Text) : Option (Construct × Text) :=
  all.findSome? fun construct =>
    match after? construct.keyword.toList cs with
    | some rest => if atWordEnd rest then some (construct, rest) else none
    | none => none

/-- The construct that a text opens with its first character, and what follows the opener. -/
def atOpener? : Text → Option (Construct × Text)
  | '(' :: cs => atKeyword? (dropBlanks cs)
  | _ => none

theorem length_le_of_atKeyword? {cs rest : Text} {construct : Construct}
    (h : atKeyword? cs = some (construct, rest)) : rest.length ≤ cs.length := by
  obtain ⟨other, -, h⟩ := List.exists_of_findSome?_eq_some h
  split at h
  · next found hfound =>
    rw [after?_eq_some] at hfound
    split at h <;> simp_all
  · cases h

theorem length_lt_of_atOpener? {cs rest : Text} {construct : Construct}
    (h : atOpener? cs = some (construct, rest)) : rest.length < cs.length := by
  unfold atOpener? at h
  split at h
  · have hk := length_le_of_atKeyword? h
    have hb := length_dropBlanks_le (by assumption)
    simp only [List.length_cons]
    omega
  · cases h

/-- The constructs that a text opens, first opener first. -/
def openers (text : Text) : List Construct :=
  match text with
  | [] => []
  | c :: cs =>
    match _h : atOpener? (c :: cs) with
    | some (construct, rest) => construct :: openers rest
    | none => openers cs
termination_by text.length
decreasing_by
  · exact length_lt_of_atOpener? _h
  · simp

/-- The scan goes on behind an opener. -/
theorem openers_of_opener {c : Char} {cs rest : Text} {construct : Construct}
    (h : atOpener? (c :: cs) = some (construct, rest)) :
    openers (c :: cs) = construct :: openers rest := by
  rw [openers]
  split
  · next heq =>
    rw [h] at heq
    cases heq
    rfl
  · next heq =>
    rw [h] at heq
    cases heq

theorem openers_of_none {c : Char} {cs : Text} (h : atOpener? (c :: cs) = none) :
    openers (c :: cs) = openers cs := by
  rw [openers]
  split
  · next heq =>
    rw [h] at heq
    cases heq
  · rfl

theorem atOpener?_of_ne {c : Char} (h : c ≠ '(') (cs : Text) : atOpener? (c :: cs) = none := by
  rw [atOpener?]
  exact fun rest heq => h (List.cons.inj heq).1

end Construct

end BinarySize
