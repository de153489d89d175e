import BinarySize.ByteSize

/-!
# Sized functions

What the debug information says about one function that takes up code: its size, its name and
where it was declared or inlined. Reports list functions by size, the largest first, and
functions of one size by name.
-/

namespace BinarySize

inductive FunctionKind where
  /-- A body of its own. -/
  | subprogram
  /-- A body copied into a caller. -/
  | inlinedSubroutine
  deriving DecidableEq

namespace FunctionKind

def tag : FunctionKind → String
  | subprogram => "DW_TAG_subprogram"
  | inlinedSubroutine => "DW_TAG_inlined_subroutine"

def ofTag? (tag : Text) : Option FunctionKind :=
  if tag = subprogram.tag.toList then some subprogram
  else if tag = inlinedSubroutine.tag.toList then some inlinedSubroutine
  else none

end FunctionKind

/-- A function and the code it takes up. An empty file and a line of zero are unknown. -/
structure SizedFunction where
  size : ByteSize
  file : Text
  line : Nat
  name : Text
  kind : FunctionKind
  deriving DecidableEq

namespace SizedFunction

def location (f : SizedFunction) : Text :=
  let file := if f.file.isEmpty then "<unknown>".toList else f.file
  if f.line = 0 then file else file ++ ':' :: Text.decimal f.line

/-- Report order: the larger size first, and of one size the lesser name first, where names
compare by code points. Functions that agree in both may stand either way round. -/
def precedes (a b : SizedFunction) : Bool :=
  b.size.bytes < a.size.bytes || (a.size.bytes == b.size.bytes && !decide (b.name < a.name))

/-- The functions in report order; those that agree in size and name keep their order. -/
def sort (functions : List SizedFunction) : List SizedFunction :=
  functions.mergeSort precedes

theorem precedes_total (a b : SizedFunction) : (a.precedes b || b.precedes a) = true := by
  simp only [precedes, Bool.or_eq_true, Bool.and_eq_true, decide_eq_true_eq, beq_iff_eq,
    Bool.not_eq_true', decide_eq_false_iff_not]
  rcases Nat.lt_trichotomy a.size.bytes b.size.bytes with h | h | h
  · exact Or.inr (Or.inl h)
  · by_cases hn : b.name < a.name
    · exact Or.inr (Or.inr ⟨h.symm, List.lt_asymm hn⟩)
    · exact Or.inl (Or.inr ⟨h, hn⟩)
  · exact Or.inl (Or.inl h)

theorem precedes_trans (a b c : SizedFunction) (hab : a.precedes b = true)
    (hbc : b.precedes c = true) : a.precedes c = true := by
  simp only [precedes, Bool.or_eq_true, Bool.and_eq_true, decide_eq_true_eq, beq_iff_eq,
    Bool.not_eq_true', decide_eq_false_iff_not, List.not_lt] at *
  rcases hab with hab | ⟨hab, hna⟩ <;> rcases hbc with hbc | ⟨hbc, hnb⟩
  · exact Or.inl (by omega)
  · exact Or.inl (by omega)
  · exact Or.inl (by omega)
  · exact Or.inr ⟨by omega, List.le_trans hna hnb⟩

theorem pairwise_sort (functions : List SizedFunction) :
    (sort functions).Pairwise fun a b => a.precedes b = true :=
  List.pairwise_mergeSort precedes_trans precedes_total functions

theorem sort_perm (functions : List SizedFunction) : (sort functions).Perm functions :=
  List.mergeSort_perm functions precedes

end SizedFunction

end BinarySize
