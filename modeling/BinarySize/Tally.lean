import BinarySize.ByteSize

/-!
# Tallies

A tally keeps one running total for each label, in the order in which the labels first came up.
-/

namespace BinarySize

/-- Totals by label, first label first. -/
structure Tally where
  totals : List (Text × ByteSize)
  deriving DecidableEq

namespace Tally

def empty : Tally := ⟨[]⟩

/-- Adds a size to the total of its label; a new label goes behind all others. -/
def addTo (label : Text) (size : ByteSize) : List (Text × ByteSize) → List (Text × ByteSize)
  | [] => [(label, size)]
  | (known, total) :: rest =>
    if known = label then (known, total + size) :: rest
    else (known, total) :: addTo label size rest

def add (tally : Tally) (label : Text) (size : ByteSize) : Tally :=
  ⟨addTo label size tally.totals⟩

def get? (tally : Tally) (label : Text) : Option ByteSize := tally.totals.lookup label

def labels (tally : Tally) : List Text := tally.totals.map (·.1)

def size (tally : Tally) : Nat := tally.totals.length

def isEmpty (tally : Tally) : Bool := tally.totals.isEmpty

private theorem lookup_addTo (label other : Text) (size : ByteSize)
    (totals : List (Text × ByteSize)) :
    (addTo label size totals).lookup other =
      if other = label then some ((totals.lookup label).getD 0 + size)
      else totals.lookup other := by
  induction totals with
  | nil =>
    by_cases h : other = label
    · simp [addTo, h, ByteSize.zero_add]
    · simp [addTo, h, List.lookup_cons, beq_false_of_ne h]
  | cons entry rest ih =>
    obtain ⟨known, total⟩ := entry
    by_cases hk : known = label
    · subst hk
      by_cases h : other = known
      · simp [addTo, h]
      · simp [addTo, h, List.lookup_cons, beq_false_of_ne h]
    · by_cases ho : other = known
      · subst ho
        simp [addTo, hk]
      · have hl : (label == known) = false := beq_false_of_ne (Ne.symm hk)
        simp only [addTo, hk, if_false, List.lookup_cons, beq_false_of_ne ho, hl]
        exact ih

/-- An addition changes the total of its own label and of no other. -/
theorem get?_add (tally : Tally) (label other : Text) (size : ByteSize) :
    (tally.add label size).get? other =
      if other = label then some ((tally.get? label).getD 0 + size) else tally.get? other :=
  lookup_addTo label other size tally.totals

private theorem map_addTo (label : Text) (size : ByteSize) (totals : List (Text × ByteSize)) :
    (addTo label size totals).map (·.1) =
      if label ∈ totals.map (·.1) then totals.map (·.1) else totals.map (·.1) ++ [label] := by
  induction totals with
  | nil => rfl
  | cons entry rest ih =>
    obtain ⟨known, total⟩ := entry
    by_cases hk : known = label
    · simp [addTo, hk]
    · have hl : label ≠ known := Ne.symm hk
      simp only [addTo, hk, if_false, List.map_cons, ih, List.mem_cons, hl, false_or]
      by_cases hm : label ∈ rest.map (·.1)
      · rw [if_pos hm, if_pos hm]
      · rw [if_neg hm, if_neg hm, List.cons_append]

/-- An addition puts a new label behind all others and keeps the order of those that are known. -/
theorem labels_add (tally : Tally) (label : Text) (size : ByteSize) :
    (tally.add label size).labels =
      if label ∈ tally.labels then tally.labels else tally.labels ++ [label] :=
  map_addTo label size tally.totals

theorem mem_labels_add {tally : Tally} {label other : Text} {size : ByteSize} :
    other ∈ (tally.add label size).labels ↔ other = label ∨ other ∈ tally.labels := by
  rw [labels_add]
  split
  · next hknown =>
    constructor
    · exact Or.inr
    · rintro (rfl | hother)
      · exact hknown
      · exact hother
  · rw [List.mem_append, List.mem_singleton, or_comm]

end Tally

end BinarySize
