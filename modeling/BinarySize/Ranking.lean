import BinarySize.LinkMap.Listing

/-!
# Rankings

The symbols of a map are grouped by a text that is read off each, their sizes summed up per
group, and the largest groups listed. A symbol whose text is empty belongs to no group.
-/

namespace BinarySize.Ranking

/-- The sums of the sizes of symbols by their keys, in the order in which the keys come up. -/
def sumBy (key : MapSymbol → Text) (symbols : List MapSymbol) : Tally :=
  symbols.foldl
    (fun tally symbol =>
      if (key symbol).isEmpty then tally else tally.add (key symbol) symbol.size)
    .empty

/-- Whether the first of two entries may stand before the second: it is no smaller. -/
def noSmaller (a b : Text × ByteSize) : Bool := b.2.bytes ≤ a.2.bytes

/-- The `n` largest entries, the largest first; entries of one size keep their order. -/
def largest (n : Nat) (entries : List (Text × ByteSize)) : List (Text × ByteSize) :=
  (entries.mergeSort noSmaller).take n

theorem noSmaller_total (a b : Text × ByteSize) : (noSmaller a b || noSmaller b a) = true := by
  simp only [noSmaller, Bool.or_eq_true, decide_eq_true_eq]
  omega

theorem noSmaller_trans (a b c : Text × ByteSize) (hab : noSmaller a b = true)
    (hbc : noSmaller b c = true) : noSmaller a c = true := by
  simp only [noSmaller, decide_eq_true_eq] at *
  omega

/-- A smaller limit only cuts the list off. -/
theorem largest_take {n m : Nat} (h : n ≤ m) (entries : List (Text × ByteSize)) :
    (largest m entries).take n = largest n entries := by
  simp only [largest, List.take_take, Nat.min_eq_left h]

def isSeparator (c : Char) : Bool := c == '/' || c == '\\'

/-- The name of the object file at a path: its last component, separators at the end apart. A
path that has none, and a name made up by the linker such as `<internal>`, stay whole. -/
def objectFileName (path : Text) : Text :=
  if path.head? = some '<' then path
  else
    let reversed := path.reverse.dropWhile isSeparator
    let name := (reversed.takeWhile (!isSeparator ·)).reverse
    if name.isEmpty then path else name

theorem isEmpty_objectFileName (path : Text) : (objectFileName path).isEmpty = path.isEmpty := by
  unfold objectFileName
  split
  · rfl
  · dsimp only
    split
    · rfl
    · next hname =>
      have hpath : path ≠ [] := by
        rintro rfl
        exact hname rfl
      rw [List.isEmpty_eq_false_iff.mpr hpath]
      simpa using hname

def bySymbol (n : Nat) (symbols : List MapSymbol) : List (Text × ByteSize) :=
  largest n (sumBy MapSymbol.name symbols).totals

def byObjectFile (n : Nat) (symbols : List MapSymbol) : List (Text × ByteSize) :=
  largest n (sumBy (objectFileName ·.file) symbols).totals

end BinarySize.Ranking
