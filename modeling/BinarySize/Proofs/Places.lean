/-!
# Places in a list

The places of a list, or of a text, that satisfy something are told by filtering a range. A range
is cut behind its first place or anywhere else; what lies behind the cut is found as if the list
started there.
-/

namespace BinarySize

theorem filter_range_succ (p : Nat → Bool) (n : Nat) :
    (List.range (n + 1)).filter p =
      (if p 0 then [0] else []) ++ ((List.range n).filter fun i => p (i + 1)).map (· + 1) := by
  rw [List.range_succ_eq_map, List.filter_cons, List.filter_map]
  cases p 0 with
  | true => rfl
  | false => rfl

theorem filter_range_add (p : Nat → Bool) (m n : Nat) :
    (List.range (m + n)).filter p =
      (List.range m).filter p ++ ((List.range n).filter fun i => p (m + i)).map (m + ·) := by
  rw [List.range_add, List.filter_append, List.filter_map]
  rfl

theorem filter_range_eq {place n : Nat} (h : place < n) :
    (List.range n).filter (fun i => decide (i = place)) = [place] := by
  rw [List.filter_eq, List.nodup_range.count, if_pos (List.mem_range.mpr h)]
  rfl

end BinarySize
