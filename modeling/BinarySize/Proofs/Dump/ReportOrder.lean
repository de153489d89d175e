import BinarySize.Dump.Function
import BinarySize.Proofs.StableSort

/-!
# Report order

What sorting does to the functions of a dump: none is added or dropped, larger sizes come
first, of one size the lesser names come first, and functions that agree in both keep the order
in which they were found. Nothing else does the same (`InReportOrder.unique`), so parts can be
sorted before the whole (`sort_sort_append`).
-/

namespace BinarySize.SizedFunction

/-- All that report order looks at. -/
def rank (f : SizedFunction) : Nat × Text := (f.size.bytes, f.name)

/-- `sorted` holds the functions of `found` in report order, with ties as they were found. -/
structure InReportOrder (found sorted : List SizedFunction) : Prop where
  perm : sorted.Perm found
  ordered : sorted.Pairwise fun a b =>
    b.size.bytes < a.size.bytes ∨ a.size.bytes = b.size.bytes ∧ ¬ b.name < a.name
  stable : ∀ r, sorted.filter (fun f => decide (f.rank = r)) =
    found.filter (fun f => decide (f.rank = r))

theorem precedes_iff (a b : SizedFunction) :
    a.precedes b = true ↔
      b.size.bytes < a.size.bytes ∨ a.size.bytes = b.size.bytes ∧ ¬ b.name < a.name := by
  simp only [precedes, Bool.or_eq_true, Bool.and_eq_true, decide_eq_true_eq, beq_iff_eq,
    Bool.not_eq_true', decide_eq_false_iff_not]

/-- Functions of one rank may stand either way round. -/
theorem precedes_of_rank_eq {a b : SizedFunction} (h : a.rank = b.rank) :
    a.precedes b = true := by
  obtain ⟨hsize, hname⟩ := Prod.mk.inj h
  rw [precedes_iff]
  exact Or.inr ⟨hsize, hname ▸ List.lt_irrefl a.name⟩

/-- **Stability.** Sorting keeps the functions of one rank in their order. -/
theorem filter_sort (found : List SizedFunction) (r : Nat × Text) :
    (sort found).filter (fun f => decide (f.rank = r)) =
      found.filter (fun f => decide (f.rank = r)) := by
  refine filter_mergeSort precedes_trans precedes_total (fun a b ha hb => ?_) found
  exact precedes_of_rank_eq ((of_decide_eq_true ha).trans (of_decide_eq_true hb).symm)

theorem sort_inReportOrder (found : List SizedFunction) : InReportOrder found (sort found) where
  perm := sort_perm found
  ordered := (pairwise_sort found).imp fun h => (precedes_iff _ _).mp h
  stable := filter_sort found

/-! ## What is determined by report order -/

def NoLater (p q : Nat × Text) : Prop := q.1 < p.1 ∨ p.1 = q.1 ∧ ¬ q.2 < p.2

theorem NoLater.antisymm {p q : Nat × Text} (hpq : NoLater p q) (hqp : NoLater q p) : p = q := by
  rcases hpq with hlt | ⟨hsize, hname⟩
  · rcases hqp with hlt' | ⟨hsize, -⟩
    · omega
    · omega
  · rcases hqp with hlt' | ⟨-, hname'⟩
    · omega
    · exact Prod.ext hsize (List.le_antisymm hname hname')

/-- Two lists in report order are the same if they hold the same functions of each rank, in the
same order. -/
theorem eq_of_filter_rank {xs ys : List SizedFunction}
    (hxs : xs.Pairwise fun a b => NoLater a.rank b.rank)
    (hys : ys.Pairwise fun a b => NoLater a.rank b.rank)
    (h : ∀ r, xs.filter (fun f => decide (f.rank = r)) = ys.filter fun f => decide (f.rank = r)) :
    xs = ys := by
  induction xs generalizing ys with
  | nil =>
    cases ys with
    | nil => rfl
    | cons y ys =>
      have hy := h y.rank
      simp at hy
  | cons x xs ih =>
    have hx : x ∈ ys := by
      have hmem : x ∈ (x :: xs).filter fun f => decide (f.rank = x.rank) := by simp
      rw [h x.rank] at hmem
      exact (List.mem_filter.mp hmem).1
    cases ys with
    | nil => cases hx
    | cons y ys =>
      have hy : y ∈ x :: xs := by
        have hmem : y ∈ (y :: ys).filter fun f => decide (f.rank = y.rank) := by simp
        rw [← h y.rank] at hmem
        exact (List.mem_filter.mp hmem).1
      obtain ⟨hxall, hxtail⟩ := List.pairwise_cons.mp hxs
      obtain ⟨hyall, hytail⟩ := List.pairwise_cons.mp hys
      -- each first function is somewhere in the other list, so their ranks are one
      have hrank : x.rank = y.rank := by
        rcases List.mem_cons.mp hx with rfl | hx
        · rfl
        · rcases List.mem_cons.mp hy with rfl | hy
          · rfl
          · exact (hxall y hy).antisymm (hyall x hx)
      have hhead := h x.rank
      rw [List.filter_cons_of_pos (by simp), List.filter_cons_of_pos (by simp [hrank])] at hhead
      obtain ⟨rfl, -⟩ := List.cons.inj hhead
      refine congrArg (x :: ·) (ih hxtail hytail fun r => ?_)
      have hr := h r
      by_cases hxr : x.rank = r
      · rw [List.filter_cons_of_pos (by simp [hxr]), List.filter_cons_of_pos (by simp [hxr])] at hr
        exact (List.cons.inj hr).2
      · rw [List.filter_cons_of_neg (by simp [hxr]), List.filter_cons_of_neg (by simp [hxr])] at hr
        exact hr

/-- Report order with ties as found leaves no choice. -/
theorem InReportOrder.unique {found xs ys : List SizedFunction} (hxs : InReportOrder found xs)
    (hys : InReportOrder found ys) : xs = ys :=
  eq_of_filter_rank hxs.ordered hys.ordered fun r => (hxs.stable r).trans (hys.stable r).symm

/-- Parts may be sorted before the whole is. -/
theorem sort_sort_append (front back : List SizedFunction) :
    sort (sort front ++ sort back) = sort (front ++ back) := by
  refine InReportOrder.unique (sort_inReportOrder _) ?_
  refine ⟨(sort_perm _).trans ((sort_perm front).append (sort_perm back)).symm,
    (sort_inReportOrder _).ordered, fun r => ?_⟩
  rw [filter_sort, List.filter_append, List.filter_append, filter_sort, filter_sort]

/-- Functions in report order can be cut for a further one: those that it need not precede stand
before the others. -/
theorem exists_cut {sorted : List SizedFunction}
    (hsorted : sorted.Pairwise fun a b => a.precedes b = true) (f : SizedFunction) :
    ∃ front back, sorted = front ++ back ∧ (∀ g ∈ front, g.precedes f = true) ∧
      ∀ g ∈ back, ¬ g.precedes f = true := by
  induction sorted with
  | nil => exact ⟨[], [], rfl, nofun, nofun⟩
  | cons first rest ih =>
    obtain ⟨hfirst, hrest⟩ := List.pairwise_cons.mp hsorted
    by_cases h : first.precedes f = true
    · obtain ⟨front, back, rfl, hfront, hback⟩ := ih hrest
      exact ⟨first :: front, back, rfl, List.forall_mem_cons.mpr ⟨h, hfront⟩, hback⟩
    · refine ⟨[], first :: rest, rfl, nofun, List.forall_mem_cons.mpr ⟨h, fun g hg hgf => ?_⟩⟩
      exact h (precedes_trans _ _ _ (hfirst g hg) hgf)

theorem sort_concat {found front back : List SizedFunction} {f : SizedFunction}
    (hcut : sort found = front ++ back) (hfront : ∀ g ∈ front, g.precedes f = true)
    (hback : ∀ g ∈ back, ¬ g.precedes f = true) : sort (found ++ [f]) = front ++ f :: back := by
  have hbehind : ∀ g ∈ back, f.precedes g = true := fun g hg =>
    ((Bool.or_eq_true _ _).mp (precedes_total f g)).resolve_right (hback g hg)
  refine InReportOrder.unique (sort_inReportOrder _) ⟨?_, ?_, fun r => ?_⟩
  · have hperm : (front ++ back).Perm found := hcut ▸ sort_perm found
    exact List.perm_middle.trans ((hperm.cons f).trans (List.perm_append_singleton f found).symm)
  · have hsorted := pairwise_sort found
    rw [hcut] at hsorted
    obtain ⟨hfronts, hbacks, hcross⟩ := List.pairwise_append.mp hsorted
    refine List.Pairwise.imp (fun h => (precedes_iff _ _).mp h) ?_
    refine List.pairwise_append.mpr ⟨hfronts, List.pairwise_cons.mpr ⟨hbehind, hbacks⟩, ?_⟩
    intro a ha b hb
    rcases List.mem_cons.mp hb with rfl | hb
    · exact hfront a ha
    · exact hcross a ha b hb
  · have hsame := filter_sort found r
    rw [hcut, List.filter_append] at hsame
    rw [List.filter_append, List.filter_append, ← hsame, List.append_assoc]
    refine congrArg _ ?_
    by_cases hr : f.rank = r
    · -- functions of the same rank are none of those that the further one has to precede
      have hnone : back.filter (fun g => decide (g.rank = r)) = [] := by
        refine List.filter_eq_nil_iff.mpr fun g hg hgr => hback g hg ?_
        exact precedes_of_rank_eq ((of_decide_eq_true hgr).trans hr.symm)
      rw [List.filter_cons, List.filter_cons, hnone]
      rfl
    · rw [List.filter_cons, List.filter_cons, if_neg (by simpa using hr),
        if_neg (by simpa using hr), List.filter_nil, List.append_nil]

/-- The ranks of sorted functions are those of the functions, in whatever order they come. -/
theorem map_rank_sort_of_perm {xs ys : List SizedFunction} (h : xs.Perm ys) :
    (sort xs).map rank = (sort ys).map rank := by
  have hperm : ((sort xs).map rank).Perm ((sort ys).map rank) :=
    ((sort_perm xs).trans (h.trans (sort_perm ys).symm)).map rank
  refine List.Perm.eq_of_pairwise (fun _ _ _ _ => NoLater.antisymm) ?_ ?_ hperm
  · exact List.pairwise_map.mpr (sort_inReportOrder xs).ordered
  · exact List.pairwise_map.mpr (sort_inReportOrder ys).ordered

end BinarySize.SizedFunction
