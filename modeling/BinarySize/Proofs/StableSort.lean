/-!
# Stable sorting

An order may let two elements stand either way round. Sorting by it leaves such elements in the
order in which they were.
-/

namespace BinarySize

variable {le : α → α → Bool} (trans : ∀ a b c, le a b = true → le b c = true → le a c = true)
  (total : ∀ a b, (le a b || le b a) = true)
include trans total

/-- Elements that may all stand either way round are kept as they are. -/
theorem filter_mergeSort {p : α → Bool} (hties : ∀ a b, p a = true → p b = true → le a b = true)
    (xs : List α) : (xs.mergeSort le).filter p = xs.filter p := by
  have hpair : (xs.filter p).Pairwise fun a b => le a b = true := by
    refine List.Pairwise.imp_of_mem ?_ (List.pairwise_of_forall fun _ _ => trivial)
    intro a b ha hb _
    exact hties a b (List.mem_filter.mp ha).2 (List.mem_filter.mp hb).2
  have hsub : (xs.filter p).Sublist (xs.mergeSort le) :=
    List.sublist_mergeSort trans total hpair List.filter_sublist
  have hsub' : (xs.filter p).Sublist ((xs.mergeSort le).filter p) := by
    have h := hsub.filter p
    rwa [List.filter_filter, funext fun a => Bool.and_self (p a)] at h
  have hlen : (xs.filter p).length = ((xs.mergeSort le).filter p).length :=
    ((List.mergeSort_perm xs le).filter p).length_eq.symm
  exact (hsub'.eq_of_length hlen).symm

/-- Whatever held between earlier and later elements still does between those that may stand either
way round. -/
theorem pairwise_mergeSort_stable {earlier : α → α → Prop} {xs : List α}
    (h : xs.Pairwise earlier) :
    (xs.mergeSort le).Pairwise fun a b => le a b = true ∧ (le b a = true → earlier a b) := by
  rw [List.pairwise_iff_forall_sublist]
  intro a b hab
  have hle : le a b = true :=
    List.pairwise_iff_forall_sublist.mp (List.pairwise_mergeSort trans total xs) hab
  refine ⟨hle, fun hback => ?_⟩
  have hrefl : le a a = true := by simpa using total a a
  let tied (c : α) : Bool := le a c && le c a
  have hties : ∀ c d, tied c = true → tied d = true → le c d = true := by
    intro c d hc hd
    exact trans c a d (Bool.and_eq_true_iff.mp hc).2 (Bool.and_eq_true_iff.mp hd).1
  have htied : [a, b].filter tied = [a, b] := by simp [tied, hrefl, hle, hback]
  have hsub : [a, b].Sublist (xs.filter tied) := by
    rw [← filter_mergeSort trans total hties, ← htied]
    exact hab.filter tied
  exact List.pairwise_iff_forall_sublist.mp h (hsub.trans List.filter_sublist)

end BinarySize
