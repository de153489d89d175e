import BinarySize.Proofs.Files.Places

/-!
# Names of paths

A path that is put together from names has those names. So the directory of a path has the
components of the path but the last (`components_parent`), and all places to which its beginnings
lead are places that the path passes (`passes_of_prefix_components`).
-/

namespace BinarySize

namespace Path

/-- A text that can be the name of something in a directory. -/
def IsName (name : Text) : Prop := name ≠ [] ∧ ∀ c ∈ name, (c == '/') = false

theorem names_of_isName {name : Text} (h : IsName name) : names name = [name] := by
  have hhead : name.head? ≠ some '/' := by
    intro heq
    have hslash := h.2 '/' (List.mem_of_head? heq)
    exact absurd hslash (by decide)
  have hne : name.isEmpty = false := by simpa using h.1
  simp [names, hhead, Text.pieces_of_no_cut h.2, hne]

theorem names_append_slash {path : Path} (hne : path ≠ []) (back : Text) :
    names (path ++ '/' :: back) =
      names path ++ (Text.pieces (· == '/') back).filter (!·.isEmpty) := by
  obtain ⟨c, rest, rfl⟩ := List.exists_cons_of_ne_nil hne
  rw [names, Text.pieces_append_cut (by decide), List.filter_append, ← List.append_assoc]
  rfl

theorem names_slash (back : Text) :
    names ('/' :: back) = top :: (Text.pieces (· == '/') back).filter (!·.isEmpty) := by
  simp [names, Text.pieces]

theorem names_join (path : Path) {name : Text} (h : IsName name) :
    (path.join name).names = path.names ++ [name] := by
  have hback : (Text.pieces (· == '/') name).filter (!·.isEmpty) = [name] := by
    rw [Text.pieces_of_no_cut h.2]
    simpa using h.1
  unfold join
  by_cases hempty : path = []
  · subst hempty
    exact names_of_isName h
  · cases hslash : path.endsWithSlash with
    | false =>
      have hne : path.isEmpty = false := by simpa using hempty
      simp only [hne, Bool.false_or, Bool.false_eq_true, ↓reduceIte]
      rw [names_append_slash hempty, hback]
    | true =>
      -- the slash at the end already divides the path from the name
      obtain ⟨front, rfl⟩ : ∃ front, path = front ++ ['/'] :=
        List.getLast?_eq_some_iff.mp (by simpa [endsWithSlash] using hslash)
      rw [Bool.or_true, if_pos rfl, List.append_assoc, List.singleton_append]
      by_cases hfront : front = []
      · subst hfront
        rw [List.nil_append, names_slash, hback]
        rfl
      · rw [names_append_slash hfront, names_append_slash hfront, hback]
        simp [Text.pieces]

theorem names_foldl_join {added : List Text} (h : ∀ name ∈ added, IsName name) (path : Path) :
    (added.foldl join path).names = path.names ++ added := by
  induction added generalizing path with
  | nil => simp
  | cons name added ih =>
    rw [List.foldl_cons, ih fun other ho => h other (List.mem_cons_of_mem _ ho),
      names_join path (h name List.mem_cons_self), List.append_assoc]
    rfl

/-- All names of a path but for what stands for the top at its start are names of something in a
directory. -/
theorem isName_of_mem_names {path : Path} {first : Text} {rest : List Text}
    (h : path.names = first :: rest) :
    (first = top ∨ IsName first) ∧ ∀ name ∈ rest, IsName name := by
  have hpieces : ∀ name ∈ (Text.pieces (· == '/') path).filter (!·.isEmpty), IsName name := by
    intro name hname
    obtain ⟨hmem, hne⟩ := List.mem_filter.mp hname
    exact ⟨by simpa using hne, Text.not_cut_of_mem_pieces hmem⟩
  unfold names at h
  split at h
  · rw [List.singleton_append, List.cons.injEq] at h
    exact ⟨.inl h.1.symm, h.2 ▸ hpieces⟩
  · rw [List.nil_append] at h
    rw [h] at hpieces
    exact ⟨.inr (hpieces first List.mem_cons_self),
      fun name hname => hpieces name (List.mem_cons_of_mem _ hname)⟩

theorem components_parent {path parent : Path} (h : path.parent? = some parent) :
    parent.components = path.components.dropLast := by
  unfold parent? at h
  split at h
  · cases h
  · next last before hreverse =>
    split at h
    · cases h
    · next hlast =>
      cases h
      have hcomponents : path.components = before.reverse ++ [last] := by
        rw [← List.reverse_reverse path.components, hreverse, List.reverse_cons]
      rw [hcomponents, List.dropLast_concat]
      generalize before.reverse = front at hcomponents
      cases front with
      | nil => rfl
      | cons first middle =>
        cases hnames : path.names with
        | nil => simp [components, hnames] at hcomponents
        | cons start rest =>
          simp only [components, hnames, List.cons_append, List.cons.injEq] at hcomponents
          obtain ⟨rfl, hrest⟩ := hcomponents
          obtain ⟨hstart, hrests⟩ := isName_of_mem_names hnames
          have hmiddle : ∀ name ∈ middle, name ∈ rest ∧ name ≠ here := by
            intro name hname
            have hmem : name ∈ rest.filter (· ≠ here) := hrest ▸ List.mem_append_left _ hname
            simpa using hmem
          have hisName : ∀ name ∈ middle, IsName name := fun name hname =>
            hrests name (hmiddle name hname).1
          have hjoined : ((start :: middle).foldl join []).names = start :: middle := by
            rcases hstart with rfl | hstart
            · rw [List.foldl_cons, names_foldl_join hisName]
              rfl
            · rw [names_foldl_join (List.forall_mem_cons.mpr ⟨hstart, hisName⟩)]
              rfl
          rw [components, hjoined]
          simp only [List.cons.injEq, true_and, List.filter_eq_self]
          intro name hname
          simpa using (hmiddle name hname).2

theorem exists_prefix_filter {p : Text → Bool} {names front : List Text}
    (hfront : front <+: names.filter p) (hne : front ≠ names.filter p) :
    ∃ whole, whole <+: names ∧ whole ≠ names ∧ whole.filter p = front := by
  induction names generalizing front with
  | nil => exact absurd (List.prefix_nil.mp hfront) hne
  | cons name rest ih =>
    cases hname : p name with
    | false =>
      rw [List.filter_cons_of_neg (by simp [hname])] at hfront hne
      obtain ⟨whole, hwhole, hshort, heq⟩ := ih hfront hne
      refine ⟨name :: whole, List.cons_prefix_cons.mpr ⟨rfl, hwhole⟩, ?_, ?_⟩
      · exact fun h => hshort (List.cons.inj h).2
      · rw [List.filter_cons_of_neg (by simp [hname]), heq]
    | true =>
      rw [List.filter_cons_of_pos hname] at hfront hne
      cases front with
      | nil => exact ⟨[], List.nil_prefix, (List.cons_ne_nil _ _).symm, rfl⟩
      | cons first front =>
        obtain ⟨rfl, hrest⟩ := List.cons_prefix_cons.mp hfront
        obtain ⟨whole, hwhole, hshort, heq⟩ := ih hrest fun h => hne (h ▸ rfl)
        refine ⟨first :: whole, List.cons_prefix_cons.mpr ⟨rfl, hwhole⟩, ?_, ?_⟩
        · exact fun h => hshort (List.cons.inj h).2
        · rw [List.filter_cons_of_pos hname, heq]

theorem foldl_follow_filter (names : List Text) (start : Location) :
    (names.filter (· ≠ here)).foldl FileTree.follow start = names.foldl FileTree.follow start := by
  induction names generalizing start with
  | nil => rfl
  | cons name rest ih =>
    by_cases h : name = here
    · subst h
      rw [List.filter_cons_of_neg (by simp), ih, List.foldl_cons, FileTree.follow_here]
    · rw [List.filter_cons_of_pos (by simpa using h), List.foldl_cons, List.foldl_cons, ih]

/-- Every beginning of the components of a path, short of all, leads to a place that the path
passes. -/
theorem passes_of_prefix_components {path : Path} {front : List Text}
    (hfront : front <+: path.components) (hne : front ≠ path.components) :
    path.Passes (placeOf front) := by
  cases hnames : path.names with
  | nil =>
    simp only [components, hnames] at hfront hne
    exact absurd (List.prefix_nil.mp hfront) hne
  | cons first rest =>
    simp only [components, hnames] at hfront hne
    cases front with
    | nil => exact ⟨[], List.nil_prefix, hnames ▸ (List.cons_ne_nil _ _).symm, rfl⟩
    | cons start front =>
      obtain ⟨rfl, hrest⟩ := List.cons_prefix_cons.mp hfront
      obtain ⟨whole, hwhole, hshort, rfl⟩ :=
        exists_prefix_filter hrest fun h => hne (congrArg (start :: ·) h)
      refine ⟨start :: whole, hnames ▸ List.cons_prefix_cons.mpr ⟨rfl, hwhole⟩, ?_, ?_⟩
      · exact fun h => hshort (List.cons.inj (h.trans hnames)).2
      · exact (foldl_follow_filter whole _).symm

end Path
end BinarySize
