import BinarySize.Proofs.Ranking.WithinTotals
import Mathlib.Data.List.DropRight
import Mathlib.Data.List.TakeWhile

/-!
# Names of object files

The object file at a path is called by the last component of the path: the longest stretch without
a separator that only separators follow. There is one in every path that is not all separators
(`exists_isLastComponent`), and no other text is one (`objectFileName_of_isLastComponent`). A
component is its own last component, so taking the name twice changes nothing
(`objectFileName_lastComponent`).
-/

namespace BinarySize.Ranking

/-- `name` is what is left of a path when separators at its end are dropped, and before them all up
to the last separator. -/
structure IsLastComponent (path name : Text) : Prop where
  ne_nil : name ≠ []
  bare : ∀ c ∈ name, isSeparator c = false
  cut : ∃ front back, path = front ++ name ++ back ∧
    (∀ c ∈ front.getLast?, isSeparator c = true) ∧ ∀ c ∈ back, isSeparator c = true

theorem isSeparator_iff {c : Char} : isSeparator c = true ↔ c = '/' ∨ c = '\\' := by
  simp [isSeparator]

/-- Any path with something else than separators in it has a last component. -/
theorem exists_isLastComponent {path : Text} (h : ∃ c ∈ path, isSeparator c = false) :
    ∃ name, IsLastComponent path name := by
  induction path using List.reverseRecOn with
  | nil =>
    obtain ⟨c, hc, -⟩ := h
    cases hc
  | append_singleton path last ih =>
    cases hlast : isSeparator last with
    | true =>
      -- a separator at the end is dropped
      obtain ⟨c, hc, hsep⟩ := h
      have hpath : ∃ c ∈ path, isSeparator c = false := by
        rcases List.mem_append.mp hc with hc | hc
        · exact ⟨c, hc, hsep⟩
        · rw [List.mem_singleton.mp hc, hlast] at hsep
          cases hsep
      obtain ⟨name, hne, hbare, front, back, rfl, hfront, hback⟩ := ih hpath
      refine ⟨name, hne, hbare, front, back ++ [last], List.append_assoc .., hfront, ?_⟩
      intro d hd
      rcases List.mem_append.mp hd with hd | hd
      · exact hback d hd
      · exact List.mem_singleton.mp hd ▸ hlast
    | false =>
      -- the last component is what stands behind the last separator
      refine ⟨path.rtakeWhile (!isSeparator ·) ++ [last], by simp, ?_, path.rdropWhile
        (!isSeparator ·), [], ?_, ?_, nofun⟩
      · intro d hd
        rcases List.mem_append.mp hd with hd | hd
        · simpa using List.mem_rtakeWhile_imp hd
        · exact List.mem_singleton.mp hd ▸ hlast
      · rw [List.append_nil, ← List.append_assoc, List.rdropWhile_append_rtakeWhile]
      · intro d hd
        obtain ⟨hne, rfl⟩ := List.mem_getLast?_eq_getLast hd
        simpa using List.rdropWhile_last_not _ _ hne

/-- The last component of a path is the name that is read off it. -/
theorem objectFileName_of_isLastComponent {path name : Text} (hpath : path.head? ≠ some '<')
    (h : IsLastComponent path name) : objectFileName path = name := by
  obtain ⟨hne, hbare, front, back, rfl, hfront, hback⟩ := h
  have hback' : ∀ c ∈ back.reverse, isSeparator c = true := fun c hc =>
    hback c (List.mem_reverse.mp hc)
  have hbare' : ∀ c ∈ name.reverse, (!isSeparator c) = true := fun c hc => by
    rw [hbare c (List.mem_reverse.mp hc)]
    rfl
  have hreverse : (front ++ name ++ back).reverse =
      back.reverse ++ (name.reverse ++ front.reverse) := by
    rw [List.reverse_append, List.reverse_append]
  have hdrop : (front ++ name ++ back).reverse.dropWhile isSeparator =
      name.reverse ++ front.reverse := by
    rw [hreverse, List.dropWhile_append_of_pos hback']
    obtain ⟨c, rest, hname⟩ := List.exists_cons_of_ne_nil (List.reverse_ne_nil_iff.mpr hne)
    have hc : isSeparator c = false :=
      hbare c (List.mem_reverse.mp (hname ▸ List.mem_cons_self))
    rw [hname, List.cons_append, List.dropWhile_cons_of_neg (by simp [hc])]
  have htake : (name.reverse ++ front.reverse).takeWhile (!isSeparator ·) = name.reverse := by
    rw [List.takeWhile_append_of_pos hbare']
    cases hfinal : front.reverse with
    | nil => simp
    | cons c rest =>
      have hc : isSeparator c = true :=
        hfront c (by rw [Option.mem_def, ← List.head?_reverse, hfinal, List.head?_cons])
      rw [List.takeWhile_cons_of_neg (by simp [hc]), List.append_nil]
  have hname : name.isEmpty = false := List.isEmpty_eq_false_iff.mpr hne
  rw [objectFileName, if_neg hpath]
  simp only [hdrop, htake, List.reverse_reverse, hname, Bool.false_eq_true, ↓reduceIte]

theorem objectFileName_of_separators {path : Text} (h : ∀ c ∈ path, isSeparator c = true) :
    objectFileName path = path := by
  have hdrop : path.reverse.dropWhile isSeparator = [] :=
    List.dropWhile_eq_nil_iff.mpr fun c hc => h c (List.mem_reverse.mp hc)
  simp [objectFileName, hdrop]

theorem IsLastComponent.self {path name : Text} (h : IsLastComponent path name) :
    IsLastComponent name name :=
  ⟨h.ne_nil, h.bare, [], [], by simp, nofun, nofun⟩

theorem objectFileName_lastComponent {path name : Text} (h : IsLastComponent path name) :
    objectFileName name = name := by
  by_cases hhead : name.head? = some '<'
  · rw [objectFileName, if_pos hhead]
  · exact objectFileName_of_isLastComponent hhead h.self

theorem objectFileName_cases (path : Text) :
    objectFileName path = path ∨ IsLastComponent path (objectFileName path) := by
  by_cases hhead : path.head? = some '<'
  · exact .inl (if_pos hhead)
  · by_cases hsep : ∀ c ∈ path, isSeparator c = true
    · exact .inl (objectFileName_of_separators hsep)
    · push Not at hsep
      obtain ⟨c, hc, hnot⟩ := hsep
      obtain ⟨name, hname⟩ := exists_isLastComponent ⟨c, hc, by simpa using hnot⟩
      exact .inr (objectFileName_of_isLastComponent hhead hname ▸ hname)

/-- The ranking of object files adds up all symbols with a file, each under its file's name, and
leaves the others out. -/
theorem byObjectFile_eq (n : Nat) (symbols : List MapSymbol) :
    byObjectFile n symbols = largest n (Tally.ofAdditions
      ((symbols.filter fun symbol => !symbol.file.isEmpty).map fun symbol =>
        (objectFileName symbol.file, symbol.size))).totals := by
  rw [byObjectFile, sumBy_eq_ofAdditions, grouped]
  simp only [isEmpty_objectFileName]

/-- **Object files by name.** A path that is empty, that starts with `<` or that is all separators
stays whole. Of any other path the name is its last component and nothing else: it is not empty,
holds no separator, and is cut out of the path between a separator, or the start, and separators.
Taking the name of a name changes nothing, and only the empty path has an empty one, so that the
ranking of object files leaves out the symbols without a file and no others. -/
theorem objectFileName_projection (path : Text) :
    (path = [] ∨ path.head? = some '<' ∨ (∀ c ∈ path, c = '/' ∨ c = '\\') →
      objectFileName path = path) ∧
    (path.head? ≠ some '<' → (∃ c ∈ path, c ≠ '/' ∧ c ≠ '\\') →
      ∀ name, IsLastComponent path name ↔ objectFileName path = name) ∧
    objectFileName (objectFileName path) = objectFileName path ∧
    (objectFileName path = [] ↔ path = []) ∧
    ∀ n symbols, byObjectFile n symbols = largest n (Tally.ofAdditions
      ((symbols.filter fun symbol => !symbol.file.isEmpty).map fun symbol =>
        (objectFileName symbol.file, symbol.size))).totals := by
  refine ⟨?whole, ?component, ?twice, ?empty, byObjectFile_eq⟩
  case whole =>
    rintro (rfl | hhead | hsep)
    · rfl
    · exact if_pos hhead
    · exact objectFileName_of_separators fun c hc => isSeparator_iff.mpr (hsep c hc)
  case component =>
    rintro hhead ⟨c, hc, hslash, hbackslash⟩ name
    refine ⟨objectFileName_of_isLastComponent hhead, ?_⟩
    rintro rfl
    have hsep : isSeparator c = false := by simp [isSeparator, hslash, hbackslash]
    obtain ⟨name, hname⟩ := exists_isLastComponent ⟨c, hc, hsep⟩
    rwa [objectFileName_of_isLastComponent hhead hname]
  case twice =>
    rcases objectFileName_cases path with heq | hname
    · rw [heq, heq]
    · exact objectFileName_lastComponent hname
  case empty =>
    rw [← List.isEmpty_iff, isEmpty_objectFileName, List.isEmpty_iff]

/-- A path of either kind of separators with a component that starts with `<`, and paths that stay
whole. -/
theorem objectFileName_projection_mixed :
    let path := "C:\\lib/<crt>.o/\\".toList
    let made := "<internal>".toList
    let root := "/\\".toList
    made.head? = some '<' ∧ (∀ c ∈ root, c = '/' ∨ c = '\\') ∧
      path.head? ≠ some '<' ∧ 'C' ∈ path ∧
      objectFileName made = made ∧ objectFileName root = root ∧
      IsLastComponent path "<crt>.o".toList ∧
      objectFileName (objectFileName path) = objectFileName path := by
  intro path made root
  have hmade : made.head? = some '<' := by decide +kernel
  have hroot : ∀ c ∈ root, c = '/' ∨ c = '\\' := by simp [root]
  have hpath : path.head? ≠ some '<' := by decide +kernel
  have hmem : 'C' ∈ path := by decide +kernel
  have hspec := objectFileName_projection path
  exact ⟨hmade, hroot, hpath, hmem, (objectFileName_projection made).1 (.inr (.inl hmade)),
    (objectFileName_projection root).1 (.inr (.inr hroot)),
    (hspec.2.1 hpath ⟨'C', hmem, by decide⟩ _).mpr (by decide +kernel), hspec.2.2.1⟩

end BinarySize.Ranking
