import BinarySize.Proofs.Files.Ways

/-!
# Files that are staged beside a path

A file that is made beside a path is meant to be moved onto it. Whether it can be made
(`Stageable`), and whether it can then be moved (`Replaceable`), is settled by the tree as it was
before its directories were created (`createAll_directory_cases`, `moveTo_staged_iff`).
-/

namespace BinarySize

namespace Path

variable {path : Path} {front : List Text} {last : Text}

theorem passes_iff_leads (h : path.names = front ++ [last]) {place : Location} :
    path.Passes place ↔ Leads front place := by
  constructor
  · rintro ⟨names, hprefix, hne, rfl⟩
    rw [h] at hprefix hne
    rcases List.prefix_concat_iff.mp hprefix with heq | hprefix
    · exact absurd heq hne
    · exact ⟨names, hprefix, rfl⟩
  · rintro ⟨names, hprefix, rfl⟩
    refine ⟨names, h ▸ hprefix.trans (List.prefix_append _ _), fun heq => ?_, rfl⟩
    have hlength := hprefix.length_le
    rw [heq, h, List.length_append, List.length_singleton] at hlength
    exact Nat.not_succ_le_self _ hlength

/-- The directory of a path that ends with the name of an entry lies where the names before that
lead. -/
theorem along_directory_iff {holds : Location → Prop} (h : path.names = front ++ [last])
    (hlast : FileAction.isNameless last = false) :
    Along holds path.directory.names ↔ Along holds front := by
  obtain ⟨hhere, -, htop⟩ : last ≠ here ∧ last ≠ above ∧ last ≠ top := by
    simpa [FileAction.isNameless] using hlast
  cases front with
  | nil =>
    have hdirectory : path.directory = here := by
      rw [List.nil_append] at h
      simp only [directory, parent?, components, h, List.filter_nil, List.reverse_singleton,
        if_neg htop, List.reverse_nil, List.foldl_nil]
    have hnames : names here = [] ++ [here] := by decide
    have hplace : placeOf ([] ++ [here]) = [] := FileTree.follow_here []
    rw [hdirectory, hnames, along_concat_iff, hplace]
    exact ⟨fun h => h.1, fun h => ⟨h, by decide, h.places [] (leads_nil_iff.mpr rfl)⟩⟩
  | cons first rest =>
    have hcomponents : path.components = (first :: rest.filter (· ≠ here)) ++ [last] := by
      simp only [components, h, List.cons_append, List.filter_append]
      rw [List.filter_cons_of_pos (by simpa using hhere), List.filter_nil]
    obtain ⟨parent, hparent⟩ : ∃ parent, path.parent? = some parent := by
      simp only [parent?, hcomponents, List.reverse_append, List.reverse_singleton,
        List.singleton_append, if_neg htop]
      exact ⟨_, rfl⟩
    have hbefore : parent.components = first :: rest.filter (· ≠ here) := by
      rw [components_parent hparent, hcomponents, List.dropLast_concat]
    have hdirectory : path.directory = parent := by
      cases parent with
      | nil => cases hbefore
      | cons c cs => simp only [directory, hparent]
    rw [hdirectory, ← along_components_iff, hbefore, along_filter_iff]

end Path

namespace FileTree

open BinarySize.Path

variable {tree before grown : FileTree} {path : Path} {staged : Location}

/-- A file can be staged beside a path: the system takes the path of the directory, no name in it
is too long, and no file stands on the way or in place of the directory. -/
structure Stageable (path : Path) (tree : FileTree) : Prop where
  accepted : refusal? path.directory = none
  clear : Clear tree path.directory.names

/-- A file can be moved onto a path once the directories before it are there: the system takes the
path and each name in it, no slash at its end asks for a directory, and no directory stands there
or is to stand there on the way. -/
structure Replaceable (path : Path) (tree : FileTree) : Prop where
  accepted : refusal? path = none
  short : ∀ name ∈ path.names, isTooLongName name = false
  slashless : path.endsWithSlash = false
  vacant : tree.node? path.place ≠ some .directory
  apart : ¬ path.Passes path.place

/-- A path to where no directory is and none has to be ends with the name of an entry. -/
theorem exists_last_of_apart (hvacant : tree.node? path.place ≠ some .directory)
    (hapart : ¬ path.Passes path.place) :
    ∃ front last, path.names = front ++ [last] ∧ FileAction.isNameless last = false := by
  rcases List.eq_nil_or_concat path.names with hnil | ⟨front, last, hnames⟩
  · refine absurd ?_ hvacant
    rw [place, hnil]
    rfl
  · rw [List.concat_eq_append] at hnames
    refine ⟨front, last, hnames, ?_⟩
    by_contra hlast
    rw [Bool.not_eq_false] at hlast
    have hplace : path.place = placeOf (front ++ [last]) := congrArg placeOf hnames
    rcases leads_of_nameless hlast with hup | hleads
    · have hup' := isUpward_of_ne_directory hvacant
      rw [hplace, hup] at hup'
      cases hup'
    · exact hapart ((passes_iff_leads hnames).mpr (hplace ▸ hleads))

def withDirectory (path : Path) (tree : FileTree) : FileTree :=
  (perform (FileAction.createAll path.directory) tree).2

def stagedPlace (path : Path) (tree : FileTree) : Location :=
  (tree.withDirectory path).freshName :: path.directory.place

def withStaged (path : Path) (tree : FileTree) : FileTree :=
  (tree.withDirectory path).put (tree.stagedPlace path) (.file [])

end FileTree

namespace FileAction

open FileTree BinarySize.Path

variable {tree before grown : FileTree} {path : Path} {staged : Location} {content : Octets}

theorem createAll_directory_cases (path : Path) (tree : FileTree) :
    (perform (createAll path.directory) tree = (.ok (), tree.withDirectory path) ∧
        Stageable path tree ∧ Made (tree.withDirectory path) path.directory.names) ∨
      ∃ e, perform (createAll path.directory) tree = (.error e, tree.withDirectory path) ∧
        ¬ Stageable path tree := by
  have hne : path.directory ≠ [] := by
    unfold directory
    split
    · exact List.cons_ne_nil _ _
    · decide
  rw [withDirectory]
  rcases createAll_cases hne tree with
    ⟨after, heq, haccepted, hclear, hmade⟩ | ⟨e, after, heq, hnot⟩
  · rw [heq]
    exact .inl ⟨rfl, ⟨haccepted, hclear⟩, hmade⟩
  · rw [heq]
    exact .inr ⟨e, rfl, fun h => hnot ⟨h.accepted, h.clear⟩⟩

/-- A file can be staged in a directory that is there. -/
theorem stage_of_made {directory : Path} (haccepted : refusal? directory = none)
    (hmade : Made tree directory.names) :
    perform (stage directory) tree = (.ok (tree.freshName :: directory.place),
      tree.put (tree.freshName :: directory.place) (.file [])) := by
  obtain ⟨hwalk, hdirectory⟩ := made_iff.mp hmade
  have hlocate : tree.locate directory = .ok directory.place :=
    locate_eq_ok_iff.mpr ⟨haccepted, hwalk, fun _ => hdirectory⟩
  have henter : tree.enter directory.place = .ok () := enter_eq_ok_iff.mpr hdirectory
  simp only [stage, perform_bind_get, perform_bind_except, hlocate, henter]
  rfl

/-- A staged file is moved onto a path exactly if the system takes the path and each name in it,
directories stand on the way, and neither is there a directory nor does a slash ask for one. -/
theorem moveTo_eq_ok_iff {empty : Octets} (hstaged : tree.node? staged = some (.file empty)) :
    (perform (moveTo staged content path) tree).1 = .ok () ↔
      refusal? path = none ∧ (∀ name ∈ path.names, isTooLongName name = false) ∧
        (∀ place, path.Passes place → tree.node? place = some .directory) ∧
        path.endsWithSlash = false ∧ tree.node? path.place ≠ some .directory := by
  constructor
  · intro h
    rcases moveTo_cases hstaged content path with ⟨e, heq⟩ | ⟨after, -, hvacant, hnodes, hfind⟩
    · rw [heq] at h
      cases h
    · obtain ⟨haccepted, hshort, hpassed, hslash, -⟩ := find?_eq_some_iff.mp hfind
      refine ⟨haccepted, hshort, fun place hplace => ?_, ?_, hvacant⟩
      · have hdirectory := hpassed place hplace
        rw [hnodes] at hdirectory
        split at hdirectory
        · cases hdirectory
        · split at hdirectory
          · cases hdirectory
          · exact hdirectory
      · by_contra hends
        cases hslash (Bool.not_eq_false _ ▸ hends)
  · rintro ⟨haccepted, hshort, hpassed, hslash, hvacant⟩
    obtain ⟨front, last, hnames, hlast⟩ :=
      exists_last_of_apart hvacant fun hplace => hvacant (hpassed _ hplace)
    have hnul : path.hasNul = false := by
      unfold refusal? at haccepted
      split at haccepted
      · cases haccepted
      · next hnul => exact Bool.not_eq_true _ ▸ hnul
    rw [hnames] at hshort
    have hmade : Made tree front :=
      ⟨fun name hname => hshort name (List.mem_append_left _ hname),
        fun place hplace => hpassed place ((passes_iff_leads hnames).mpr hplace)⟩
    have hentry : entry (placeOf front) last = .ok path.place := by
      refine entry_eq_ok_iff.mpr ⟨hshort last (by simp), ?_⟩
      rw [place, hnames, placeOf, placeOf, List.foldl_append]
      exact (follow_of_not_nameless hlast _).symm
    simp only [moveTo, hnul, haccepted, hnames, split_of_made hmade, hlast, hentry, hslash,
      hvacant, perform_bind_get, perform_bind_except, perform_set, Bool.false_eq_true, ↓reduceIte]

/-- Once the directories above a path are there, a staged file can be moved onto it exactly if
the path could be replaced from the first. -/
theorem moveTo_staged_iff (hgrown : Grown path.Passes before grown)
    (hmade : Made grown path.directory.names) (hfresh : grown.node? staged = none) :
    (perform (moveTo staged content path) (grown.put staged (.file []))).1 = .ok () ↔
      Replaceable path before := by
  have hstaged : grown.node? staged ≠ some .directory := by
    rw [hfresh]
    exact nofun
  have hput := node?_put grown (isUpward_of_ne_directory hstaged) (.file [])
  have hkept : ∀ place, grown.node? place = some .directory →
      (grown.put staged (.file [])).node? place = some .directory := by
    intro place hplace
    rw [hput, if_neg, hplace]
    rintro rfl
    exact hstaged hplace
  have hempty : (grown.put staged (.file [])).node? staged = some (.file []) := by
    rw [hput, if_pos rfl]
  rw [moveTo_eq_ok_iff hempty]
  constructor
  · rintro ⟨haccepted, hshort, hpassed, hslash, hvacant⟩
    refine ⟨haccepted, hshort, hslash, fun hdirectory => ?_, fun hplace => ?_⟩
    · exact hvacant (hkept _ (hgrown.node? hdirectory))
    · exact hvacant (hpassed _ hplace)
  · rintro ⟨haccepted, hshort, hslash, hvacant, hapart⟩
    obtain ⟨front, last, hnames, hlast⟩ := exists_last_of_apart hvacant hapart
    have hfront : Made grown front := (along_directory_iff hnames hlast).mp hmade
    refine ⟨haccepted, hshort, fun place hplace => ?_, hslash, fun hdirectory => ?_⟩
    · exact hkept place (hfront.places place ((passes_iff_leads hnames).mp hplace))
    · rw [hput] at hdirectory
      split at hdirectory
      · cases hdirectory
      · rcases hgrown path.place with hsame | ⟨hpassed, -, -⟩
        · exact hvacant (hsame ▸ hdirectory)
        · exact hapart hpassed

end FileAction

end BinarySize
