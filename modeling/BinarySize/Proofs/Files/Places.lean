import BinarySize.Files.Tree

/-!
# Places of paths

There are no links in a tree, so the names of a path alone say which place it means and which
directories it passes on the way. Proved here:

* `walk_eq_ok_iff`, `find?_eq_some_iff`: what stands at a path is what stands at its place, if
  directories stand at all places that the path passes;
* `SameAlong.find?`: looking a path up sees nothing else of a tree.
-/

namespace BinarySize

namespace Path

def placeOf (names : List Text) : Location := names.foldl FileTree.follow []

def place (path : Path) : Location := placeOf path.names

/-- A path passes the places of its first names, the root among them. -/
def Passes (path : Path) (place : Location) : Prop :=
  ∃ front, front <+: path.names ∧ front ≠ path.names ∧ placeOf front = place

end Path

namespace FileTree

variable {tree other : FileTree}

/-! ## Walking -/

theorem enter_eq_ok_iff {place : Location} :
    tree.enter place = .ok () ↔ tree.node? place = some .directory := by
  unfold enter
  cases tree.node? place with
  | none => simp
  | some node => cases node <;> simp

theorem follow_here (place : Location) : follow place Path.here = place := by
  rw [follow, if_pos rfl]

theorem follow_of_not_nameless {name : Text} (h : FileAction.isNameless name = false)
    (place : Location) : follow place name = name :: place := by
  obtain ⟨hhere, habove, htop⟩ : name ≠ Path.here ∧ name ≠ Path.above ∧ name ≠ Path.top := by
    simpa [FileAction.isNameless] using h
  rw [follow, if_neg hhere, if_neg htop, if_neg habove]

/-- A walk arrives where its names lead, exactly if every name follows a directory and none is
too long. -/
theorem walk_eq_ok_iff {start place : Location} {names : List Text} :
    tree.walk start names = .ok place ↔
      names.foldl follow start = place ∧ (∀ name ∈ names, Path.isTooLongName name = false) ∧
        ∀ front, front <+: names → front ≠ names →
          tree.node? (front.foldl follow start) = some .directory := by
  induction names generalizing start with
  | nil =>
    simp only [walk, Except.ok.injEq, List.foldl_nil, List.not_mem_nil, false_implies,
      implies_true, true_and]
    constructor
    · rintro rfl
      refine ⟨rfl, fun front hfront hne => ?_⟩
      exact absurd (List.prefix_nil.mp hfront) hne
    · exact fun h => h.1
  | cons name rest ih =>
    rw [walk]
    constructor
    · intro h
      split at h
      · cases h
      · next hstart =>
        have hstart' : tree.node? start = some .directory := enter_eq_ok_iff.mp hstart
        split at h
        · cases h
        · next hname =>
          obtain ⟨hplace, hnames, hfronts⟩ := ih.mp h
          refine ⟨hplace, ?_, ?_⟩
          · intro other hother
            rcases List.mem_cons.mp hother with rfl | hother
            · exact Bool.not_eq_true _ ▸ hname
            · exact hnames other hother
          · intro front hfront hne
            cases front with
            | nil => exact hstart'
            | cons first front =>
              obtain ⟨rfl, hrest⟩ := List.cons_prefix_cons.mp hfront
              exact hfronts front hrest fun heq => hne (heq ▸ rfl)
    · rintro ⟨hplace, hnames, hfronts⟩
      have hstart : tree.enter start = .ok () :=
        enter_eq_ok_iff.mpr (hfronts [] List.nil_prefix (List.cons_ne_nil _ _).symm)
      have hname := hnames name List.mem_cons_self
      simp only [hstart, hname, Bool.false_eq_true, ↓reduceIte]
      refine ih.mpr ⟨hplace, fun other h => hnames other (List.mem_cons_of_mem _ h), ?_⟩
      intro front hfront hne
      refine hfronts (name :: front) (List.cons_prefix_cons.mpr ⟨rfl, hfront⟩) fun heq => ?_
      exact hne (List.cons.inj heq).2

/-- A walk sees no more of a tree than the places that it passes. -/
theorem walk_congr {start : Location} {names : List Text}
    (h : ∀ front, front <+: names → front ≠ names →
      tree.node? (front.foldl follow start) = other.node? (front.foldl follow start)) :
    tree.walk start names = other.walk start names := by
  induction names generalizing start with
  | nil => rfl
  | cons name rest ih =>
    have hstart : tree.node? start = other.node? start :=
      h [] List.nil_prefix (List.cons_ne_nil _ _).symm
    have hrest : tree.walk (follow start name) rest = other.walk (follow start name) rest := by
      refine ih fun front hfront hne => ?_
      refine h (name :: front) (List.cons_prefix_cons.mpr ⟨rfl, hfront⟩) fun heq => ?_
      exact hne (List.cons.inj heq).2
    simp only [walk, enter, hstart, hrest]

/-! ## Looking up -/

theorem walk_names_iff {path : Path} {place : Location} :
    tree.walk [] path.names = .ok place ↔
      path.place = place ∧ (∀ name ∈ path.names, Path.isTooLongName name = false) ∧
        ∀ place, path.Passes place → tree.node? place = some .directory := by
  rw [walk_eq_ok_iff]
  constructor
  · rintro ⟨hplace, hnames, hfronts⟩
    refine ⟨hplace, hnames, ?_⟩
    rintro place ⟨front, hfront, hne, rfl⟩
    exact hfronts front hfront hne
  · rintro ⟨hplace, hnames, hpassed⟩
    exact ⟨hplace, hnames, fun front hfront hne => hpassed _ ⟨front, hfront, hne, rfl⟩⟩

/-- A last name for where one is already asks for a directory there. -/
theorem walk_concat_here {names : List Text} {start place : Location} :
    tree.walk start (names ++ [Path.here]) = .ok place ↔
      tree.walk start names = .ok place ∧ tree.node? place = some .directory := by
  induction names generalizing start with
  | nil =>
    have hshort : Path.isTooLongName Path.here = false := by decide
    simp only [List.nil_append, walk, hshort, follow_here, Bool.false_eq_true, ↓reduceIte,
      Except.ok.injEq]
    constructor
    · intro h
      split at h
      · cases h
      · next hstart =>
        cases h
        exact ⟨rfl, enter_eq_ok_iff.mp hstart⟩
    · rintro ⟨rfl, hdirectory⟩
      rw [enter_eq_ok_iff.mpr hdirectory]
  | cons name rest ih =>
    rw [List.cons_append, walk, walk]
    cases tree.enter start with
    | error e => simp
    | ok _ =>
      cases Path.isTooLongName name with
      | true => simp
      | false => simpa using ih

theorem locate_eq_ok_iff {path : Path} {place : Location} :
    tree.locate path = .ok place ↔
      refusal? path = none ∧ tree.walk [] path.names = .ok place ∧
        (path.endsWithSlash = true → tree.node? place = some .directory) := by
  unfold locate
  cases refusal? path with
  | some e => simp
  | none =>
    cases path.endsWithSlash with
    | false => simp
    | true => simp [walk_concat_here]

/-- What stands at a path stands at its place, and directories stand at all places that the path
passes. -/
theorem find?_eq_some_iff {path : Path} {node : FileNode} :
    tree.find? path = some node ↔
      refusal? path = none ∧ (∀ name ∈ path.names, Path.isTooLongName name = false) ∧
        (∀ place, path.Passes place → tree.node? place = some .directory) ∧
        (path.endsWithSlash = true → node = .directory) ∧ tree.node? path.place = some node := by
  unfold find?
  constructor
  · intro h
    split at h
    · next place hlocate =>
      obtain ⟨hrefusal, hwalk, hslash⟩ := locate_eq_ok_iff.mp hlocate
      obtain ⟨rfl, hnames, hpassed⟩ := walk_names_iff.mp hwalk
      refine ⟨hrefusal, hnames, hpassed, fun hends => ?_, h⟩
      rw [hslash hends] at h
      exact (Option.some.inj h).symm
    · cases h
  · rintro ⟨hrefusal, hnames, hpassed, hslash, hnode⟩
    have hwalk := walk_names_iff.mpr ⟨rfl, hnames, hpassed⟩
    have hlocate : tree.locate path = .ok path.place :=
      locate_eq_ok_iff.mpr ⟨hrefusal, hwalk, fun hends => hslash hends ▸ hnode⟩
    rw [hlocate]
    exact hnode

/-- Two trees are the same along a path: at the places that it passes and at its own. -/
def SameAlong (path : Path) (tree other : FileTree) : Prop :=
  ∀ place, path.Passes place ∨ place = path.place → tree.node? place = other.node? place

def Alike (tree other : FileTree) : Prop := ∀ place, tree.node? place = other.node? place

theorem SameAlong.find? {path : Path} (h : SameAlong path tree other) :
    tree.find? path = other.find? path := by
  have hpassed : (∀ place, path.Passes place → tree.node? place = some .directory) ↔
      ∀ place, path.Passes place → other.node? place = some .directory :=
    forall₂_congr fun place hp => by rw [h place (.inl hp)]
  refine Option.ext fun node => ?_
  rw [find?_eq_some_iff, find?_eq_some_iff, h path.place (.inr rfl), hpassed]

theorem Alike.find? (h : Alike tree other) (path : Path) : tree.find? path = other.find? path :=
  SameAlong.find? fun place _ => h place

theorem content?_congr {path : Path} (h : tree.find? path = other.find? path) :
    tree.content? path = other.content? path := by
  rw [content?, h, content?]

theorem isFile_congr {path : Path} (h : tree.find? path = other.find? path) :
    tree.isFile path = other.isFile path := by
  rw [isFile, content?_congr h, isFile]

theorem occupied_congr {path : Path} (h : tree.find? path = other.find? path) :
    tree.occupied path = other.occupied path := by
  rw [occupied, h, occupied]

theorem Alike.isFile (h : Alike tree other) : tree.isFile = other.isFile :=
  funext fun path => isFile_congr (h.find? path)

theorem Alike.occupied (h : Alike tree other) : tree.occupied = other.occupied :=
  funext fun path => occupied_congr (h.find? path)

theorem content?_eq_some_iff {path : Path} {content : Octets} :
    tree.content? path = some content ↔ tree.find? path = some (.file content) := by
  unfold content?
  constructor
  · intro h
    split at h
    · next heq =>
      cases h
      exact heq
    · cases h
  · intro h
    rw [h]

theorem isFile_iff {path : Path} :
    tree.isFile path = true ↔ ∃ content, tree.find? path = some (.file content) := by
  simp only [isFile, Option.isSome_iff_exists, content?_eq_some_iff]

theorem occupied_of_isFile {path : Path} (h : tree.isFile path = true) :
    tree.occupied path = true := by
  obtain ⟨content, hcontent⟩ := isFile_iff.mp h
  exact Option.isSome_iff_exists.mpr ⟨_, hcontent⟩

end FileTree

end BinarySize
