import BinarySize.Proofs.Files.Places

/-!
# Changes of a tree

Most actions on files do no more than create directories on the way to a path and put a file
there. Here is what that means for every place of a tree, and what it leaves alone: directories,
files elsewhere, and what a path to them finds.
-/

namespace BinarySize

namespace FileTree

variable {tree before middle after : FileTree} {way : Location → Prop} {path : Path}

def fileAt (tree : FileTree) (place : Location) : Option Octets :=
  match tree.node? place with
  | some (.file content) => some content
  | _ => none

/-- Nothing has changed but that there are more directories on the way to something. -/
def Grown (way : Location → Prop) (before after : FileTree) : Prop :=
  ∀ place, after.node? place = before.node? place ∨
    way place ∧ before.node? place = none ∧ after.node? place = some .directory

/-- Nothing has changed but that there are more directories on the way to a place, and a file at
it. -/
def Filled (way : Location → Prop) (place : Location) (content : Octets)
    (before after : FileTree) : Prop :=
  ∃ grown, Grown way before grown ∧ grown.node? place ≠ some .directory ∧
    ∀ other, after.node? other = if other = place then some (.file content) else grown.node? other

/-- Nothing has been written but a file at a path, below directories on the way to it. -/
def OnlyWrites (path : Path) (before after : FileTree) : Prop :=
  Grown path.Passes before after ∨
    ∃ content, Filled path.Passes path.place content before after

theorem Grown.refl (way : Location → Prop) (tree : FileTree) : Grown way tree tree :=
  fun _ => .inl rfl

theorem Grown.trans (h : Grown way before middle) (h' : Grown way middle after) :
    Grown way before after := by
  intro place
  rcases h place with heq | ⟨hway, hnone, hdirectory⟩
  · rw [← heq]
    exact h' place
  · rcases h' place with heq' | ⟨-, hnone', -⟩
    · exact .inr ⟨hway, hnone, heq'.trans hdirectory⟩
    · rw [hdirectory] at hnone'
      cases hnone'

theorem Grown.mono {way' : Location → Prop} (h : Grown way before after)
    (hway : ∀ place, way place → before.node? place = none → way' place) :
    Grown way' before after := by
  intro place
  rcases h place with heq | ⟨hw, hnone, hdirectory⟩
  · exact .inl heq
  · exact .inr ⟨hway place hw hnone, hnone, hdirectory⟩

theorem Grown.node? (h : Grown way before after) {place : Location} {node : FileNode}
    (hnode : before.node? place = some node) : after.node? place = some node := by
  rcases h place with heq | ⟨-, hnone, -⟩
  · exact heq.trans hnode
  · rw [hnode] at hnone
    cases hnone

theorem Grown.fileAt (h : Grown way before after) (place : Location) :
    after.fileAt place = before.fileAt place := by
  unfold FileTree.fileAt
  rcases h place with heq | ⟨-, hnone, hdirectory⟩
  · rw [heq]
  · rw [hnone, hdirectory]

theorem isUpward_of_ne_directory {place : Location} (h : tree.node? place ≠ some .directory) :
    place.isUpward = false := by
  unfold node? at h
  split at h
  · exact absurd rfl h
  · next hup => exact Bool.not_eq_true _ ▸ hup

theorem filled_put {place : Location} (h : tree.node? place ≠ some .directory) (content : Octets) :
    Filled way place content tree (tree.put place (.file content)) :=
  ⟨tree, Grown.refl way tree, h, node?_put tree (isUpward_of_ne_directory h) _⟩

theorem Grown.filled {place : Location} {content : Octets} (h : Grown way before middle)
    (h' : Filled way place content middle after) : Filled way place content before after := by
  obtain ⟨grown, hgrown, hvacant, hnodes⟩ := h'
  exact ⟨grown, h.trans hgrown, hvacant, hnodes⟩

theorem Filled.fileAt {place : Location} {content : Octets}
    (h : Filled way place content before after) (other : Location) :
    after.fileAt other = if other = place then some content else before.fileAt other := by
  obtain ⟨grown, hgrown, -, hnodes⟩ := h
  rw [← hgrown.fileAt other]
  unfold FileTree.fileAt
  rw [hnodes]
  by_cases hother : other = place
  · rw [if_pos hother, if_pos hother]
  · rw [if_neg hother, if_neg hother]

theorem Filled.node?_of_ne {place other : Location} {content : Octets}
    (h : Filled way place content before after) (hne : other ≠ place) {node : FileNode}
    (hnode : before.node? other = some node) : after.node? other = some node := by
  obtain ⟨grown, hgrown, -, hnodes⟩ := h
  rw [hnodes, if_neg hne]
  exact hgrown.node? hnode

theorem Filled.directory {place other : Location} {content : Octets}
    (h : Filled way place content before after) (hother : before.node? other = some .directory) :
    after.node? other = some .directory := by
  refine h.node?_of_ne ?_ hother
  rintro rfl
  obtain ⟨grown, hgrown, hvacant, -⟩ := h
  exact hvacant (hgrown.node? hother)

/-! ## What stays -/

theorem OnlyWrites.refl (path : Path) (tree : FileTree) : OnlyWrites path tree tree :=
  .inl (Grown.refl _ tree)

theorem OnlyWrites.directory (h : OnlyWrites path before after) {place : Location}
    (hplace : before.node? place = some .directory) : after.node? place = some .directory := by
  rcases h with hgrown | ⟨content, hfilled⟩
  · exact hgrown.node? hplace
  · exact hfilled.directory hplace

theorem OnlyWrites.node?_of_ne (h : OnlyWrites path before after) {place : Location}
    (hne : place ≠ path.place) {node : FileNode} (hnode : before.node? place = some node) :
    after.node? place = some node := by
  rcases h with hgrown | ⟨content, hfilled⟩
  · exact hgrown.node? hnode
  · exact hfilled.node?_of_ne hne hnode

theorem OnlyWrites.file (h : OnlyWrites path before after) {place : Location} {content : Octets}
    (hplace : before.node? place = some (.file content)) :
    ∃ content, after.node? place = some (.file content) := by
  rcases h with hgrown | ⟨written, hfilled⟩
  · exact ⟨content, hgrown.node? hplace⟩
  · by_cases hne : place = path.place
    · obtain ⟨grown, -, -, hnodes⟩ := hfilled
      exact ⟨written, by rw [hnodes, if_pos hne]⟩
    · exact ⟨content, hfilled.node?_of_ne hne hplace⟩

theorem OnlyWrites.sameAlong (h : OnlyWrites path before after) {other : Path} {node : FileNode}
    (hne : other.place ≠ path.place) (hnode : before.find? other = some node) :
    SameAlong other after before := by
  obtain ⟨-, -, hpassed, -, hplace⟩ := find?_eq_some_iff.mp hnode
  rintro place (hp | rfl)
  · rw [hpassed place hp, h.directory (hpassed place hp)]
  · rw [hplace, h.node?_of_ne hne hplace]

/-- A tree that is still the same along the only path on which anything may be written is the
same everywhere. -/
theorem OnlyWrites.alike (h : OnlyWrites path before after)
    (hsame : SameAlong path after before) : Alike after before := by
  intro place
  rcases h with hgrown | ⟨content, grown, hgrown, -, hnodes⟩
  · rcases hgrown place with heq | ⟨hp, -, -⟩
    · exact heq
    · exact hsame place (.inl hp)
  · by_cases hplace : place = path.place
    · exact hsame place (.inr hplace)
    · rcases hgrown place with heq | ⟨hp, -, -⟩
      · rw [hnodes, if_neg hplace, heq]
      · exact hsame place (.inl hp)

theorem OnlyWrites.find?_directory (h : OnlyWrites path before after) {other : Path}
    (hother : before.find? other = some .directory) : after.find? other = some .directory := by
  obtain ⟨hrefusal, hnames, hpassed, hslash, hplace⟩ := find?_eq_some_iff.mp hother
  exact find?_eq_some_iff.mpr ⟨hrefusal, hnames, fun place hp => h.directory (hpassed place hp),
    hslash, h.directory hplace⟩

theorem OnlyWrites.find?_file (h : OnlyWrites path before after) {other : Path} {content : Octets}
    (hother : before.find? other = some (.file content)) :
    ∃ content, after.find? other = some (.file content) := by
  obtain ⟨hrefusal, hnames, hpassed, hslash, hplace⟩ := find?_eq_some_iff.mp hother
  obtain ⟨written, hwritten⟩ := h.file hplace
  refine ⟨written, find?_eq_some_iff.mpr ⟨hrefusal, hnames,
    fun place hp => h.directory (hpassed place hp), fun hends => ?_, hwritten⟩⟩
  cases hslash hends

theorem OnlyWrites.isFile (h : OnlyWrites path before after) {other : Path}
    (hother : before.isFile other = true) : after.isFile other = true := by
  obtain ⟨content, hcontent⟩ := isFile_iff.mp hother
  exact isFile_iff.mpr (h.find?_file hcontent)

theorem OnlyWrites.occupied (h : OnlyWrites path before after) {other : Path}
    (hother : before.occupied other = true) : after.occupied other = true := by
  obtain ⟨node, hnode⟩ := Option.isSome_iff_exists.mp hother
  cases node with
  | directory => exact Option.isSome_iff_exists.mpr ⟨_, h.find?_directory hnode⟩
  | file content =>
    obtain ⟨written, hwritten⟩ := h.find?_file hnode
    exact Option.isSome_iff_exists.mpr ⟨_, hwritten⟩

end FileTree

end BinarySize
