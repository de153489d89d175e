import BinarySize.Proofs.Files.Changes
import BinarySize.Proofs.Files.Actions
import Mathlib.Data.List.Infix

/-!
# Trees that differ in some places

Two trees that agree outside some places look the same along every path that keeps out of them
(`AlikeOutside.sameAlong`). There are no links, so a path that neither leads to a place nor passes
it keeps out of all that stands there or below (`Path.keepsOut_below`).
-/

namespace BinarySize

/-! ## Paths that keep out -/

namespace Path

variable {path : Path} {hidden : Location → Prop}

/-- A path neither passes nor means any of some places. -/
def KeepsOut (path : Path) (hidden : Location → Prop) : Prop :=
  ∀ place, path.Passes place ∨ place = path.place → ¬ hidden place

instance (path : Path) (place : Location) : Decidable (path.Passes place) :=
  decidable_of_iff (∃ front ∈ path.names.inits, front ≠ path.names ∧ placeOf front = place)
    (by simp only [List.mem_inits, Passes])

/-- A name leads to one new place at most; what is above that was above before. -/
theorem eq_or_suffix_of_suffix_follow {start place : Location} {name : Text}
    (h : place <:+ FileTree.follow start name) :
    place = FileTree.follow start name ∨ place <:+ start := by
  unfold FileTree.follow at h ⊢
  split
  · next hhere =>
    rw [if_pos hhere] at h
    exact .inr h
  · next hhere =>
    rw [if_neg hhere] at h
    split
    · next htop =>
      rw [if_pos htop] at h
      rcases List.suffix_cons_iff.mp h with heq | hnil
      · exact .inl heq
      · rw [List.suffix_nil.mp hnil]
        exact .inr List.nil_suffix
    · next htop =>
      rw [if_neg htop] at h
      split
      · next habove =>
        rw [if_pos habove] at h
        split
        · next hstart =>
          rw [if_pos hstart] at h
          exact .inr h
        · next hstart =>
          rw [if_neg hstart] at h
          split
          · next hup =>
            rw [if_pos hup] at h
            exact List.suffix_cons_iff.mp h
          · next hup =>
            rw [if_neg hup] at h
            exact .inr (h.trans (List.tail_suffix start))
      · next habove =>
        rw [if_neg habove] at h
        exact List.suffix_cons_iff.mp h

/-- Names that lead to a place have led to every place above it. -/
theorem exists_front_of_suffix {names : List Text} {place : Location}
    (h : place <:+ placeOf names) : ∃ front, front <+: names ∧ placeOf front = place := by
  induction names using List.reverseRecOn with
  | nil => exact ⟨[], List.prefix_rfl, (List.suffix_nil.mp h).symm⟩
  | append_singleton names name ih =>
    have hlast : placeOf (names ++ [name]) = FileTree.follow (placeOf names) name :=
      List.foldl_append
    rw [hlast] at h
    rcases eq_or_suffix_of_suffix_follow h with heq | hplace
    · exact ⟨names ++ [name], List.prefix_rfl, hlast.trans heq.symm⟩
    · obtain ⟨front, hfront, heq⟩ := ih hplace
      exact ⟨front, hfront.trans (List.prefix_append _ _), heq⟩

/-- A path that neither means nor passes a place keeps out of all that is below it. -/
theorem keepsOut_below {place : Location} (hplace : path.place ≠ place)
    (hpassed : ¬ path.Passes place) : path.KeepsOut (place <:+ ·) := by
  have hfront : ∀ front, front <+: path.names → ¬ place <:+ placeOf front := by
    intro front hfront hbelow
    obtain ⟨higher, hhigher, rfl⟩ := exists_front_of_suffix hbelow
    have hnames := hhigher.trans hfront
    by_cases heq : higher = path.names
    · exact hplace (by rw [heq]; rfl)
    · exact hpassed ⟨higher, hnames, heq, rfl⟩
  rintro other (⟨front, hprefix, -, rfl⟩ | rfl)
  · exact hfront front hprefix
  · exact hfront path.names List.prefix_rfl

end Path

/-! ## Trees that agree outside -/

namespace FileTree

variable {tree other before after : FileTree} {hidden way : Location → Prop} {path : Path}

/-- Two trees agree outside some places. -/
def AlikeOutside (hidden : Location → Prop) (tree other : FileTree) : Prop :=
  ∀ place, ¬ hidden place → tree.node? place = other.node? place

/-- Nothing has changed outside some places but that there are more directories on the way to
something. -/
def ChangedInside (hidden way : Location → Prop) (before after : FileTree) : Prop :=
  ∀ place, ¬ hidden place → after.node? place = before.node? place ∨
    way place ∧ before.node? place = none ∧ after.node? place = some .directory

theorem AlikeOutside.sameAlong (h : AlikeOutside hidden tree other) (hpath : path.KeepsOut hidden) :
    SameAlong path tree other :=
  fun place hplace => h place (hpath place hplace)

theorem ChangedInside.sameAlong (h : ChangedInside hidden way before after)
    (hpath : path.KeepsOut hidden) {node : FileNode} (hnode : before.find? path = some node) :
    SameAlong path after before := by
  obtain ⟨-, -, hpassed, -, hplace⟩ := find?_eq_some_iff.mp hnode
  have hthere : ∀ place, path.Passes place ∨ place = path.place → before.node? place ≠ none := by
    rintro place (hp | rfl)
    · rw [hpassed place hp]
      exact nofun
    · rw [hplace]
      exact nofun
  intro place hp
  rcases h place (hpath place hp) with heq | ⟨-, hnone, -⟩
  · exact heq
  · exact absurd hnone (hthere place hp)

/-- What only writes at a path changes nothing but what is there or below. -/
theorem OnlyWrites.changedInside (h : OnlyWrites path before after) :
    ChangedInside (path.place <:+ ·) path.Passes before after := by
  intro place hplace
  have hne : place ≠ path.place := by
    rintro rfl
    exact hplace List.suffix_rfl
  rcases h with hgrown | ⟨content, grown, hgrown, -, hnodes⟩
  · exact hgrown place
  · rw [hnodes, if_neg hne]
    exact hgrown place

theorem alikeOutside_put {place : Location} (hup : place.isUpward = false) (hplace : hidden place)
    (node : FileNode) : AlikeOutside hidden tree (tree.put place node) := by
  intro other hother
  rw [node?_put tree hup, if_neg]
  rintro rfl
  exact hother hplace

end FileTree

/-! ## Writing -/

namespace FileAction

open FileTree

/-- Outside of hidden places a write does the same whatever is hidden. -/
theorem write_alikeOutside {tree other : FileTree} {hidden : Location → Prop} {path : Path}
    (h : AlikeOutside hidden tree other) (hpath : path.KeepsOut hidden) (content : Octets) :
    (perform (write path content) tree).1 = (perform (write path content) other).1 ∧
      AlikeOutside hidden (perform (write path content) tree).2
        (perform (write path content) other).2 := by
  have halong := h.sameAlong hpath
  have hanswer := write_congr (fun place hp => halong place (.inl hp))
    (by rw [halong _ (.inr rfl)]) content
  refine ⟨hanswer, ?_⟩
  rcases write_cases path content tree with ⟨e, heq⟩ | ⟨heq, hvacant, -⟩
  · rcases write_cases path content other with ⟨e', heq'⟩ | ⟨heq', -, -⟩
    · rw [heq, heq']
      exact h
    · rw [heq, heq'] at hanswer
      cases hanswer
  · rcases write_cases path content other with ⟨e', heq'⟩ | ⟨heq', hvacant', -⟩
    · rw [heq, heq'] at hanswer
      cases hanswer
    · rw [heq, heq']
      intro place hplace
      rw [node?_put tree (isUpward_of_ne_directory hvacant),
        node?_put other (isUpward_of_ne_directory hvacant'), h place hplace]

end FileAction

end BinarySize
