import BinarySize.Proofs.Files.Changes
import BinarySize.Proofs.Files.Names
import BinarySize.Proofs.Perform

/-!
# What file actions do

Creating directories only adds directories on the way to a path (`grown_createAll_parent`,
`grown_createAll_directory`). A write either leaves the tree alone or puts the whole content at
the path (`write_cases`). A staged file has a place of its own (`stage_cases`), and moving it
either leaves the tree alone or puts it at the path (`moveTo_cases`).
-/

namespace BinarySize

namespace FileAction

open FileTree

variable {tree after : FileTree}

/-! ## Creating directories -/

theorem split_eq_some_iff {names : List Text} {place : Location} {last : Text} :
    split tree names = .ok (some (place, last)) ↔
      ∃ front, names = front ++ [last] ∧ tree.walk [] front = .ok place ∧
        tree.enter place = .ok () := by
  unfold split
  constructor
  · intro h
    split at h
    · cases h
    · next final before hreverse =>
      have hnames : names = before.reverse ++ [final] := by
        rw [← List.reverse_reverse names, hreverse, List.reverse_cons]
      cases hwalk : tree.walk [] before.reverse with
      | error e =>
        rw [hwalk] at h
        cases h
      | ok parent =>
        cases henter : tree.enter parent with
        | error e =>
          rw [hwalk] at h
          simp only [bind, Except.bind, henter, reduceCtorEq] at h
        | ok _ =>
          rw [hwalk] at h
          simp only [bind, Except.bind, henter, Except.ok.injEq, Option.some.injEq,
            Prod.mk.injEq] at h
          obtain ⟨rfl, rfl⟩ := h
          exact ⟨before.reverse, hnames, hwalk, henter⟩
  · rintro ⟨front, rfl, hwalk, henter⟩
    simp only [List.reverse_append, List.reverse_cons, List.reverse_nil, List.nil_append,
      List.singleton_append, List.reverse_reverse, hwalk, bind, Except.bind, henter]

theorem entry_eq_ok_iff {parent place : Location} {name : Text} :
    entry parent name = .ok place ↔ Path.isTooLongName name = false ∧ name :: parent = place := by
  unfold entry
  cases Path.isTooLongName name <;> simp

theorem placeOf_of_split {names : List Text} {parent : Location} {last : Text}
    (h : split tree names = .ok (some (parent, last))) (hlast : isNameless last = false) :
    Path.placeOf names = last :: parent := by
  obtain ⟨front, rfl, hwalk, -⟩ := split_eq_some_iff.mp h
  obtain ⟨hparent, -, -⟩ := walk_eq_ok_iff.mp hwalk
  rw [Path.placeOf, List.foldl_append, hparent]
  exact follow_of_not_nameless hlast parent

theorem createDirectory_cases (names : List Text) (tree : FileTree) :
    (perform (createDirectory names) tree).2 = tree ∨
      tree.node? (Path.placeOf names) = none ∧
        (perform (createDirectory names) tree).2 = tree.put (Path.placeOf names) .directory := by
  simp only [createDirectory, perform_bind_get, perform_bind_except]
  cases hsplit : split tree names with
  | error e => exact .inl rfl
  | ok found =>
    rcases found with _ | ⟨parent, last⟩
    · exact .inl rfl
    · simp only [perform_ite, perform_bind_throw, perform_bind_except, perform_set]
      cases hlast : isNameless last with
      | true => exact .inl rfl
      | false =>
        rw [placeOf_of_split hsplit hlast, if_neg Bool.false_ne_true]
        cases hentry : entry parent last with
        | error e => exact .inl rfl
        | ok place =>
          obtain ⟨-, rfl⟩ := entry_eq_ok_iff.mp hentry
          cases hnode : tree.node? (last :: parent) with
          | some node =>
            simp only [hnode]
            exact .inl rfl
          | none =>
            simp only [hnode]
            exact .inr ⟨trivial, rfl⟩

theorem grown_createDirectory (names : List Text) (tree : FileTree) :
    Grown (· = Path.placeOf names) tree (perform (createDirectory names) tree).2 := by
  rcases createDirectory_cases names tree with heq | ⟨hnone, heq⟩
  · rw [heq]
    exact Grown.refl _ tree
  · intro place
    have hup : (Path.placeOf names).isUpward = false :=
      isUpward_of_ne_directory (by rw [hnone]; exact nofun)
    rw [heq, node?_put tree hup]
    by_cases hplace : place = Path.placeOf names
    · subst hplace
      exact .inr ⟨rfl, hnone, if_pos rfl⟩
    · exact .inl (if_neg hplace)

theorem grown_ensureDirectory (names : List Text) (tree : FileTree) :
    Grown (· = Path.placeOf names) tree (perform (ensureDirectory names) tree).2 := by
  have hcreate := grown_createDirectory names tree
  simp only [ensureDirectory, perform_tryCatch]
  generalize perform (createDirectory names) tree = created at hcreate ⊢
  obtain ⟨answer, left⟩ := created
  cases answer with
  | ok _ => exact hcreate
  | error e =>
    simp only [perform_bind_get, perform_ite, perform_pure, perform_throw]
    split
    · exact hcreate
    · exact hcreate

/-- Directories are created at places to which beginnings of the names lead. -/
theorem grown_ensureDirectories (reversed : List Text) (tree : FileTree) :
    Grown (fun place => ∃ front, front <+: reversed.reverse ∧ Path.placeOf front = place) tree
      (perform (ensureDirectories reversed) tree).2 := by
  induction reversed generalizing tree with
  | nil => exact Grown.refl _ tree
  | cons last before ih =>
    have hensure : ∀ tree, Grown
        (fun place => ∃ front, front <+: (last :: before).reverse ∧ Path.placeOf front = place)
        tree (perform (ensureDirectory (last :: before).reverse) tree).2 := fun tree =>
      (grown_ensureDirectory _ tree).mono fun place hplace _ =>
        ⟨_, List.prefix_refl _, hplace.symm⟩
    have hbefore : ∀ tree, Grown
        (fun place => ∃ front, front <+: (last :: before).reverse ∧ Path.placeOf front = place)
        tree (perform (ensureDirectories before) tree).2 := fun tree =>
      (ih tree).mono fun place hplace _ => by
        obtain ⟨front, hfront, hplace⟩ := hplace
        rw [List.reverse_cons]
        exact ⟨front, hfront.trans (List.prefix_append _ _), hplace⟩
    simp only [ensureDirectories, perform_tryCatch]
    have hfirst := hensure tree
    generalize perform (ensureDirectory (last :: before).reverse) tree = first at hfirst ⊢
    obtain ⟨answer, left⟩ := first
    cases answer with
    | ok _ => exact hfirst
    | error e =>
      cases e with
      | notFound =>
        simp only [perform_bind]
        have habove := hfirst.trans (hbefore left)
        generalize perform (ensureDirectories before) left = created at habove ⊢
        obtain ⟨answer, above⟩ := created
        cases answer with
        | ok _ => exact habove.trans (hensure above)
        | error e => exact habove
      | _ => exact hfirst

theorem grown_createAll (path : Path) (tree : FileTree) :
    Grown (fun place => ∃ front, front <+: path.components ∧ Path.placeOf front = place) tree
      (perform (createAll path) tree).2 := by
  simp only [createAll, perform_ite, perform_pure]
  split
  · exact Grown.refl _ tree
  · split
    · exact Grown.refl _ tree
    · have h := grown_ensureDirectories path.components.reverse tree
      rwa [List.reverse_reverse] at h

/-- What is above a path is created on the way to it. -/
theorem grown_createAll_parent {path parent : Path} (h : path.parent? = some parent)
    (tree : FileTree) : Grown path.Passes tree (perform (createAll parent) tree).2 := by
  refine (grown_createAll parent tree).mono ?_
  rintro place ⟨front, hfront, rfl⟩ -
  rw [Path.components_parent h] at hfront
  refine Path.passes_of_prefix_components (hfront.trans (List.dropLast_prefix _)) ?_
  rintro rfl
  have hne : path.components ≠ [] := by
    intro hnil
    simp [Path.parent?, hnil] at h
  have hlength := hfront.length_le
  have hpos := List.length_pos_iff.mpr hne
  rw [List.length_dropLast] at hlength
  omega

theorem grown_createAll_directory (path : Path) (tree : FileTree) :
    Grown path.Passes tree (perform (createAll path.directory) tree).2 := by
  unfold Path.directory
  split
  · next c cs hparent => exact grown_createAll_parent hparent tree
  · -- the working directory is there
    refine (grown_createAll Path.here tree).mono ?_
    rintro place ⟨front, hfront, rfl⟩ hnone
    have hroot : Path.placeOf front = [] := by
      have hcomponents : Path.components Path.here = [Path.here] := by decide
      rw [hcomponents] at hfront
      rcases List.prefix_cons_iff.mp hfront with rfl | ⟨rest, rfl, hrest⟩
      · rfl
      · rw [List.prefix_nil.mp hrest]
        rfl
    rw [hroot] at hnone
    cases hnone

/-! ## Writing -/

/-- The entry that a path names: it lies at the place of the path, and the way to it is open. -/
theorem entry_of_split {path : Path} {parent place : Location} {last : Text}
    (hsplit : split tree path.names = .ok (some (parent, last))) (hlast : isNameless last = false)
    (hentry : entry parent last = .ok place) :
    place = path.place ∧ (∀ name ∈ path.names, Path.isTooLongName name = false) ∧
      ∀ place, path.Passes place → tree.node? place = some .directory := by
  obtain ⟨hshort, rfl⟩ := entry_eq_ok_iff.mp hentry
  refine ⟨(placeOf_of_split hsplit hlast).symm, ?_, ?_⟩
  · obtain ⟨front, hnames, hwalk, -⟩ := split_eq_some_iff.mp hsplit
    obtain ⟨-, hfront, -⟩ := walk_eq_ok_iff.mp hwalk
    rw [hnames]
    intro name hname
    rcases List.mem_append.mp hname with hname | hname
    · exact hfront name hname
    · exact List.mem_singleton.mp hname ▸ hshort
  · rintro place ⟨passed, hpassed, hne, rfl⟩
    obtain ⟨front, hnames, hwalk, henter⟩ := split_eq_some_iff.mp hsplit
    obtain ⟨hparent, -, hfronts⟩ := walk_eq_ok_iff.mp hwalk
    rw [hnames] at hpassed hne
    rcases List.prefix_concat_iff.mp hpassed with heq | hpassed
    · exact absurd heq hne
    · by_cases heq : passed = front
      · rw [heq, Path.placeOf, hparent]
        exact enter_eq_ok_iff.mp henter
      · exact hfronts passed hpassed heq

theorem write_cases (path : Path) (content : Octets) (tree : FileTree) :
    (∃ e, perform (write path content) tree = (.error e, tree)) ∨
      perform (write path content) tree = (.ok (), tree.put path.place (.file content)) ∧
        tree.node? path.place ≠ some .directory ∧
        (tree.put path.place (.file content)).find? path = some (.file content) := by
  simp only [write]
  cases hrefusal : refusal? path with
  | some e => exact .inl ⟨e, rfl⟩
  | none =>
    simp only [perform_bind_get, perform_bind_except]
    cases hsplit : split tree path.names with
    | error e => exact .inl ⟨e, rfl⟩
    | ok found =>
      rcases found with _ | ⟨parent, last⟩
      · exact .inl ⟨_, rfl⟩
      · simp only [perform_ite, perform_bind_throw, perform_bind_except, perform_set]
        cases hslash : path.endsWithSlash with
        | true => exact .inl ⟨_, rfl⟩
        | false =>
          cases hlast : isNameless last with
          | true => exact .inl ⟨_, rfl⟩
          | false =>
            rw [Bool.or_self, if_neg Bool.false_ne_true]
            cases hentry : entry parent last with
            | error e => exact .inl ⟨e, rfl⟩
            | ok place =>
              obtain ⟨rfl, hnames, hpassed⟩ := entry_of_split hsplit hlast hentry
              by_cases hnode : tree.node? path.place = some .directory
              · exact .inl ⟨_, if_pos hnode⟩
              · have hput := node?_put tree (isUpward_of_ne_directory hnode) (.file content)
                refine .inr ⟨if_neg hnode, hnode, find?_eq_some_iff.mpr
                  ⟨hrefusal, hnames, fun place hp => ?_, fun hends => ?_, ?_⟩⟩
                · rw [hput, if_neg, hpassed place hp]
                  rintro rfl
                  exact hnode (hpassed _ hp)
                · rw [hslash] at hends
                  cases hends
                · rw [hput, if_pos rfl]

theorem split_congr {other : FileTree} {names : List Text}
    (h : ∀ front, front <+: names → front ≠ names →
      tree.node? (Path.placeOf front) = other.node? (Path.placeOf front)) :
    split tree names = split other names := by
  unfold split
  split
  · rfl
  · next last before hreverse =>
    have hnames : names = before.reverse ++ [last] := by
      rw [← List.reverse_reverse names, hreverse, List.reverse_cons]
    have hproper : ∀ front, front <+: before.reverse → front <+: names ∧ front ≠ names := by
      intro front hfront
      rw [hnames]
      refine ⟨hfront.trans (List.prefix_append _ _), fun heq => ?_⟩
      have hlength := hfront.length_le
      rw [heq, List.length_append, List.length_singleton] at hlength
      omega
    have hwalk : tree.walk [] before.reverse = other.walk [] before.reverse := by
      refine walk_congr fun front hfront _ => ?_
      obtain ⟨hbegins, hne⟩ := hproper front hfront
      exact h front hbegins hne
    rw [hwalk]
    cases hparent : other.walk [] before.reverse with
    | error e => rfl
    | ok parent =>
      obtain ⟨rfl, -, -⟩ := walk_eq_ok_iff.mp hparent
      obtain ⟨hbegins, hne⟩ := hproper before.reverse (List.prefix_refl _)
      have hnode := h before.reverse hbegins hne
      simp only [bind, Except.bind, enter]
      rw [Path.placeOf] at hnode
      rw [hnode]

/-- Whether a write succeeds is settled by what stands on the way to its path, and by whether a
directory stands there. -/
theorem write_congr {other : FileTree} {path : Path}
    (hpassed : ∀ place, path.Passes place → tree.node? place = other.node? place)
    (hplace : tree.node? path.place = some .directory ↔
      other.node? path.place = some .directory) (content : Octets) :
    (perform (write path content) tree).1 = (perform (write path content) other).1 := by
  have hsplit : split tree path.names = split other path.names :=
    split_congr fun front hfront hne => hpassed _ ⟨front, hfront, hne, rfl⟩
  simp only [write]
  cases refusal? path with
  | some e => rfl
  | none =>
    simp only [perform_bind_get, perform_bind_except, hsplit]
    cases hfound : split other path.names with
    | error e => rfl
    | ok found =>
      rcases found with _ | ⟨parent, last⟩
      · rfl
      · simp only [perform_ite, perform_bind_throw, perform_bind_except, perform_set]
        cases path.endsWithSlash with
        | true => rfl
        | false =>
          cases hlast : isNameless last with
          | true => rfl
          | false =>
            rw [Bool.or_self, if_neg Bool.false_ne_true, if_neg Bool.false_ne_true]
            cases hentry : entry parent last with
            | error e => rfl
            | ok place =>
              obtain ⟨rfl, -, -⟩ := entry_of_split hfound hlast hentry
              simp only [hplace]
              split
              · rfl
              · rfl

/-- A write on a tree that is, along its path, as the same write has left another one does the
same again. -/
theorem write_again {other : FileTree} {path : Path} {content : Octets}
    (h : SameAlong path other (perform (write path content) tree).2) :
    (perform (write path content) other).1 = (perform (write path content) tree).1 ∧
      SameAlong path (perform (write path content) other).2
        (perform (write path content) tree).2 := by
  rcases write_cases path content tree with ⟨e, heq⟩ | ⟨heq, hvacant, hfind⟩
  · rw [heq] at h ⊢
    have hanswer := write_congr (fun place hp => h place (.inl hp))
      (by rw [h _ (.inr rfl)]) content
    rw [heq] at hanswer
    rcases write_cases path content other with ⟨e', heq'⟩ | ⟨heq', -, -⟩
    · rw [heq'] at hanswer ⊢
      exact ⟨hanswer, h⟩
    · rw [heq'] at hanswer
      cases hanswer
  · rw [heq] at h ⊢
    have hput := node?_put tree (isUpward_of_ne_directory hvacant) (.file content)
    obtain ⟨-, -, hpassed, -, -⟩ := find?_eq_some_iff.mp hfind
    have hne : ∀ place, path.Passes place → place ≠ path.place := by
      rintro place hp rfl
      have hdirectory := hpassed _ hp
      rw [hput, if_pos rfl] at hdirectory
      cases hdirectory
    have hfile : other.node? path.place = some (.file content) := by
      rw [h _ (.inr rfl), hput, if_pos rfl]
    have hanswer : (perform (write path content) tree).1 =
        (perform (write path content) other).1 := by
      refine write_congr (fun place hp => ?_) ⟨fun hdirectory => absurd hdirectory hvacant, ?_⟩ _
      · rw [h place (.inl hp), hput, if_neg (hne place hp)]
      · rw [hfile]
        exact nofun
    rw [heq] at hanswer
    rcases write_cases path content other with ⟨e, heq'⟩ | ⟨heq', hvacant', -⟩
    · rw [heq'] at hanswer
      cases hanswer
    · rw [heq']
      have hput' := node?_put other (isUpward_of_ne_directory hvacant') (.file content)
      refine ⟨rfl, ?_⟩
      rintro place (hp | rfl)
      · rw [hput', if_neg (hne place hp)]
        exact h place (.inl hp)
      · rw [hput', if_pos rfl, hput, if_pos rfl]

theorem writeBelow_cases (path : Path) (content : Octets) (tree : FileTree) :
    (∃ e after, perform (writeBelow path content) tree = (.error e, after) ∧
        Grown path.Passes tree after) ∨
      ∃ after, perform (writeBelow path content) tree = (.ok (), after) ∧
        Filled path.Passes path.place content tree after ∧
        after.find? path = some (.file content) := by
  have hwrite : ∀ left, Grown path.Passes tree left →
      (∃ e after, perform (write path content) left = (.error e, after) ∧
        Grown path.Passes tree after) ∨
      ∃ after, perform (write path content) left = (.ok (), after) ∧
        Filled path.Passes path.place content tree after ∧
        after.find? path = some (.file content) := by
    intro left hgrown
    rcases write_cases path content left with ⟨e, heq⟩ | ⟨heq, hvacant, hfind⟩
    · exact .inl ⟨e, left, heq, hgrown⟩
    · exact .inr ⟨_, heq, hgrown.filled (filled_put hvacant content), hfind⟩
  simp only [writeBelow]
  cases hparent : path.parent? with
  | none => exact hwrite tree (Grown.refl _ tree)
  | some parent =>
    have hgrown := grown_createAll_parent hparent tree
    simp only [perform_bind]
    generalize perform (createAll parent) tree = created at hgrown ⊢
    obtain ⟨answer, left⟩ := created
    cases answer with
    | error e => exact .inl ⟨e, left, rfl, hgrown⟩
    | ok _ => exact hwrite left hgrown

/-! ## Staging -/

theorem length_head_le_longest (nodes : List (Location × FileNode)) (least : Nat) :
    least ≤ nodes.foldl (fun n (place, _) => max n (place.headD []).length) least ∧
      ∀ entry ∈ nodes, (entry.1.headD []).length ≤
        nodes.foldl (fun n (place, _) => max n (place.headD []).length) least := by
  induction nodes generalizing least with
  | nil => exact ⟨Nat.le_refl _, fun _ h => nomatch h⟩
  | cons first rest ih =>
    obtain ⟨place, node⟩ := first
    obtain ⟨hleast, hrest⟩ := ih (max least (place.headD []).length)
    refine ⟨Nat.le_trans (Nat.le_max_left _ _) hleast, fun entry hentry => ?_⟩
    rcases List.mem_cons.mp hentry with rfl | hentry
    · exact Nat.le_trans (Nat.le_max_right _ _) hleast
    · exact hrest entry hentry

theorem node?_freshName (tree : FileTree) (place : Location) :
    tree.node? (tree.freshName :: place) = none := by
  have hup : Location.isUpward (tree.freshName :: place) = false := by
    have habove : tree.freshName ≠ Path.above := by
      simp only [freshName, Path.above]
      cases tree.nodes.foldl (fun n (place, _) => max n (place.headD []).length) 0 with
      | zero => decide
      | succ n =>
        rw [List.replicate_succ]
        intro h
        exact absurd (List.cons.inj (List.cons.inj h).2).1 (by decide)
    have htop : tree.freshName ≠ Path.top := by
      intro h
      exact absurd (List.cons.inj h).1 (by decide)
    simp [Location.isUpward, habove, htop]
  rw [node?, hup, if_neg Bool.false_ne_true]
  refine List.lookup_eq_none_iff.mpr fun entry hentry => ?_
  have hlength := (length_head_le_longest tree.nodes 0).2 entry hentry
  refine bne_iff_ne.mpr fun heq => ?_
  rw [← heq, List.headD_cons, freshName, List.length_cons, List.length_replicate] at hlength
  exact Nat.not_succ_le_self _ hlength

theorem stage_cases (directory : Path) (tree : FileTree) :
    (∃ e, perform (stage directory) tree = (.error e, tree)) ∨
      ∃ staged, perform (stage directory) tree = (.ok staged, tree.put staged (.file [])) ∧
        tree.node? staged = none := by
  simp only [stage, perform_bind_get, perform_bind_except]
  cases tree.locate directory with
  | error e => exact .inl ⟨e, rfl⟩
  | ok place =>
    cases henter : tree.enter place with
    | error e => exact .inl ⟨e, by simp only [henter]⟩
    | ok _ => exact .inr ⟨_, by simp only [henter]; rfl, node?_freshName tree place⟩

/-- Moving a staged file takes it from its place and puts it at the path, or does nothing. -/
theorem moveTo_cases {staged : Location} {empty : Octets}
    (hstaged : tree.node? staged = some (.file empty)) (content : Octets) (path : Path) :
    (∃ e, perform (moveTo staged content path) tree = (.error e, tree)) ∨
      ∃ after, perform (moveTo staged content path) tree = (.ok (), after) ∧
        tree.node? path.place ≠ some .directory ∧
        (∀ place, after.node? place = if place = path.place then some (.file content)
          else if place = staged then none else tree.node? place) ∧
        after.find? path = some (.file content) := by
  simp only [moveTo, perform_ite, perform_bind_throw]
  cases path.hasNul with
  | true => exact .inl ⟨_, rfl⟩
  | false =>
    cases hrefusal : refusal? path with
    | some e => exact .inl ⟨e, rfl⟩
    | none =>
      simp only [Bool.false_eq_true, ↓reduceIte, perform_bind_get, perform_bind_except]
      cases hsplit : split tree path.names with
      | error e => exact .inl ⟨e, rfl⟩
      | ok found =>
        rcases found with _ | ⟨parent, last⟩
        · exact .inl ⟨_, rfl⟩
        · simp only [perform_ite, perform_bind_throw, perform_bind_except, perform_set]
          cases hlast : isNameless last with
          | true => exact .inl ⟨_, rfl⟩
          | false =>
            rw [if_neg Bool.false_ne_true]
            cases hentry : entry parent last with
            | error e => exact .inl ⟨e, rfl⟩
            | ok place =>
              cases hslash : path.endsWithSlash with
              | true => exact .inl ⟨_, rfl⟩
              | false =>
                obtain ⟨rfl, hnames, hpassed⟩ := entry_of_split hsplit hlast hentry
                by_cases hnode : tree.node? path.place = some .directory
                · exact .inl ⟨_, if_pos hnode⟩
                · have hstagedUp : staged.isUpward = false :=
                    isUpward_of_ne_directory (by rw [hstaged]; exact nofun)
                  have hnodes : ∀ place, ((tree.erase staged).put path.place
                      (.file content)).node? place = if place = path.place then
                        some (.file content)
                      else if place = staged then none else tree.node? place := by
                    intro place
                    rw [node?_put _ (isUpward_of_ne_directory hnode), node?_erase tree hstagedUp]
                  refine .inr ⟨_, if_neg hnode, hnode, hnodes, find?_eq_some_iff.mpr
                    ⟨hrefusal, hnames, fun place hp => ?_, fun hends => ?_, ?_⟩⟩
                  · have hdirectory := hpassed place hp
                    have hne : place ≠ staged := by
                      rintro rfl
                      rw [hstaged] at hdirectory
                      cases hdirectory
                    rw [hnodes, if_neg, if_neg hne, hdirectory]
                    rintro rfl
                    exact hnode hdirectory
                  · rw [hslash] at hends
                    cases hends
                  · rw [hnodes, if_pos rfl]

end FileAction

end BinarySize
