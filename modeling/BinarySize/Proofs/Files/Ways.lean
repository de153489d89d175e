import BinarySize.Proofs.Files.Actions
import BinarySize.Proofs.Files.Apart

/-!
# Ways that can be made

Directories can be created along a path exactly if no file stands on the way and no name is too
long; then directories stand at all places to which its names lead (`createAll_cases`).
-/

namespace BinarySize

namespace Path

/-! ## Places on a way -/

/-- Names lead through the places to which the first of them lead, their own among them. -/
def Leads (names : List Text) (place : Location) : Prop :=
  ∃ front, front <+: names ∧ placeOf front = place

theorem leads_concat_iff {names : List Text} {name : Text} {place : Location} :
    Leads (names ++ [name]) place ↔ Leads names place ∨ place = placeOf (names ++ [name]) := by
  constructor
  · rintro ⟨front, hfront, rfl⟩
    rcases List.prefix_concat_iff.mp hfront with rfl | hfront
    · exact .inr rfl
    · exact .inl ⟨front, hfront, rfl⟩
  · rintro (⟨front, hfront, rfl⟩ | rfl)
    · exact ⟨front, hfront.trans (List.prefix_append _ _), rfl⟩
    · exact ⟨_, List.prefix_rfl, rfl⟩

theorem leads_nil_iff {place : Location} : Leads [] place ↔ place = [] := by
  constructor
  · rintro ⟨front, hfront, rfl⟩
    rw [List.prefix_nil.mp hfront]
    rfl
  · rintro rfl
    exact ⟨[], List.prefix_rfl, rfl⟩

/-- Names that are nothing but ways to stay or to go up lead to where a directory must be: above
the root, or where the names before have been. -/
theorem leads_of_nameless {names : List Text} {name : Text}
    (h : FileAction.isNameless name = true) :
    (placeOf (names ++ [name])).isUpward = true ∨ Leads names (placeOf (names ++ [name])) := by
  have hlast : placeOf (names ++ [name]) = FileTree.follow (placeOf names) name := List.foldl_append
  rw [hlast]
  have hself : Leads names (placeOf names) := ⟨names, List.prefix_rfl, rfl⟩
  unfold FileTree.follow
  split
  · exact .inr hself
  · next hhere =>
    split
    · exact .inl (by decide)
    · next htop =>
      have habove : name = above := by
        simpa [FileAction.isNameless, hhere, htop] using h
      rw [if_pos habove]
      split
      · exact .inr hself
      · split
        · next hup => exact .inl (by simpa [Location.isUpward] using hup)
        · exact .inr (exists_front_of_suffix (List.tail_suffix _))

/-- Names that stay where they are lead to no new places. -/
theorem leads_filter_iff {first : Text} {rest : List Text} {place : Location} :
    Leads (first :: rest.filter (· ≠ here)) place ↔ Leads (first :: rest) place := by
  have hsame : ∀ names, placeOf (first :: names.filter (· ≠ here)) = placeOf (first :: names) :=
    fun names => foldl_follow_filter names _
  constructor
  · rintro ⟨front, hfront, rfl⟩
    cases front with
    | nil => exact ⟨[], List.nil_prefix, rfl⟩
    | cons start front =>
      obtain ⟨rfl, hrest⟩ := List.cons_prefix_cons.mp hfront
      obtain ⟨whole, hwhole, rfl⟩ : ∃ whole, whole <+: rest ∧ whole.filter (· ≠ here) = front := by
        by_cases heq : front = rest.filter (· ≠ here)
        · exact ⟨rest, List.prefix_rfl, heq.symm⟩
        · obtain ⟨whole, hwhole, -, hfilter⟩ := exists_prefix_filter hrest heq
          exact ⟨whole, hwhole, hfilter⟩
      exact ⟨start :: whole, List.cons_prefix_cons.mpr ⟨rfl, hwhole⟩, (hsame whole).symm⟩
  · rintro ⟨front, hfront, rfl⟩
    cases front with
    | nil => exact ⟨[], List.nil_prefix, rfl⟩
    | cons start front =>
      obtain ⟨rfl, hrest⟩ := List.cons_prefix_cons.mp hfront
      exact ⟨start :: front.filter (· ≠ here), List.cons_prefix_cons.mpr ⟨rfl, hrest.filter _⟩,
        hsame front⟩

/-- No name is too long, and something holds of all places through which the names lead. -/
structure Along (holds : Location → Prop) (names : List Text) : Prop where
  short : ∀ name ∈ names, isTooLongName name = false
  places : ∀ place, Leads names place → holds place

section
variable {holds : Location → Prop} {names : List Text} {name : Text}

theorem along_nil (h : holds []) : Along holds [] where
  short _ hname := nomatch hname
  places _ hplace := leads_nil_iff.mp hplace ▸ h

theorem along_concat_iff :
    Along holds (names ++ [name]) ↔ Along holds names ∧ isTooLongName name = false ∧
      holds (placeOf (names ++ [name])) := by
  constructor
  · rintro ⟨hshort, hplaces⟩
    exact ⟨⟨fun other hother => hshort other (List.mem_append_left _ hother),
      fun place hplace => hplaces place (leads_concat_iff.mpr (.inl hplace))⟩,
      hshort name (by simp), hplaces _ (leads_concat_iff.mpr (.inr rfl))⟩
  · rintro ⟨⟨hshort, hplaces⟩, hname, hlast⟩
    constructor
    · intro other hother
      rcases List.mem_append.mp hother with hother | hother
      · exact hshort other hother
      · exact List.mem_singleton.mp hother ▸ hname
    · intro place hplace
      rcases leads_concat_iff.mp hplace with hplace | rfl
      · exact hplaces place hplace
      · exact hlast

theorem along_filter_iff {first : Text} {rest : List Text} :
    Along holds (first :: rest.filter (· ≠ here)) ↔ Along holds (first :: rest) := by
  have hshort : (∀ name ∈ first :: rest.filter (· ≠ here), isTooLongName name = false) ↔
      ∀ name ∈ first :: rest, isTooLongName name = false := by
    have hhere : isTooLongName here = false := by decide
    simp only [List.forall_mem_cons, List.mem_filter, decide_eq_true_eq]
    refine and_congr_right fun _ => ⟨fun h name hname => ?_, fun h name hname => h name hname.1⟩
    by_cases heq : name = here
    · rw [heq, hhere]
    · exact h name ⟨hname, heq⟩
  constructor
  · rintro ⟨hnames, hplaces⟩
    exact ⟨hshort.mp hnames, fun place hplace => hplaces place (leads_filter_iff.mpr hplace)⟩
  · rintro ⟨hnames, hplaces⟩
    exact ⟨hshort.mpr hnames, fun place hplace => hplaces place (leads_filter_iff.mp hplace)⟩

theorem along_components_iff {path : Path} :
    Along holds path.components ↔ Along holds path.names := by
  unfold components
  cases path.names with
  | nil => rfl
  | cons first rest => exact along_filter_iff

end

end Path

namespace FileTree

open BinarySize.Path

variable {tree before after : FileTree} {names : List Text}

/-- No file stands where the names lead. -/
def Clear (tree : FileTree) (names : List Text) : Prop :=
  Along (fun place => tree.fileAt place = none) names

/-- Directories stand wherever the names lead. -/
def Made (tree : FileTree) (names : List Text) : Prop :=
  Along (fun place => tree.node? place = some .directory) names

theorem fileAt_eq_none_iff {place : Location} :
    tree.fileAt place = none ↔ tree.node? place = none ∨ tree.node? place = some .directory := by
  unfold fileAt
  cases tree.node? place with
  | none => simp
  | some node => cases node <;> simp

theorem Made.clear (h : Made tree names) : Clear tree names :=
  ⟨h.short, fun place hplace => fileAt_eq_none_iff.mpr (.inr (h.places place hplace))⟩

theorem Grown.clear_iff {way : Location → Prop} (h : Grown way before after) :
    Clear after names ↔ Clear before names := by
  have hsame : after.fileAt = before.fileAt := funext h.fileAt
  rw [Clear, hsame, Clear]

/-- A way stays made as long as its directories are kept. -/
theorem Made.mono (hmade : Made before names)
    (hkept : ∀ place, before.node? place = some .directory → after.node? place = some .directory) :
    Made after names :=
  ⟨hmade.short, fun place hplace => hkept place (hmade.places place hplace)⟩

/-- Where a way of directories ends, names that are no entries lead to directories. -/
theorem Made.directory_of_nameless (h : Made tree names) {name : Text}
    (hname : FileAction.isNameless name = true) :
    tree.node? (placeOf (names ++ [name])) = some .directory := by
  rcases leads_of_nameless hname with hup | hplace
  · rw [node?, hup, if_pos rfl]
  · exact h.places _ hplace

/-! ## Walking -/

/-- On a clear way nothing but a missing directory ends a walk. -/
theorem walk_of_clear {start : Location} (hshort : ∀ name ∈ names, isTooLongName name = false)
    (hfree : ∀ front, front <+: names → tree.fileAt (front.foldl follow start) = none) :
    (∃ place, tree.walk start names = .ok place) ∨ tree.walk start names = .error .notFound := by
  induction names generalizing start with
  | nil => exact .inl ⟨start, rfl⟩
  | cons name rest ih =>
    have hname := hshort name List.mem_cons_self
    have hstart : tree.fileAt start = none := hfree [] List.nil_prefix
    rcases fileAt_eq_none_iff.mp hstart with hnone | hdirectory
    · refine .inr ?_
      simp only [walk, enter, hnone]
    · simp only [walk, enter, hdirectory, hname, Bool.false_eq_true, ↓reduceIte]
      refine ih (fun other hother => hshort other (List.mem_cons_of_mem _ hother)) ?_
      intro front hfront
      exact hfree (name :: front) (List.cons_prefix_cons.mpr ⟨rfl, hfront⟩)

/-- Names lead to a directory exactly if the whole way to it is made. -/
theorem made_iff : Made tree names ↔
    tree.walk [] names = .ok (placeOf names) ∧ tree.node? (placeOf names) = some .directory := by
  rw [walk_eq_ok_iff]
  constructor
  · rintro ⟨hshort, hdirectory⟩
    exact ⟨⟨rfl, hshort, fun front hfront _ => hdirectory _ ⟨front, hfront, rfl⟩⟩,
      hdirectory _ ⟨names, List.prefix_rfl, rfl⟩⟩
  · rintro ⟨⟨-, hshort, hfronts⟩, hlast⟩
    refine ⟨hshort, ?_⟩
    rintro place ⟨front, hfront, rfl⟩
    by_cases heq : front = names
    · rw [heq]
      exact hlast
    · exact hfronts front hfront heq

theorem leadsToDirectory_iff : FileAction.leadsToDirectory tree names = true ↔ Made tree names := by
  rw [made_iff, FileAction.leadsToDirectory]
  constructor
  · intro h
    split at h
    · next place hwalk =>
      obtain ⟨rfl, -, -⟩ := walk_eq_ok_iff.mp hwalk
      exact ⟨hwalk, eq_of_beq h⟩
    · cases h
  · rintro ⟨hwalk, hlast⟩
    rw [hwalk]
    exact beq_iff_eq.mpr hlast

end FileTree

namespace FileAction

open FileTree BinarySize.Path

variable {tree after : FileTree} {names : List Text} {last : Text}

/-! ## One directory -/

theorem split_of_made (h : Made tree names) (last : Text) :
    split tree (names ++ [last]) = .ok (some (placeOf names, last)) := by
  obtain ⟨hwalk, hdirectory⟩ := made_iff.mp h
  exact split_eq_some_iff.mpr ⟨names, rfl, hwalk, enter_eq_ok_iff.mpr hdirectory⟩

theorem made_of_split {place : Location} (h : split tree names = .ok (some (place, last))) :
    ∃ front, names = front ++ [last] ∧ place = placeOf front ∧ Made tree front := by
  obtain ⟨front, hnames, hwalk, henter⟩ := split_eq_some_iff.mp h
  obtain ⟨rfl, -, -⟩ := walk_eq_ok_iff.mp hwalk
  exact ⟨front, hnames, rfl, made_iff.mpr ⟨hwalk, enter_eq_ok_iff.mp henter⟩⟩

theorem split_of_clear (hclear : Clear tree names) (hnot : ¬ Made tree names) :
    split tree (names ++ [last]) = .error .notFound := by
  have hwalk := walk_of_clear hclear.short fun front hfront => hclear.places _ ⟨front, hfront, rfl⟩
  simp only [split, List.reverse_append, List.reverse_cons, List.reverse_nil, List.nil_append,
    List.singleton_append, List.reverse_reverse]
  rcases hwalk with ⟨place, hwalk⟩ | hwalk
  · obtain ⟨rfl, -, -⟩ := walk_eq_ok_iff.mp hwalk
    have hfree : tree.fileAt (placeOf names) = none := hclear.places _ ⟨names, List.prefix_rfl, rfl⟩
    rcases fileAt_eq_none_iff.mp hfree with hnone | hdirectory
    · rw [placeOf] at hnone
      simp only [hwalk, bind, Except.bind, enter, hnone]
    · exact absurd (made_iff.mpr ⟨hwalk, hdirectory⟩) hnot
  · simp only [hwalk, bind, Except.bind]

/-- What is created is made, below what has been made before. -/
theorem made_of_put (hmade : Made tree names) (hshort : isTooLongName last = false)
    (hlast : isNameless last = false) (hnone : tree.node? (last :: placeOf names) = none) :
    Made (tree.put (last :: placeOf names) .directory) (names ++ [last]) := by
  have hvacant : tree.node? (last :: placeOf names) ≠ some .directory := by
    rw [hnone]
    exact nofun
  have hup := isUpward_of_ne_directory hvacant
  have hput := node?_put tree hup .directory
  have hplace : placeOf (names ++ [last]) = last :: placeOf names := by
    rw [placeOf, List.foldl_append]
    exact follow_of_not_nameless hlast _
  refine along_concat_iff.mpr ⟨hmade.mono fun place hplace => ?_, hshort, ?_⟩
  · rw [hput]
    split
    · rfl
    · exact hplace
  · rw [hplace, hput, if_pos rfl]

theorem made_of_createDirectory (h : perform (createDirectory names) tree = (.ok (), after)) :
    Made after names := by
  simp only [createDirectory, perform_bind_get, perform_bind_except] at h
  cases hsplit : split tree names with
  | error e =>
    rw [hsplit] at h
    cases h
  | ok found =>
    rw [hsplit] at h
    rcases found with _ | ⟨parent, last⟩
    · cases h
    · obtain ⟨front, rfl, rfl, hmade⟩ := made_of_split hsplit
      simp only [perform_ite, perform_bind_throw, perform_bind_except, perform_set] at h
      split at h
      · cases h
      · next hlast =>
        cases hentry : entry (placeOf front) last with
        | error e =>
          rw [hentry] at h
          cases h
        | ok place =>
          obtain ⟨hshort, rfl⟩ := entry_eq_ok_iff.mp hentry
          simp only [hentry] at h
          split at h
          · cases h
          · next hnone =>
            cases h
            exact made_of_put hmade hshort (by simpa using hlast) (by simpa using hnone)

theorem ensureDirectory_of_made (hmade : Made tree names) (hclear : Clear tree (names ++ [last])) :
    ∃ after, perform (ensureDirectory (names ++ [last])) tree = (.ok (), after) := by
  obtain ⟨-, hshort, hfree⟩ := along_concat_iff.mp hclear
  have hthere : tree.node? (placeOf (names ++ [last])) = some .directory →
      leadsToDirectory tree (names ++ [last]) = true := fun h =>
    leadsToDirectory_iff.mpr (along_concat_iff.mpr ⟨hmade, hshort, h⟩)
  simp only [ensureDirectory, perform_tryCatch, createDirectory, perform_bind_get,
    perform_bind_except, split_of_made hmade, perform_ite, perform_bind_throw, perform_pure,
    perform_throw]
  cases hlast : isNameless last with
  | true =>
    simp only [↓reduceIte, hthere (hmade.directory_of_nameless hlast)]
    exact ⟨tree, rfl⟩
  | false =>
    have hplace : placeOf (names ++ [last]) = last :: placeOf names := by
      rw [placeOf, List.foldl_append]
      exact follow_of_not_nameless hlast _
    have hentry : entry (placeOf names) last = .ok (last :: placeOf names) :=
      entry_eq_ok_iff.mpr ⟨hshort, rfl⟩
    rw [hplace] at hfree hthere
    simp only [hentry, Bool.false_eq_true, ↓reduceIte]
    rcases fileAt_eq_none_iff.mp hfree with hnone | hdirectory
    · simp only [hnone, Option.isSome_none, Bool.false_eq_true, ↓reduceIte, perform_set]
      exact ⟨_, rfl⟩
    · simp only [hdirectory, Option.isSome_some, ↓reduceIte, hthere hdirectory]
      exact ⟨tree, rfl⟩

theorem ensureDirectory_of_not_made (hclear : Clear tree names) (hnot : ¬ Made tree names) :
    perform (ensureDirectory (names ++ [last])) tree = (.error .notFound, tree) := by
  have hnowhere : leadsToDirectory tree (names ++ [last]) = false := by
    rw [← Bool.not_eq_true, leadsToDirectory_iff]
    exact fun h => hnot (along_concat_iff.mp h).1
  simp only [ensureDirectory, perform_tryCatch, createDirectory, perform_bind_get,
    perform_bind_except, split_of_clear hclear hnot, hnowhere, Bool.false_eq_true,
    ↓reduceIte, perform_throw]

theorem made_of_ensureDirectory (h : perform (ensureDirectory names) tree = (.ok (), after)) :
    Made after names := by
  simp only [ensureDirectory, perform_tryCatch] at h
  cases hcreate : perform (createDirectory names) tree with
  | mk answer left =>
    rw [hcreate] at h
    cases answer with
    | ok _ =>
      cases h
      exact made_of_createDirectory hcreate
    | error e =>
      simp only [perform_bind_get, perform_ite, perform_pure, perform_throw] at h
      split at h
      · next hleads =>
        cases h
        exact leadsToDirectory_iff.mp hleads
      · cases h

/-! ## All directories of a way -/

theorem ensureDirectories_of_clear {reversed : List Text} (h : Clear tree reversed.reverse) :
    ∃ after, perform (ensureDirectories reversed) tree = (.ok (), after) ∧
      Made after reversed.reverse := by
  induction reversed generalizing tree with
  | nil => exact ⟨tree, rfl, along_nil rfl⟩
  | cons last before ih =>
    rw [List.reverse_cons] at h ⊢
    have hbefore : Clear tree before.reverse := (along_concat_iff.mp h).1
    simp only [ensureDirectories, perform_tryCatch, List.reverse_cons]
    by_cases hmade : Made tree before.reverse
    · obtain ⟨after, hensure⟩ := ensureDirectory_of_made hmade h
      rw [hensure]
      exact ⟨after, rfl, made_of_ensureDirectory hensure⟩
    · -- what lacks is created first, and then the last directory
      obtain ⟨above, hcreate, hmade'⟩ := ih hbefore
      have hgrown := grown_ensureDirectories before tree
      rw [hcreate] at hgrown
      obtain ⟨after, hensure⟩ := ensureDirectory_of_made hmade' (hgrown.clear_iff.mpr h)
      simp only [ensureDirectory_of_not_made hbefore hmade, perform_bind, hcreate, hensure]
      exact ⟨after, rfl, made_of_ensureDirectory hensure⟩

theorem made_of_ensureDirectories {reversed : List Text}
    (h : perform (ensureDirectories reversed) tree = (.ok (), after)) :
    Made after reversed.reverse := by
  cases reversed with
  | nil => exact along_nil rfl
  | cons last before =>
    simp only [ensureDirectories, perform_tryCatch] at h
    cases hfirst : perform (ensureDirectory (last :: before).reverse) tree with
    | mk answer left =>
      rw [hfirst] at h
      cases answer with
      | ok _ =>
        cases h
        exact made_of_ensureDirectory hfirst
      | error e =>
        cases e with
        | notFound =>
          simp only [perform_bind] at h
          cases hbefore : perform (ensureDirectories before) left with
          | mk answer above =>
            rw [hbefore] at h
            cases answer with
            | ok _ => exact made_of_ensureDirectory h
            | error e => cases h
        | _ => cases h

/-- **Ways.** The directories of a path can be created exactly if the system takes the path and its
way is clear, and then the way is made. -/
theorem createAll_cases {path : Path} (hne : path ≠ []) (tree : FileTree) :
    (∃ after, perform (createAll path) tree = (.ok (), after) ∧
      refusal? path = none ∧ Clear tree path.names ∧ Made after path.names) ∨
    (∃ e after, perform (createAll path) tree = (.error e, after) ∧
      ¬ (refusal? path = none ∧ Clear tree path.names)) := by
  have hempty : path.isEmpty = false := List.isEmpty_eq_false_iff.mpr hne
  simp only [createAll, hempty, Bool.false_eq_true, ↓reduceIte]
  cases hrefusal : refusal? path with
  | some e =>
    refine .inr ⟨e, tree, rfl, ?_⟩
    rintro ⟨haccepted, -⟩
    cases haccepted
  | none =>
    cases hcreate : perform (ensureDirectories path.components.reverse) tree with
    | mk answer after =>
      cases answer with
      | ok _ =>
        have hmade := made_of_ensureDirectories hcreate
        have hgrown := grown_ensureDirectories path.components.reverse tree
        rw [hcreate] at hgrown
        rw [List.reverse_reverse] at hmade
        have hnames := along_components_iff.mp hmade
        exact .inl ⟨after, rfl, rfl, hgrown.clear_iff.mp (Made.clear hnames), hnames⟩
      | error e =>
        refine .inr ⟨e, after, rfl, fun h => ?_⟩
        have hclear : Clear tree path.components.reverse.reverse := by
          rw [List.reverse_reverse]
          exact along_components_iff.mpr h.2
        obtain ⟨after', hcreate', -⟩ := ensureDirectories_of_clear hclear
        rw [hcreate] at hcreate'
        cases hcreate'

end FileAction

end BinarySize
