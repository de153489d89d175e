import BinarySize.ModuleText.Summary
import BinarySize.Proofs.Places

/-!
# Openers of a module text

The scan for openers goes on behind each one that it finds. Still nothing is missed and nothing is
counted twice: an opener holds no other parenthesis, and no place opens two constructs. Proved here:

* `opens_iff`: what is found at a place is told by the text from there on, and is one construct;
* `openers_cons`: the scan may as well try every place;
* `counts_openers`: so each construct is counted once for each place at which it is opened.
-/

namespace BinarySize.Construct

open Text

/-! ## Openers at a place -/

/-- The texts that open a construct: a parenthesis, any blanks, the keyword, and then the end or a
character that is part of no word. -/
inductive Opens (construct : Construct) : Text → Prop
  | intro {gap behind : Text} (hblank : ∀ c ∈ gap, isBlank c = true)
      (hend : ∀ c, behind.head? = some c → isWordChar c = false) :
      Opens construct ('(' :: (gap ++ (construct.keyword.toList ++ behind)))

theorem keyword_injective {a b : Construct} (h : a.keyword = b.keyword) : a = b := by
  cases a <;> cases b <;> first | rfl | exact absurd h (by decide)

theorem isWordChar_of_mem_keyword {construct : Construct} {c : Char}
    (hc : c ∈ construct.keyword.toList) : isWordChar c = true := by
  have hall : construct.keyword.toList.all isWordChar = true := by
    cases construct <;> decide +kernel
  exact List.all_eq_true.mp hall c hc

theorem takeWhile_keyword (construct : Construct) {behind : Text} (h : atWordEnd behind = true) :
    (construct.keyword.toList ++ behind).takeWhile isWordChar = construct.keyword.toList := by
  have hstop : behind.takeWhile isWordChar = [] := by
    cases behind with
    | nil => rfl
    | cons c behind => simp [atWordEnd_iff.mp h c rfl]
  rw [List.takeWhile_append_of_pos fun c hc => isWordChar_of_mem_keyword hc, hstop, List.append_nil]

theorem keyword_unique {a b : Construct} {behind rest : Text}
    (heq : a.keyword.toList ++ behind = b.keyword.toList ++ rest) (ha : atWordEnd behind = true)
    (hb : atWordEnd rest = true) : a = b ∧ behind = rest := by
  have hword : a.keyword.toList = b.keyword.toList := by
    rw [← takeWhile_keyword a ha, heq, takeWhile_keyword b hb]
  exact ⟨keyword_injective (String.toList_inj.mp hword),
    List.append_cancel_left (hword ▸ heq : b.keyword.toList ++ behind = b.keyword.toList ++ rest)⟩

theorem atKeyword?_eq_some_iff {cs behind : Text} {construct : Construct} :
    atKeyword? cs = some (construct, behind) ↔
      cs = construct.keyword.toList ++ behind ∧ atWordEnd behind = true := by
  have hsound : ∀ {other : Construct} {rest : Text}, atKeyword? cs = some (other, rest) →
      cs = other.keyword.toList ++ rest ∧ atWordEnd rest = true := by
    intro other rest h
    obtain ⟨tried, -, h⟩ := List.exists_of_findSome?_eq_some h
    split at h
    · next found hfound =>
      rw [after?_eq_some] at hfound
      split at h
      · next hend =>
        cases h
        exact ⟨hfound, hend⟩
      · cases h
    · cases h
  constructor
  · exact hsound
  · rintro ⟨rfl, hend⟩
    have hfound : (atKeyword? (construct.keyword.toList ++ behind)).isSome = true := by
      rw [atKeyword?, List.findSome?_isSome_iff]
      refine ⟨construct, by cases construct <;> decide, ?_⟩
      simp only [after?_eq_some.mpr rfl, if_pos hend, Option.isSome_some]
    obtain ⟨⟨other, rest⟩, hother⟩ := Option.isSome_iff_exists.mp hfound
    obtain ⟨heq, hrest⟩ := hsound hother
    obtain ⟨rfl, rfl⟩ := keyword_unique heq hend hrest
    exact hother

theorem atOpener?_eq_some_iff {cs behind : Text} {construct : Construct} :
    atOpener? cs = some (construct, behind) ↔
      ∃ gap, cs = '(' :: (gap ++ (construct.keyword.toList ++ behind)) ∧
        (∀ c ∈ gap, isBlank c = true) ∧ atWordEnd behind = true := by
  constructor
  · intro h
    unfold atOpener? at h
    split at h
    · next cs =>
      obtain ⟨hkeyword, hend⟩ := atKeyword?_eq_some_iff.mp h
      have hcut : cs.takeWhile isBlank ++ dropBlanks cs = cs := List.takeWhile_append_dropWhile
      rw [hkeyword] at hcut
      exact ⟨cs.takeWhile isBlank, by rw [hcut], List.all_eq_true.mp List.all_takeWhile, hend⟩
    · cases h
  · rintro ⟨gap, rfl, hblank, hend⟩
    have hhead : ∀ c, (construct.keyword.toList ++ behind).head? = some c → isBlank c = false := by
      cases construct <;> (rintro c ⟨⟩; decide)
    rw [atOpener?, dropBlanks_append hblank, dropBlanks_of_head hhead]
    exact atKeyword?_eq_some_iff.mpr ⟨rfl, hend⟩

/-- What is found at a place is told by the text from there on. -/
theorem opens_iff {construct : Construct} {cs : Text} :
    construct.Opens cs ↔ (atOpener? cs).map (·.1) = some construct := by
  rw [Option.map_eq_some_iff]
  constructor
  · rintro ⟨hblank, hend⟩
    exact ⟨_, atOpener?_eq_some_iff.mpr ⟨_, rfl, hblank, atWordEnd_iff.mpr hend⟩, rfl⟩
  · rintro ⟨⟨_, behind⟩, h, rfl⟩
    obtain ⟨gap, rfl, hblank, hend⟩ := atOpener?_eq_some_iff.mp h
    exact .intro hblank (atWordEnd_iff.mp hend)

instance (construct : Construct) (cs : Text) : Decidable (construct.Opens cs) :=
  decidable_of_iff _ opens_iff.symm

/-- The constructs that a text opens with its first character are at most one. -/
theorem filter_opens (cs : Text) :
    all.filter (fun construct => construct.Opens cs) = ((atOpener? cs).map (·.1)).toList := by
  simp only [opens_iff]
  cases (atOpener? cs).map (·.1) with
  | none => rfl
  | some construct => cases construct <;> rfl

/-! ## The scan -/

/-- Where no parenthesis stands the scan finds nothing. -/
theorem openers_append {front : Text} (h : '(' ∉ front) (rest : Text) :
    openers (front ++ rest) = openers rest := by
  induction front with
  | nil => rfl
  | cons c front ih =>
    rw [List.mem_cons, not_or] at h
    rw [List.cons_append, openers_of_none (atOpener?_of_ne (Ne.symm h.1) _), ih h.2]

/-- The scan may as well try every place. -/
theorem openers_cons (c : Char) (cs : Text) :
    openers (c :: cs) = ((atOpener? (c :: cs)).map (·.1)).toList ++ openers cs := by
  cases h : atOpener? (c :: cs) with
  | none => exact openers_of_none h
  | some found =>
    obtain ⟨construct, behind⟩ := found
    obtain ⟨gap, heq, hblank, -⟩ := atOpener?_eq_some_iff.mp h
    -- what the scan jumps over holds no parenthesis
    have hfront : '(' ∉ gap ++ construct.keyword.toList := by
      intro hmem
      rcases List.mem_append.mp hmem with hmem | hmem
      · exact absurd (hblank _ hmem) (by decide)
      · exact absurd (isWordChar_of_mem_keyword hmem) (by decide)
    rw [openers_of_opener h, (List.cons.inj heq).2, ← List.append_assoc, openers_append hfront]
    rfl

/-- The scan gives, place by place, what is opened there. -/
theorem openers_eq_flatMap (text : Text) :
    openers text = (List.range text.length).flatMap fun place =>
      all.filter fun construct => construct.Opens (text.drop place) := by
  induction text with
  | nil => rw [openers]; rfl
  | cons c cs ih =>
    rw [openers_cons, ih, List.length_cons, List.range_succ_eq_map, List.flatMap_cons,
      List.flatMap_map, filter_opens]
    rfl

def places (construct : Construct) (text : Text) : List Nat :=
  (List.range text.length).filter fun place => construct.Opens (text.drop place)

theorem places_cons (construct : Construct) (c : Char) (cs : Text) :
    construct.places (c :: cs) =
      (if construct.Opens (c :: cs) then [0] else []) ++ (construct.places cs).map (· + 1) := by
  simp only [places, List.length_cons, filter_range_succ, List.drop_zero, List.drop_succ_cons,
    decide_eq_true_eq]

theorem count_openers (construct : Construct) (text : Text) :
    (openers text).count construct = (construct.places text).length := by
  induction text with
  | nil => rw [openers]; rfl
  | cons c cs ih =>
    have hhere : (((atOpener? (c :: cs)).map (·.1)).toList.count construct) =
        (if construct.Opens (c :: cs) then [0] else []).length := by
      by_cases h : construct.Opens (c :: cs)
      · rw [if_pos h, opens_iff.mp h]
        exact List.count_singleton_self
      · rw [if_neg h]
        refine List.count_eq_zero.mpr fun hmem => h (opens_iff.mpr ?_)
        exact Option.mem_toList.mp hmem
    rw [openers_cons, List.count_append, ih, hhere, places_cons, List.length_append,
      List.length_map]

/-- **Counts.** The count of each construct is the number of places at which the text opens it. The
scan finds what is opened, place by place, and that is at most one construct at each place. -/
theorem counts_openers (text : Text) :
    ModuleSummary.counts (openers text) =
        all.map (fun construct => (construct, (construct.places text).length)) ∧
      openers text = ((List.range text.length).flatMap fun place =>
        all.filter fun construct => construct.Opens (text.drop place)) ∧
      ∀ place, (all.filter fun construct => construct.Opens (text.drop place)).length ≤ 1 := by
  refine ⟨?_, openers_eq_flatMap text, fun place => ?_⟩
  · simp only [ModuleSummary.counts, count_openers]
  · rw [filter_opens]
    exact Option.length_toList_le

/-- Openers stand inside others and run over line ends; a longer word is no keyword. -/
example :
    let text := "(globals) (type (func)) ((\n data".toList
    Construct.type.places text = [10] ∧ Construct.function.places text = [16] ∧
      Construct.data.places text = [25] ∧ Construct.global.places text = [] := by
  decide +kernel

end BinarySize.Construct
