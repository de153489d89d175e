import BinarySize.Proofs.ModuleText.Lookup
import BinarySize.Proofs.Places

/-!
# Snippets of a module text

The lines that define functions cut a module text into stretches: one from each definition up to the
next, and one above the first. Proved here:

* `fromLines_some`: the open function takes lines up to the next definition and to the limit, and
  has no say in what is found below;
* `exists_standsAt`: each definition gives one function, whose snippet is its stretch up to the
  limit;
* `flatMap_snippet_fromLines`: with a limit that no stretch can exceed, the snippets make up the
  listing from the first definition on;
* `functionsOf_snippets`: so the snippets of a module text are cut out of it at its definitions.
-/

namespace BinarySize.ModuleFunction

open Text Identifier

/-! ## Places of definitions -/

def definitionPlaces (ls : List Text) : List Nat :=
  (List.range ls.length).filter fun place => ls[place]?.any defines

theorem mem_definitionPlaces {ls : List Text} {place : Nat} :
    place ∈ definitionPlaces ls ↔ ∃ line, ls[place]? = some line ∧ defines line = true := by
  rw [definitionPlaces, List.mem_filter, List.mem_range, Option.any_eq_true]
  constructor
  · rintro ⟨-, h⟩
    exact h
  · rintro ⟨line, hline, h⟩
    exact ⟨(List.getElem?_eq_some_iff.mp hline).1, line, hline, h⟩

theorem definitionPlaces_cons (line : Text) (rest : List Text) :
    definitionPlaces (line :: rest) =
      (if defines line then [0] else []) ++ (definitionPlaces rest).map (· + 1) := by
  simp only [definitionPlaces, List.length_cons, filter_range_succ, List.getElem?_cons_zero,
    List.getElem?_cons_succ, Option.any_some]

theorem takeWhile_not_defines (ls : List Text) :
    ls.takeWhile (fun line => !defines line) =
      ls.take ((definitionPlaces ls)[0]?.getD ls.length) := by
  induction ls with
  | nil => rfl
  | cons line rest ih =>
    rw [definitionPlaces_cons, List.takeWhile_cons]
    cases defines line with
    | true => rfl
    | false => simp [ih]

theorem dropWhile_not_defines (ls : List Text) :
    ls.dropWhile (fun line => !defines line) =
      ls.drop ((definitionPlaces ls)[0]?.getD ls.length) := by
  have hcut : ls.takeWhile (fun line => !defines line) ++ ls.dropWhile (fun line => !defines line) =
      ls := List.takeWhile_append_dropWhile
  have hplace := List.take_append_drop ((definitionPlaces ls)[0]?.getD ls.length) ls
  rw [takeWhile_not_defines] at hcut
  exact List.append_cancel_left (hcut.trans hplace.symm)

/-! ## Snippets -/

/-- An open function with the lines that belong to it among those that follow. -/
def lengthened (limit : Nat) (following : List Text) (f : ModuleFunction) : ModuleFunction :=
  { f with snippet := f.snippet ++
      (following.takeWhile fun line => !defines line).take (limit - f.snippet.length) }

/-- The open function takes lines up to the next definition, and the functions below it are found
without it. -/
theorem fromLines_some (limit : Nat) (f : ModuleFunction) (ls : List Text) :
    fromLines limit (some f) ls = lengthened limit ls f :: fromLines limit none ls := by
  induction ls generalizing f with
  | nil => simp [fromLines, lengthened]
  | cons line rest ih =>
    rw [fromLines, fromLines]
    cases h : definedBy? line with
    | some identifier =>
      simp [lengthened, defines_of_some h]
    | none =>
      have hdefines := defines_of_none h
      have hadded : lengthened limit rest (addLine limit line f) =
          lengthened limit (line :: rest) f := by
        by_cases hroom : f.snippet.length < limit
        · have hleft : limit - f.snippet.length = limit - (f.snippet.length + 1) + 1 := by omega
          simp [lengthened, addLine, hroom, hdefines, hleft]
        · have hnone : limit - f.snippet.length = 0 := by omega
          simp [lengthened, addLine, hroom, hnone]
      simp [ih, hadded]

/-- What a function is that the line at a place of a listing defines, where the next definition, or
the end of the listing, is at `next`. -/
structure StandsAt (limit : Nat) (ls : List Text) (place next : Nat) (f : ModuleFunction) :
    Prop where
  identifier : ∃ line name, ls[place]? = some line ∧ IsName name ∧ IsDefinition name line ∧
    f.identifier = '$' :: name
  name : f.name = plainName f.identifier
  name_ne_nil : f.name ≠ []
  snippet : f.snippet = (ls.take (min next (place + max 1 limit))).drop place

theorem StandsAt.cons {limit place next : Nat} {ls : List Text} {f : ModuleFunction}
    (h : StandsAt limit ls place next f) (line : Text) :
    StandsAt limit (line :: ls) (place + 1) (next + 1) f where
  identifier := h.identifier
  name := h.name
  name_ne_nil := h.name_ne_nil
  snippet := by
    have hend : min (next + 1) (place + 1 + max 1 limit) = min next (place + max 1 limit) + 1 := by
      omega
    rw [hend, List.take_succ_cons, List.drop_succ_cons, h.snippet]

theorem standsAt_zero {line identifier : Text} (h : definedBy? line = some identifier) (limit : Nat)
    (rest : List Text) :
    StandsAt limit (line :: rest) 0 ((definitionPlaces rest)[0]?.getD rest.length + 1)
      (lengthened limit rest (define identifier line)) := by
  obtain ⟨name, rfl, hname, hline⟩ := definedBy?_eq_some_iff.mp h
  refine ⟨⟨line, name, rfl, hname, hline, rfl⟩, rfl, ?_, ?_⟩
  · change plainName ('$' :: name) ≠ []
    rw [plainName_sigil]
    exact unescape_ne_nil hname.ne_nil
  · have hend : min ((definitionPlaces rest)[0]?.getD rest.length + 1) (0 + max 1 limit) =
        min (limit - 1) ((definitionPlaces rest)[0]?.getD rest.length) + 1 := by omega
    rw [hend, List.take_succ_cons, List.drop_zero, lengthened, takeWhile_not_defines,
      List.take_take]
    rfl

theorem exists_standsAt (limit : Nat) (ls : List Text) {i place : Nat}
    (h : (definitionPlaces ls)[i]? = some place) :
    ∃ f, (fromLines limit none ls)[i]? = some f ∧
      StandsAt limit ls place ((definitionPlaces ls)[i + 1]?.getD ls.length) f := by
  induction ls generalizing i place with
  | nil => cases h
  | cons line rest ih =>
    rw [definitionPlaces_cons] at h ⊢
    -- a place below the first line is one more than it is without that line, and so is the next
    have hlater : ∀ {j p : Nat}, ((definitionPlaces rest).map (· + 1))[j]? = some p →
        ∃ f, (fromLines limit none rest)[j]? = some f ∧ StandsAt limit (line :: rest) p
          (((definitionPlaces rest).map (· + 1))[j + 1]?.getD (line :: rest).length) f := by
      intro j p hp
      rw [List.getElem?_map] at hp
      obtain ⟨place', hplace, rfl⟩ := Option.map_eq_some_iff.mp hp
      obtain ⟨f, hf, hstands⟩ := ih hplace
      refine ⟨f, hf, ?_⟩
      rw [List.getElem?_map, List.length_cons, Option.getD_map]
      exact hstands.cons line
    rw [fromLines]
    cases hdefined : definedBy? line with
    | none =>
      rw [defines_of_none hdefined] at h ⊢
      exact hlater h
    | some identifier =>
      rw [defines_of_some hdefined] at h ⊢
      simp only [fromLines_some]
      cases i with
      | succ j => exact hlater h
      | zero =>
        obtain rfl : 0 = place := Option.some.inj h
        refine ⟨_, rfl, ?_⟩
        have hnext : (([0] ++ (definitionPlaces rest).map (· + 1))[0 + 1]?).getD
            (line :: rest).length = (definitionPlaces rest)[0]?.getD rest.length + 1 := by
          cases h : (definitionPlaces rest)[0]? <;> simp [h]
        exact hnext ▸ standsAt_zero hdefined limit rest

theorem length_fromLines (limit : Nat) (ls : List Text) :
    (fromLines limit none ls).length = (definitionPlaces ls).length := by
  induction ls with
  | nil => rfl
  | cons line rest ih =>
    rw [fromLines, definitionPlaces_cons, List.length_append, List.length_map, ← ih]
    cases h : definedBy? line with
    | some identifier => simp [fromLines_some, defines_of_some h, Nat.add_comm]
    | none => simp [defines_of_none h]

/-- With a limit that no stretch can exceed nothing is lost behind the first definition. -/
theorem flatMap_snippet_fromLines {limit : Nat} {ls : List Text} (h : ls.length ≤ limit) :
    (fromLines limit none ls).flatMap (·.snippet) = ls.dropWhile fun line => !defines line := by
  induction ls with
  | nil => rfl
  | cons line rest ih =>
    rw [List.length_cons] at h
    have hrest := ih (Nat.le_of_succ_le h)
    rw [fromLines]
    cases hdefined : definedBy? line with
    | none =>
      simpa [defines_of_none hdefined] using hrest
    | some identifier =>
      have hshort : (rest.takeWhile fun line => !defines line).length ≤ limit - 1 :=
        Nat.le_trans (List.takeWhile_sublist _).length_le (Nat.le_sub_one_of_lt h)
      simp [fromLines_some, hrest, lengthened, define, defines_of_some hdefined,
        List.take_of_length_le hshort]

/-- **Snippets.** A module text has as many functions as there are lines laid out as definitions, in
the order of those lines. Each has the identifier of its line, its plain name, which is something,
and as snippet the lines from its own up to the next definition, to the limit (which leaves at least
one line), or to the end. With a limit of all lines or more the snippets together are the listing
from the first definition on. -/
theorem functionsOf_snippets (limit : Nat) (text : Text) :
    let ls := lines text
    let places := definitionPlaces ls
    let functions := ModuleSummary.functionsOf limit text
    places.Pairwise (· < ·) ∧
      (∀ place, place ∈ places ↔
        ∃ line name, ls[place]? = some line ∧ IsName name ∧ IsDefinition name line) ∧
      functions.length = places.length ∧
      (∀ i place, places[i]? = some place → ∃ f, functions[i]? = some f ∧
        StandsAt limit ls place (places[i + 1]?.getD ls.length) f) ∧
      (ls.length ≤ limit →
        functions.flatMap (·.snippet) = ls.drop (places[0]?.getD ls.length)) := by
  intro ls places functions
  refine ⟨List.pairwise_lt_range.filter _, fun place => ?_, length_fromLines limit ls,
    fun i place h => exists_standsAt limit ls h, fun h => ?_⟩
  · rw [mem_definitionPlaces]
    simp only [defines_iff, exists_and_left]
  · exact (flatMap_snippet_fromLines h).trans (dropWhile_not_defines ls)

/-- A listing with a line above its first definition and with two definitions next to each other,
the second without a line end: no limit takes the defining line away, and with the limit of all
lines only the first line is in no snippet. -/
theorem functionsOf_snippets_adjacent :
    let text := "(module\n(func $a\n (func $\\24b)\r\n nop)".toList
    let ls := ["(module", "(func $a", " (func $\\24b)", " nop)"].map String.toList
    lines text = ls ∧ definitionPlaces ls = [1, 2] ∧
      (∃ f, (ModuleSummary.functionsOf 0 text)[1]? = some f ∧ StandsAt 0 ls 2 4 f ∧
        f.snippet = [" (func $\\24b)".toList]) ∧
      ls.length ≤ 4 ∧ (ModuleSummary.functionsOf 4 text).flatMap (·.snippet) = ls.drop 1 := by
  intro text ls
  have hlines : lines text = ls := by decide +kernel
  have hplaces : definitionPlaces ls = [1, 2] := by decide +kernel
  have hshort : ls.length ≤ 4 := by decide
  obtain ⟨-, -, -, hstands, -⟩ := functionsOf_snippets 0 text
  obtain ⟨-, -, -, -, hall⟩ := functionsOf_snippets 4 text
  rw [hlines, hplaces] at hstands hall
  obtain ⟨f, hf, hstandsAt⟩ := hstands 1 2 rfl
  refine ⟨hlines, hplaces, ⟨f, hf, hstandsAt, ?_⟩, hshort, hall hshort⟩
  rw [hstandsAt.snippet]
  rfl

end BinarySize.ModuleFunction
