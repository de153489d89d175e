import BinarySize.Dump.Entry
import BinarySize.Proofs.Dump.ReportOrder

/-!
# Dumps cut short

A dump may end after any of its lines. What has been found up to there is not taken back by the
lines that were cut off: a further line adds a function, or tells more about where one was declared,
or changes nothing. Proved here:

* `exists_reached`: the reader of a dump stands somewhere after its lines, and goes on from there;
* `function?_absorb`, `closed_atEntry`: a line below a function leaves its size, name and kind, and
  a line that starts an entry finds the open one as it stood;
* `grows_concat`: so a further line does no more to the functions than `Grows` allows;
* `functionsOfLines_prefix`: sizes, names and kinds of a part are among those of the whole.

A cut inside a line is another matter: there the name of an origin may stand before the cut, and
behind it the declared name, which would go first.
-/

namespace BinarySize.Dump

open SizedFunction

/-! ## One line -/

/-- A further line leaves the size, name and kind of a function that is known. -/
theorem Attributes.function?_absorb {known : Attributes} {kind : FunctionKind}
    {unitFile : Option Text} {f : SizedFunction} (h : known.function? kind unitFile = some f)
    (line : Text) :
    ∃ file number, (known.absorb line).function? kind unitFile =
      some { f with file := file, line := number } := by
  simp only [function?, Option.bind_eq_bind, Option.bind_eq_some_iff] at h
  obtain ⟨low, hlow, high, hhigh, name, hname, h⟩ := h
  by_cases hzero : codeSize low high = 0
  · simp [hzero] at h
  · rw [if_neg hzero] at h
    cases h
    refine ⟨(known.absorb line).file unitFile, (known.absorb line).line, ?_⟩
    simp only [function?, absorb, hlow, hhigh, hname, Option.some_or, Option.bind_eq_bind,
      Option.bind_some, if_neg hzero]

theorem Position.closed_atEntry (position : Position) (tag : Text) :
    (position.atEntry tag).closed = none := by
  by_cases hunit : tag = "DW_TAG_compile_unit".toList
  · rw [atEntry, Entry.opened, if_pos hunit]
    rfl
  · rw [atEntry, Entry.opened, if_neg hunit]
    cases FunctionKind.ofTag? tag with
    | none => rfl
    | some kind => rfl

/-- A line below an entry keeps the function that the entry is already, its place apart. -/
theorem Position.closed_atAttribute {position : Position} {f : SizedFunction}
    (h : position.closed = some f) (line : Text) :
    ∃ file number, (position.atAttribute line).closed =
      some { f with file := file, line := number } := by
  obtain ⟨entry, unitFile⟩ := position
  cases entry with
  | other => cases h
  | compileUnit => cases h
  | function kind known => exact Attributes.function?_absorb h line

/-- The reader stands somewhere after some lines, and has found some functions; all lines below are
read from there. -/
theorem exists_reached (position : Position) (lines : List Text) :
    ∃ found reached, ∀ below,
      functionsFrom position (lines ++ below) = found ++ functionsFrom reached below := by
  induction lines generalizing position with
  | nil => exact ⟨[], position, fun below => rfl⟩
  | cons line rest ih =>
    cases htag : entryTag? line with
    | some tag =>
      obtain ⟨found, reached, h⟩ := ih (position.atEntry tag)
      refine ⟨position.closed.toList ++ found, reached, fun below => ?_⟩
      rw [List.cons_append, functionsFrom, htag, List.append_assoc, ← h below]
    | none =>
      obtain ⟨found, reached, h⟩ := ih (position.atAttribute line)
      refine ⟨found, reached, fun below => ?_⟩
      rw [List.cons_append, functionsFrom, htag, ← h below]

/-! ## The functions found -/

/-- What a further line may do to the functions found. -/
inductive Grows : List SizedFunction → List SizedFunction → Prop
  /-- It says nothing that matters. -/
  | same {found : List SizedFunction} : Grows found found
  /-- It makes a function known, which goes behind all that come no later in report order. -/
  | inserted {front back : List SizedFunction} {f : SizedFunction}
      (hfront : ∀ g ∈ front, NoLater g.rank f.rank) (hback : ∀ g ∈ back, ¬ NoLater g.rank f.rank) :
      Grows (front ++ back) (front ++ f :: back)
  /-- It tells of one function where that was declared or called. -/
  | located {front back : List SizedFunction} {f : SizedFunction} {file : Text} {number : Nat} :
      Grows (front ++ f :: back) (front ++ { f with file := file, line := number } :: back)

def unplaced (f : SizedFunction) : ByteSize × Text × FunctionKind := (f.size, f.name, f.kind)

theorem Grows.sublist {before after : List SizedFunction} (h : Grows before after) :
    (before.map unplaced).Sublist (after.map unplaced) := by
  cases h with
  | same => exact List.Sublist.refl _
  | inserted =>
    rw [List.map_append, List.map_append, List.map_cons]
    exact (List.Sublist.refl _).append (List.sublist_cons_self _ _)
  | @located front back f file number =>
    have hsame : (front ++ f :: back).map unplaced =
        (front ++ { f with file := file, line := number } :: back).map unplaced := by
      rw [List.map_append, List.map_append]
      rfl
    exact hsame ▸ List.Sublist.refl _

theorem functionsOfLines_concat_of_tag {lines : List Text} {line tag : Text}
    (h : entryTag? line = some tag) :
    functionsOfLines (lines ++ [line]) = functionsOfLines lines := by
  obtain ⟨found, reached, hreached⟩ := exists_reached {} lines
  have hbefore := hreached []
  rw [List.append_nil] at hbefore
  simp only [functionsOfLines, hreached, hbefore, functionsFrom, h, Position.closed_atEntry,
    Option.toList_none, List.append_nil]

theorem grows_concat {lines : List Text} {line : Text} (h : entryTag? line = none) :
    Grows (functionsOfLines lines) (functionsOfLines (lines ++ [line])) := by
  obtain ⟨found, reached, hreached⟩ := exists_reached {} lines
  have hbefore : functionsOfLines lines = sort (found ++ reached.closed.toList) := by
    have hnil := hreached []
    rw [List.append_nil] at hnil
    rw [functionsOfLines, hnil, functionsFrom]
  have hafter : functionsOfLines (lines ++ [line]) =
      sort (found ++ (reached.atAttribute line).closed.toList) := by
    simp only [functionsOfLines, hreached, functionsFrom, h]
  rw [hbefore, hafter]
  cases hopen : reached.closed with
  | some f =>
    obtain ⟨file, number, hlonger⟩ := Position.closed_atAttribute hopen line
    obtain ⟨front, back, hcut, hfront, hback⟩ := exists_cut (pairwise_sort found) f
    rw [hlonger, Option.toList_some, Option.toList_some, sort_concat hcut hfront hback,
      sort_concat (f := { f with file := file, line := number }) hcut hfront hback]
    exact .located
  | none =>
    rw [Option.toList_none, List.append_nil]
    cases (reached.atAttribute line).closed with
    | none =>
      rw [Option.toList_none, List.append_nil]
      exact .same
    | some f =>
      obtain ⟨front, back, hcut, hfront, hback⟩ := exists_cut (pairwise_sort found) f
      rw [Option.toList_some, sort_concat hcut hfront hback, hcut]
      refine .inserted (fun g hg => ?_) (fun g hg hnoLater => hback g hg ?_)
      · exact (precedes_iff g f).mp (hfront g hg)
      · exact (precedes_iff g f).mpr hnoLater

theorem functionsOfLines_prefix (front back : List Text) :
    ((functionsOfLines front).map unplaced).Sublist
      ((functionsOfLines (front ++ back)).map unplaced) := by
  induction back generalizing front with
  | nil => exact (List.append_nil front).symm ▸ List.Sublist.refl _
  | cons line back ih =>
    have hline : ((functionsOfLines front).map unplaced).Sublist
        ((functionsOfLines (front ++ [line])).map unplaced) := by
      cases h : entryTag? line with
      | some tag => exact (functionsOfLines_concat_of_tag h).symm ▸ List.Sublist.refl _
      | none => exact (grows_concat h).sublist
    have hback := ih (front ++ [line])
    rw [List.append_assoc, List.singleton_append] at hback
    exact hline.trans hback

/-- **Truncation.** A line that starts an entry leaves the functions found as they are. Any other
line leaves them so, or makes one function more known, or tells another file and line of one. So the
sizes, names and kinds of the functions of some first lines, in report order, are among those of all
lines, in the same order, and a dump may be cut at any of its line feeds. -/
theorem functionsOfLines_concat :
    (∀ lines line, (entryTag? line).isSome = true →
        functionsOfLines (lines ++ [line]) = functionsOfLines lines) ∧
      (∀ lines line, entryTag? line = none →
        Grows (functionsOfLines lines) (functionsOfLines (lines ++ [line]))) ∧
      (∀ front back, ((functionsOfLines front).map unplaced).Sublist
        ((functionsOfLines (front ++ back)).map unplaced)) ∧
      ∀ dump rest : Text, ((functions (dump ++ ['\n'])).map unplaced).Sublist
        ((functions (dump ++ '\n' :: rest)).map unplaced) := by
  refine ⟨fun lines line h => ?_, fun lines line h => grows_concat h, functionsOfLines_prefix,
    fun dump rest => ?_⟩
  · obtain ⟨tag, htag⟩ := Option.isSome_iff_exists.mp h
    exact functionsOfLines_concat_of_tag htag
  · rw [functions, functions, Text.lines_append_lineFeed dump rest]
    exact functionsOfLines_prefix _ _

/-- A function below a longer one of the same name: the line that makes it known puts it second, the
line behind that tells its file, and a line that starts an entry changes nothing. -/
theorem functionsOfLines_concat_second :
    let lines := ["0x1: DW_TAG_subprogram", "DW_AT_name (\"f\")", "DW_AT_low_pc (0)",
      "DW_AT_high_pc (9)", "0x2: DW_TAG_inlined_subroutine", "DW_AT_abstract_origin (0x1 \"f\")",
      "DW_AT_low_pc (2)"].map String.toList
    let high := "DW_AT_high_pc (5)".toList
    let file := "DW_AT_call_file (\"a.c\")".toList
    let start := "0x3: DW_TAG_compile_unit".toList
    let f : SizedFunction := ⟨ByteSize.ofNat 9, [], 0, "f".toList, .subprogram⟩
    let g : SizedFunction := ⟨ByteSize.ofNat 3, [], 0, "f".toList, .inlinedSubroutine⟩
    functionsFrom {} (lines ++ [high]) = [f, g] ∧
      entryTag? high = none ∧
      Grows (functionsOfLines lines) (functionsOfLines (lines ++ [high])) ∧
      functionsFrom {} (lines ++ [high] ++ [file]) = [f, { g with file := "a.c".toList }] ∧
      entryTag? file = none ∧
      Grows (functionsOfLines (lines ++ [high])) (functionsOfLines (lines ++ [high] ++ [file])) ∧
      (entryTag? start).isSome = true ∧
      functionsOfLines (lines ++ [high] ++ [start]) = functionsOfLines (lines ++ [high]) := by
  intro lines high file start f g
  obtain ⟨hstart, hother, -, -⟩ := functionsOfLines_concat
  have hhigh : entryTag? high = none := by decide +kernel
  have hfile : entryTag? file = none := by decide +kernel
  have hstarts : (entryTag? start).isSome = true := by decide +kernel
  exact ⟨by decide +kernel, hhigh, hother _ _ hhigh, by decide +kernel, hfile, hother _ _ hfile,
    hstarts, hstart _ _ hstarts⟩

end BinarySize.Dump
