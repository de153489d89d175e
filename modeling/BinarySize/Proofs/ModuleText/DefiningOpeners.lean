import BinarySize.Proofs.ModuleText.Definitions
import BinarySize.Proofs.ModuleText.Openers
import Mathlib.Data.List.Forall2

/-!
# Definitions among the openers

The openers of a module text are found in one scan over the whole text, its functions line by line
and with a pattern of their own. The two agree: the functions are, in order, those openers of the
keyword `func` that are the first thing on their line and have an identifier behind them on that
line. Proved here:

* `definedAt_line`: inside one line there is at most one such place, and there is one exactly if the
  line defines a function;
* `definedAt_front`, `definedAt_back`: a line feed can be cut at, as the places before it and those
  behind it know nothing of each other;
* `forall₂_placesDefined`, by induction over the lines: the places and the definitions match;
* `functionsOf_openers`: so the functions are some of the openers, and no more than those.
-/

namespace BinarySize.ModuleFunction

open Text

/-! ## Definitions at a place -/

/-- A text defines a function with a name behind the dollar sign from a place on: the place is the
first one of its line that is not blank, and from it on `(func`, blanks of the same line, a dollar
sign and the name follow. -/
structure DefinedAt (text : Text) (place : Nat) (name : Text) : Prop where
  isName : IsName name
  first : ∃ above indent, text.take place = above ++ indent ∧
    (∀ c, above.getLast? = some c → c = '\n') ∧ ∀ c ∈ indent, isBlank c = true ∧ c ≠ '\n'
  laidOut : ∃ gap rest, text.drop place = "(func".toList ++ (gap ++ '$' :: (name ++ rest)) ∧
    gap ≠ [] ∧ (∀ c ∈ gap, isBlank c = true ∧ c ≠ '\n') ∧
    ∀ c, rest.head? = some c → endsIdentifier c = true

theorem DefinedAt.lt {text : Text} {place : Nat} {name : Text} (h : DefinedAt text place name) :
    place < text.length := by
  obtain ⟨gap, rest, hdrop, -⟩ := h.laidOut
  refine Nat.lt_of_not_le fun hle => ?_
  rw [List.drop_eq_nil_of_le hle] at hdrop
  cases hdrop

def blankCodes : List Nat :=
  List.range' 0x9 5 ++ List.range' 0x2000 11 ++
    [0x20, 0x85, 0xA0, 0x1680, 0x2028, 0x2029, 0x202F, 0x205F, 0x3000]

theorem mem_blankCodes {c : Char} (h : isBlank c = true) : c.toNat ∈ blankCodes := by
  simp only [isBlank, Bool.or_eq_true, Bool.and_eq_true, decide_eq_true_eq, beq_iff_eq] at h
  simp only [blankCodes, List.mem_append, List.mem_range'_1, List.mem_cons, List.not_mem_nil]
  omega

theorem isWordChar_of_isBlank {c : Char} (h : isBlank c = true) : isWordChar c = false := by
  have hnone : ∀ n ∈ blankCodes, isWordChar (Char.ofNat n) = false := by decide +kernel
  rw [← Char.ofNat_toNat c]
  exact hnone _ (mem_blankCodes h)

theorem DefinedAt.opens {text : Text} {place : Nat} {name : Text} (h : DefinedAt text place name) :
    Construct.function.Opens (text.drop place) := by
  obtain ⟨gap, rest, hdrop, hne, hgap, -⟩ := h.laidOut
  rw [hdrop]
  have hend : ∀ c, (gap ++ '$' :: (name ++ rest)).head? = some c → isWordChar c = false := by
    intro c hc
    rw [List.head?_append_of_ne_nil _ hne] at hc
    exact isWordChar_of_isBlank (hgap c (List.mem_of_head? hc)).1
  have hnone : ∀ c ∈ ([] : Text), isBlank c = true := nofun
  exact .intro hnone hend

/-! ## One line -/

theorem takeWhile_indent {indent : Text} (h : ∀ c ∈ indent, isBlank c = true) (rest : Text) :
    (indent ++ ("(func".toList ++ rest)).takeWhile isBlank = indent := by
  rw [List.takeWhile_append_of_pos h]
  exact List.append_nil indent

/-- Inside one line the only place is that of the parenthesis of a definition. -/
theorem definedAt_line {line name : Text} {place : Nat} (hlf : '\n' ∉ line) :
    DefinedAt line place name ↔
      place = (line.takeWhile isBlank).length ∧ IsName name ∧ IsDefinition name line := by
  constructor
  · intro h
    obtain ⟨above, indent, htake, hstart, hindent⟩ := h.first
    obtain ⟨gap, rest, hdrop, hne, hgap, hend⟩ := h.laidOut
    have habove : above = [] := by
      refine List.getLast?_eq_none_iff.mp (Option.eq_none_iff_forall_ne_some.mpr fun c hc => ?_)
      have hmem : '\n' ∈ line.take place := by
        rw [htake]
        exact List.mem_append_left _ (hstart c hc ▸ List.mem_of_getLast? hc)
      exact hlf (List.mem_of_mem_take hmem)
    rw [habove, List.nil_append] at htake
    have hline : line = indent ++ ("(func".toList ++ (gap ++ '$' :: (name ++ rest))) := by
      rw [← htake, ← hdrop, List.take_append_drop]
    have hplace : place = indent.length := by
      rw [← htake, List.length_take, Nat.min_eq_left (Nat.le_of_lt h.lt)]
    have hblank : ∀ c ∈ indent, isBlank c = true := fun c hc => (hindent c hc).1
    refine ⟨?_, h.isName, ?_⟩
    · rw [hline, takeWhile_indent hblank, hplace]
    · rw [hline]
      exact .intro hblank hne (fun c hc => (hgap c hc).1) hend
  · rintro ⟨rfl, hname, hline⟩
    obtain ⟨hindent, hne, hblank, hend⟩ := hline
    next indent gap rest =>
    rw [takeWhile_indent hindent]
    refine ⟨hname, ⟨[], indent, List.take_left, nofun, fun c hc => ⟨hindent c hc, ?_⟩⟩,
      ⟨gap, rest, List.drop_left, hne, fun c hc => ⟨hblank c hc, ?_⟩, hend⟩⟩
    · rintro rfl
      exact hlf (List.mem_append_left _ hc)
    · rintro rfl
      exact hlf (by simp [hc])

theorem not_mem_of_isName {name : Text} (h : IsName name) {c : Char}
    (hc : endsIdentifier c = true) : c ∉ name := by
  intro hmem
  rw [h.inside c hmem] at hc
  cases hc

/-- A carriage return at the end of a line has no say in what the line defines: it can be neither
the parenthesis nor the end of the name. -/
theorem isDefinition_append_return {name front : Text} (hname : IsName name) :
    IsDefinition name (front ++ ['\r']) ↔ IsDefinition name front := by
  constructor
  · intro h
    generalize hline : front ++ ['\r'] = line at h
    obtain ⟨hindent, hne, hblank, hend⟩ := h
    next indent gap rest =>
    have hfree : '\r' ∉ name := not_mem_of_isName hname (by decide)
    obtain ⟨first, last, rfl⟩ := (List.eq_nil_or_concat' name).resolve_left hname.ne_nil
    rcases List.eq_nil_or_concat' rest with rfl | ⟨rest, c, rfl⟩
    · have hcut : front ++ ['\r'] =
          (indent ++ ("(func".toList ++ (gap ++ '$' :: first))) ++ [last] := by simpa using hline
      obtain ⟨-, hlast⟩ := List.append_inj' hcut rfl
      exact absurd (List.mem_append_right _ (hlast ▸ List.mem_singleton_self _)) hfree
    · have hcut : front ++ ['\r'] =
          (indent ++ ("(func".toList ++ (gap ++ '$' :: ((first ++ [last]) ++ rest)))) ++ [c] := by
        simpa using hline
      rw [(List.append_inj' hcut rfl).1]
      refine .intro hindent hne hblank fun d hd => hend d ?_
      rw [List.head?_append, hd, Option.some_or]
  · rintro ⟨hindent, hne, hblank, hend⟩
    next indent gap rest =>
    have hreturn : ∀ c, (rest ++ ['\r']).head? = some c → endsIdentifier c = true := by
      cases rest with
      | nil => rintro c ⟨⟩; decide
      | cons d rest => exact hend
    have hline : IsDefinition name (indent ++ ("(func".toList ++
        (gap ++ '$' :: (name ++ (rest ++ ['\r']))))) := .intro hindent hne hblank hreturn
    simpa using hline

theorem isDefinition_withoutReturn {name line : Text} (hname : IsName name) :
    IsDefinition name (withoutReturn line) ↔ IsDefinition name line := by
  rcases eq_withoutReturn_or line with heq | heq
  · rw [heq]
  · have hreturn := (@isDefinition_append_return name (withoutReturn line) hname).symm
    rwa [← heq] at hreturn

theorem definedBy?_withoutReturn (line : Text) :
    definedBy? (withoutReturn line) = definedBy? line := by
  refine Option.ext fun identifier => ?_
  rw [definedBy?_eq_some_iff, definedBy?_eq_some_iff]
  constructor
  · rintro ⟨name, heq, hname, hline⟩
    exact ⟨name, heq, hname, (isDefinition_withoutReturn hname).mp hline⟩
  · rintro ⟨name, heq, hname, hline⟩
    exact ⟨name, heq, hname, (isDefinition_withoutReturn hname).mpr hline⟩

/-! ## Cutting at a line feed -/

theorem exists_of_append_lineFeed {first rest front behind : Text} (hlf : '\n' ∉ front)
    (h : first ++ '\n' :: rest = front ++ behind) :
    ∃ tail, first = front ++ tail ∧ behind = tail ++ '\n' :: rest := by
  rcases List.append_eq_append_iff.mp h with ⟨tail, hfront, hrest⟩ | hfirst
  · cases tail with
    | nil => exact ⟨[], by simpa using hfront.symm, hrest.symm⟩
    | cons c tail =>
      obtain ⟨rfl, -⟩ := List.cons.inj hrest
      exact absurd (by simp [hfront]) hlf
  · exact hfirst

theorem exists_of_lineFeed_append {first rest above indent : Text} (hlf : '\n' ∉ indent)
    (h : first ++ '\n' :: rest = above ++ indent) :
    ∃ lines, above = first ++ '\n' :: lines ∧ rest = lines ++ indent := by
  rcases List.append_eq_append_iff.mp h with ⟨tail, habove, hrest⟩ | ⟨tail, -, hindent⟩
  · cases tail with
    | nil =>
      have hindent : indent = '\n' :: rest := hrest.symm
      exact absurd (by simp [hindent]) hlf
    | cons c tail =>
      rw [List.cons_append] at hrest
      obtain ⟨rfl, hbehind⟩ := List.cons.inj hrest
      exact ⟨tail, habove, hbehind⟩
  · exact absurd (by simp [hindent]) hlf

theorem definedAt_front {first rest name : Text} {place : Nat} (hle : place ≤ first.length) :
    DefinedAt (first ++ '\n' :: rest) place name ↔ DefinedAt first place name := by
  have htake : (first ++ '\n' :: rest).take place = first.take place :=
    List.take_append_of_le_length hle
  have hdrop : (first ++ '\n' :: rest).drop place = first.drop place ++ '\n' :: rest :=
    List.drop_append_of_le_length hle
  constructor
  · intro h
    obtain ⟨gap, behind, hlaid, hne, hgap, hend⟩ := h.laidOut
    have hlf : '\n' ∉ "(func".toList ++ (gap ++ '$' :: name) := by
      have hgapLf : '\n' ∉ gap := fun hmem => (hgap _ hmem).2 rfl
      have hnameLf : '\n' ∉ name := not_mem_of_isName h.isName (by decide)
      simp [hgapLf, hnameLf]
    obtain ⟨tail, hline, rfl⟩ :=
      exists_of_append_lineFeed hlf (by simpa using hdrop.symm.trans hlaid)
    refine ⟨h.isName, htake ▸ h.first, gap, tail, by simpa using hline, hne, hgap, ?_⟩
    intro c hc
    exact hend c (by rw [List.head?_append, hc, Option.some_or])
  · intro h
    obtain ⟨gap, tail, hlaid, hne, hgap, hend⟩ := h.laidOut
    refine ⟨h.isName, htake.symm ▸ h.first, gap, tail ++ '\n' :: rest, ?_, hne, hgap, ?_⟩
    · rw [hdrop, hlaid]
      simp
    · cases tail with
      | nil => rintro c ⟨⟩; decide
      | cons d tail => exact hend

theorem take_behind_lineFeed (first rest : Text) (place : Nat) :
    (first ++ '\n' :: rest).take (first.length + 1 + place) = first ++ '\n' :: rest.take place := by
  have hlength : first.length + 1 = (first ++ ['\n']).length := by simp
  rw [← List.singleton_append, ← List.append_assoc, hlength, List.take_length_add_append,
    List.append_assoc, List.singleton_append]

theorem drop_behind_lineFeed (first rest : Text) (place : Nat) :
    (first ++ '\n' :: rest).drop (first.length + 1 + place) = rest.drop place := by
  have hlength : first.length + 1 = (first ++ ['\n']).length := by simp
  rw [← List.singleton_append, ← List.append_assoc, hlength, List.drop_length_add_append]

theorem definedAt_back {first rest name : Text} {place : Nat} :
    DefinedAt (first ++ '\n' :: rest) (first.length + 1 + place) name ↔
      DefinedAt rest place name := by
  have htake := take_behind_lineFeed first rest place
  have hdrop := drop_behind_lineFeed first rest place
  constructor
  · intro h
    obtain ⟨above, indent, htaken, hstart, hindent⟩ := h.first
    have hlf : '\n' ∉ indent := fun hmem => (hindent _ hmem).2 rfl
    obtain ⟨lines, rfl, hrest⟩ := exists_of_lineFeed_append hlf (htake.symm.trans htaken)
    refine ⟨h.isName, ⟨lines, indent, hrest, fun c hc => hstart c ?_, hindent⟩,
      hdrop ▸ h.laidOut⟩
    simp [List.getLast?_append, List.getLast?_cons, hc]
  · intro h
    obtain ⟨above, indent, htaken, hstart, hindent⟩ := h.first
    refine ⟨h.isName, ⟨first ++ '\n' :: above, indent, ?_, fun c hc => ?_, hindent⟩,
      hdrop.symm ▸ h.laidOut⟩
    · rw [htake, htaken, List.append_assoc, List.cons_append]
    · simp only [List.getLast?_append, List.getLast?_cons, Option.some_or] at hc
      cases habove : above.getLast? with
      | none => simpa [habove, eq_comm] using hc
      | some d =>
        simp only [habove, Option.getD_some, Option.some.injEq] at hc
        exact hc ▸ hstart d habove

/-! ## All places -/

open Classical in
/-- The places from which on a text defines functions, in ascending order. -/
noncomputable def placesDefined (text : Text) : List Nat :=
  (List.range text.length).filter fun place => ∃ name, DefinedAt text place name

theorem placesDefined_line {line : Text} (hlf : '\n' ∉ line) :
    placesDefined line = if defines line then [(line.takeWhile isBlank).length] else [] := by
  have hplace : ∀ place, (∃ name, DefinedAt line place name) ↔
      place = (line.takeWhile isBlank).length ∧ defines line = true := by
    intro place
    simp only [definedAt_line hlf, defines_iff, exists_and_left]
  cases hdefines : defines line with
  | true =>
    obtain ⟨name, h⟩ := (hplace _).mpr ⟨rfl, hdefines⟩
    simp only [placesDefined, hplace, hdefines, and_true, filter_range_eq h.lt, if_true]
  | false => simp [placesDefined, hplace, hdefines]

open Classical in
theorem placesDefined_append {first : Text} (rest : Text) :
    placesDefined (first ++ '\n' :: rest) =
      placesDefined first ++ (placesDefined rest).map (first.length + 1 + ·) := by
  have hlength : (first ++ '\n' :: rest).length = first.length + 1 + rest.length := by
    simp only [List.length_append, List.length_cons]
    omega
  have hfront : (List.range (first.length + 1)).filter
      (fun place => ∃ name, DefinedAt (first ++ '\n' :: rest) place name) =
        placesDefined first := by
    have hnone : ¬ ∃ name, DefinedAt first first.length name := by
      rintro ⟨name, h⟩
      exact Nat.lt_irrefl _ h.lt
    rw [List.range_succ, List.filter_append, List.filter_cons_of_neg, List.filter_nil,
      List.append_nil, placesDefined]
    · refine List.filter_congr fun place hplace => ?_
      simp only [definedAt_front (Nat.le_of_lt (List.mem_range.mp hplace))]
    · simpa only [definedAt_front (Nat.le_refl _), decide_eq_true_eq] using hnone
  rw [placesDefined, hlength, filter_range_add, hfront]
  simp only [definedAt_back, placesDefined]

/-- What it means that a function is the one that a text defines from a place on. -/
structure Heads (text : Text) (place : Nat) (f : ModuleFunction) : Prop where
  defined : ∃ name, DefinedAt text place name ∧ f.identifier = '$' :: name
  line : ∃ line, (lines text)[(text.take place).count '\n']? = some line ∧
    f.snippet.head? = some line

theorem Heads.below {rest : Text} {place : Nat} {f : ModuleFunction} (h : Heads rest place f)
    {first : Text} (hlf : '\n' ∉ first) :
    Heads (first ++ '\n' :: rest) (first.length + 1 + place) f := by
  obtain ⟨name, hdefined, hidentifier⟩ := h.defined
  obtain ⟨line, hline, hsnippet⟩ := h.line
  refine ⟨⟨name, definedAt_back.mpr hdefined, hidentifier⟩, line, ?_, hsnippet⟩
  rw [take_behind_lineFeed, List.count_append, List.count_eq_zero_of_not_mem hlf,
    List.count_cons_self, Nat.zero_add, lines_append hlf, List.getElem?_cons_succ, hline]

theorem heads_first {text line name : Text} {more : List Text} {place : Nat}
    (hlines : lines text = line :: more) (hdefined : DefinedAt text place name)
    (hlf : '\n' ∉ text.take place) : Heads text place (define ('$' :: name) line) := by
  refine ⟨⟨name, hdefined, rfl⟩, line, ?_, rfl⟩
  rw [List.count_eq_zero_of_not_mem hlf, hlines, List.getElem?_cons_zero]

/-- The places from which on functions are defined match the lines that define them. -/
theorem forall₂_placesDefined (text : Text) :
    List.Forall₂ (Heads text) (placesDefined text) ((lines text).filterMap defined?) := by
  induction text using line_induction with
  | last line hlf =>
    rw [placesDefined_line hlf]
    by_cases hnil : line = []
    · rw [hnil]
      exact .nil
    rw [lines_of_no_lineFeed hlf hnil, List.filterMap_cons, List.filterMap_nil, defined?]
    cases hline : definedBy? line with
    | none =>
      rw [defines_of_none hline]
      exact .nil
    | some identifier =>
      rw [defines_of_some hline]
      obtain ⟨name, rfl, hname, hdefinition⟩ := definedBy?_eq_some_iff.mp hline
      have hdefined := (definedAt_line hlf).mpr ⟨rfl, hname, hdefinition⟩
      refine .cons (heads_first (lines_of_no_lineFeed hlf hnil) hdefined ?_) .nil
      exact fun hmem => hlf (List.mem_of_mem_take hmem)
  | line first rest hlf ih =>
    have hlines := lines_append hlf rest
    have hbelow : List.Forall₂ (Heads (first ++ '\n' :: rest))
        ((placesDefined rest).map (first.length + 1 + ·)) ((lines rest).filterMap defined?) :=
      List.forall₂_map_left_iff.mpr (ih.imp fun place f h => h.below hlf)
    rw [placesDefined_append, placesDefined_line hlf, hlines, List.filterMap_cons, defined?,
      definedBy?_withoutReturn]
    cases hline : definedBy? first with
    | none =>
      rw [defines_of_none hline]
      exact hbelow
    | some identifier =>
      rw [defines_of_some hline]
      obtain ⟨name, rfl, hname, hdefinition⟩ := definedBy?_eq_some_iff.mp hline
      have hinside := (definedAt_line hlf).mpr ⟨rfl, hname, hdefinition⟩
      have hle := Nat.le_of_lt hinside.lt
      refine .cons (heads_first hlines ((definedAt_front hle).mpr hinside) ?_) hbelow
      rw [List.take_append_of_le_length hle]
      exact fun hmem => hlf (List.mem_of_mem_take hmem)

theorem heads_head_iff {text : Text} {place : Nat} {f : ModuleFunction} :
    Heads text place f.head ↔ Heads text place f := by
  have hsnippet : f.head.snippet.head? = f.snippet.head? := by
    rw [head, List.head?_take, if_neg Nat.one_ne_zero]
  constructor
  · rintro ⟨hdefined, hline⟩
    exact ⟨hdefined, hsnippet ▸ hline⟩
  · rintro ⟨hdefined, hline⟩
    exact ⟨hdefined, hsnippet.symm ▸ hline⟩

open Classical in
theorem filter_places_function (text : Text) :
    ((Construct.function.places text).filter fun place => ∃ name, DefinedAt text place name) =
      placesDefined text := by
  rw [Construct.places, List.filter_filter, placesDefined]
  refine List.filter_congr fun place _ => ?_
  have hopens : (∃ name, DefinedAt text place name) →
      Construct.function.Opens (text.drop place) := by
    rintro ⟨name, h⟩
    exact h.opens
  simpa using hopens

open Classical in
/-- **Functions among the openers.** Take those openers of the keyword `func` from which on the text
defines a function on their line. The functions of the text match them one by one, in order, each by
its identifier and by the line on which its snippet starts; so there are no more functions than such
openers are counted. -/
theorem functionsOf_openers (limit : Nat) (text : Text) :
    let openers := Construct.function.places text
    let functions := ModuleSummary.functionsOf limit text
    List.Forall₂ (Heads text)
        (openers.filter fun place => ∃ name, DefinedAt text place name) functions ∧
      openers.length = (Construct.openers text).count .function ∧
      functions.length ≤ (Construct.openers text).count .function := by
  intro openers functions
  have hmatch : List.Forall₂ (Heads text) (placesDefined text) functions := by
    have hheads := forall₂_placesDefined text
    rw [← map_head_functionsOf limit text] at hheads
    exact (List.forall₂_map_right_iff.mp hheads).imp fun place f h => heads_head_iff.mp h
  have hplaces := filter_places_function text
  have hcount := (Construct.count_openers .function text).symm
  refine ⟨hplaces.symm ▸ hmatch, hcount, ?_⟩
  rw [← hmatch.length_eq, ← hplaces, ← hcount]
  exact List.length_filter_le _ _

end BinarySize.ModuleFunction
