import BinarySize.ModuleText.Summary

/-!
# Definitions in a module text

A line defines a function exactly if it is laid out that way (`definedBy?_eq_some_iff`), and the
functions of a module text are, in their order, those that its lines define
(`map_head_functionsOf`): the lines below a definition only make its snippet longer.
-/

namespace BinarySize.ModuleFunction

open Text

/-! ## Lines -/

def endsIdentifier (c : Char) : Bool := isBlank c || c == ')'

structure IsName (name : Text) : Prop where
  ne_nil : name ≠ []
  inside : ∀ c ∈ name, endsIdentifier c = false

/-- The lines that define the function with a name behind the dollar sign. -/
inductive IsDefinition (name : Text) : Text → Prop
  | intro {indent gap rest : Text} (hindent : ∀ c ∈ indent, isBlank c = true) (hgap : gap ≠ [])
      (hblank : ∀ c ∈ gap, isBlank c = true)
      (hend : ∀ c, rest.head? = some c → endsIdentifier c = true) :
      IsDefinition name (indent ++ ("(func".toList ++ (gap ++ '$' :: (name ++ rest))))

theorem endsIdentifier_eq (c : Char) : (!isBlank c && c != ')') = !endsIdentifier c := by
  rw [endsIdentifier, Bool.not_or, bne]

theorem run?_identifier {cs name rest : Text} :
    run? (fun c => !isBlank c && c != ')') cs = some (name, rest) ↔
      cs = name ++ rest ∧ IsName name ∧ ∀ c, rest.head? = some c → endsIdentifier c = true := by
  rw [run?_eq_some_iff_append]
  simp only [endsIdentifier_eq, Bool.not_eq_true', Bool.not_eq_false']
  constructor
  · rintro ⟨hcs, hne, hinside, hend⟩
    exact ⟨hcs, ⟨hne, hinside⟩, hend⟩
  · rintro ⟨hcs, ⟨hne, hinside⟩, hend⟩
    exact ⟨hcs, hne, hinside, hend⟩

/-- A line defines a function exactly if it is laid out that way. -/
theorem definedBy?_eq_some_iff {line identifier : Text} :
    definedBy? line = some identifier ↔
      ∃ name, identifier = '$' :: name ∧ IsName name ∧ IsDefinition name line := by
  constructor
  · intro h
    simp only [definedBy?, Option.bind_eq_bind, Option.bind_eq_some_iff] at h
    obtain ⟨r₁, hfunc, r₂, hblanks, r₃, hsigil, ⟨name, rest⟩, hname, heq⟩ := h
    obtain ⟨gap, rfl, hgapNe, hblank, -⟩ := afterBlanks?_eq_some_iff.mp hblanks
    obtain rfl := after?_eq_some.mp hsigil
    obtain ⟨rfl, hname, hend⟩ := run?_identifier.mp hname
    have hline : line.takeWhile isBlank ++ dropBlanks line = line :=
      List.takeWhile_append_dropWhile
    rw [after?_eq_some.mp hfunc] at hline
    refine ⟨name, (Option.some.inj heq).symm, hname, ?_⟩
    rw [← hline]
    exact .intro (List.all_eq_true.mp List.all_takeWhile) hgapNe hblank hend
  · rintro ⟨name, rfl, hname, ⟨hindent, hgap, hblank, hend⟩⟩
    next indent gap rest =>
    have hstart : dropBlanks (indent ++ ("(func".toList ++ (gap ++ '$' :: (name ++ rest)))) =
        "(func".toList ++ (gap ++ '$' :: (name ++ rest)) := by
      rw [dropBlanks_append hindent, dropBlanks_of_head (by rintro c ⟨⟩; decide)]
    have hfunc : after? "(func".toList ("(func".toList ++ (gap ++ '$' :: (name ++ rest))) =
        some (gap ++ '$' :: (name ++ rest)) := after?_eq_some.mpr rfl
    have hblanks : afterBlanks? (gap ++ '$' :: (name ++ rest)) = some ('$' :: (name ++ rest)) :=
      afterBlanks?_eq_some_iff.mpr ⟨gap, rfl, hgap, hblank, by rintro c ⟨⟩; decide⟩
    have hsigil : after? "$".toList ('$' :: (name ++ rest)) = some (name ++ rest) :=
      after?_eq_some.mpr rfl
    have hrun := run?_identifier.mpr ⟨rfl, hname, hend⟩
    simp only [definedBy?, hstart, hfunc, hblanks, hsigil, hrun, Option.bind_eq_bind,
      Option.bind_some]

def defines (line : Text) : Bool := (definedBy? line).isSome

theorem defines_iff {line : Text} :
    defines line = true ↔ ∃ name, IsName name ∧ IsDefinition name line := by
  rw [defines, Option.isSome_iff_exists]
  constructor
  · rintro ⟨identifier, h⟩
    obtain ⟨name, -, hname, hline⟩ := definedBy?_eq_some_iff.mp h
    exact ⟨name, hname, hline⟩
  · rintro ⟨name, hname, hline⟩
    exact ⟨'$' :: name, definedBy?_eq_some_iff.mpr ⟨name, rfl, hname, hline⟩⟩

theorem defines_of_some {line identifier : Text} (h : definedBy? line = some identifier) :
    defines line = true := by
  rw [defines, h, Option.isSome_some]

theorem defines_of_none {line : Text} (h : definedBy? line = none) : defines line = false := by
  rw [defines, h, Option.isSome_none]

/-! ## Functions -/

/-- A function without the lines below the one that defines it. -/
def head (f : ModuleFunction) : ModuleFunction := { f with snippet := f.snippet.take 1 }

def defined? (line : Text) : Option ModuleFunction := (definedBy? line).map (define · line)

theorem head_addLine (limit : Nat) (line : Text) {f : ModuleFunction} (h : f.snippet ≠ []) :
    (addLine limit line f).head = f.head ∧ (addLine limit line f).snippet ≠ [] := by
  unfold addLine
  split
  · refine ⟨?_, List.append_ne_nil_of_left_ne_nil h _⟩
    rw [head, List.take_append_of_le_length (List.length_pos_iff.mpr h), head]
  · exact ⟨rfl, h⟩

/-- The functions found in some lines are the open one and those that the lines define. -/
theorem map_head_fromLines (limit : Nat) {current : Option ModuleFunction}
    (hcurrent : ∀ f ∈ current, f.snippet ≠ []) (lines : List Text) :
    (fromLines limit current lines).map head =
      current.toList.map head ++ lines.filterMap defined? := by
  induction lines generalizing current with
  | nil => rw [fromLines, List.filterMap_nil, List.append_nil]
  | cons line rest ih =>
    rw [fromLines, List.filterMap_cons, defined?]
    cases definedBy? line with
    | some identifier =>
      have hopened : ∀ f ∈ some (define identifier line), f.snippet ≠ [] := by
        rintro f ⟨⟩
        exact List.cons_ne_nil _ _
      simp only [Option.map_some, List.map_append, ih hopened]
      rfl
    | none =>
      have hlonger : ∀ f ∈ current.map (addLine limit line), f.snippet ≠ [] := by
        intro f hf
        obtain ⟨g, hg, rfl⟩ := Option.map_eq_some_iff.mp hf
        exact (head_addLine limit line (hcurrent g hg)).2
      simp only [Option.map_none, ih hlonger]
      cases current with
      | none => rfl
      | some f =>
        simp only [Option.map_some, Option.toList_some, List.map_cons, List.map_nil,
          (head_addLine limit line (hcurrent f rfl)).1]

/-- The functions of a module text are those that its lines define. -/
theorem map_head_functionsOf (limit : Nat) (text : Text) :
    (ModuleSummary.functionsOf limit text).map head = (lines text).filterMap defined? :=
  map_head_fromLines limit (by rintro f ⟨⟩) (lines text)

/-- The function that a line defines is there, behind those that the lines above it define. -/
theorem getElem?_functionsOf (limit : Nat) {text line : Text} {above below : List Text}
    (hlines : lines text = above ++ line :: below) {f : ModuleFunction}
    (hf : defined? line = some f) :
    ∃ own, (ModuleSummary.functionsOf limit text)[above.countP defines]? = some own ∧
      own.head = f := by
  have hcount : (above.filterMap defined?).length = above.countP defines := by
    rw [List.length_filterMap_eq_countP]
    exact List.countP_congr fun l _ => by rw [defined?, defines, Option.isSome_map]
  have hheads := map_head_functionsOf limit text
  rw [hlines, List.filterMap_append, List.filterMap_cons, hf] at hheads
  have hplace := congrArg (·[(above.filterMap defined?).length]?) hheads
  simp only [List.getElem?_map, List.getElem?_append_right (Nat.le_refl _), Nat.sub_self,
    List.getElem?_cons_zero] at hplace
  rw [← hcount]
  exact Option.map_eq_some_iff.mp hplace

theorem exists_of_mem_functionsOf {limit : Nat} {text : Text} {f : ModuleFunction}
    (hf : f ∈ ModuleSummary.functionsOf limit text) :
    ∃ line ∈ lines text, definedBy? line = some f.identifier ∧
      f.name = Identifier.plainName f.identifier := by
  have hhead : f.head ∈ (lines text).filterMap defined? := by
    rw [← map_head_functionsOf limit text]
    exact List.mem_map_of_mem hf
  obtain ⟨line, hline, hdefined⟩ := List.mem_filterMap.mp hhead
  obtain ⟨identifier, hidentifier, heq⟩ := Option.map_eq_some_iff.mp hdefined
  have hsame : identifier = f.identifier := congrArg ModuleFunction.identifier heq
  have hname : Identifier.plainName identifier = f.name := congrArg ModuleFunction.name heq
  exact ⟨line, hline, hsame ▸ hidentifier, hsame ▸ hname.symm⟩

end BinarySize.ModuleFunction
