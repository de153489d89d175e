import BinarySize.Proofs.Dump.Blocks

/-!
# Where names and files come from

Nothing that a dump says about a function is made up: its name is a stretch of one line of the
dump, and so is its file, if it has one (`exists_line_of_mem_functions`).
-/

namespace BinarySize.Dump

open Text

/-! ## Lines -/

namespace Label

variable {label : Label} {line shown text : Text}

theorem infix_of_captures (h : label.Captures shown text) : text <:+: shown := by
  have hquoted : text <:+: quoted text := ⟨['"'], ['"'], by simp [quoted]⟩
  cases label with
  | name | declFile | callFile => exact h.1 ▸ hquoted
  | origin =>
    obtain ⟨offset, gap, rfl, -⟩ := h
    exact hquoted.trans ⟨'0' :: 'x' :: (offset ++ gap), [], by simp⟩
  | lowPc | highPc | declLine | callLine => exact h.1 ▸ List.infix_rfl

/-- A text that an attribute shows is a stretch of the line. -/
theorem infix_of_showsFirst (h : label.ShowsFirst line text) : text <:+: line := by
  obtain ⟨back, hback, ⟨rest, hgap, hcaptures⟩, -⟩ := h
  next gap shown =>
  have hshown : shown <:+: label.text ++ (gap ++ '(' :: (shown ++ ')' :: rest)) :=
    ⟨label.text ++ (gap ++ ['(']), ')' :: rest, by simp⟩
  exact (infix_of_captures hcaptures).trans (hshown.trans hback.isInfix)

end Label

theorem infix_of_declaredName? {line name : Text} (h : declaredName? line = some name) :
    name <:+: line :=
  Label.infix_of_showsFirst (((readsFirst line).declaredName name).mp h).1

theorem infix_of_name? {line name : Text} (h : name? line = some name) : name <:+: line := by
  rcases ((readsFirst line).name name).mp h with ⟨hdeclared, -⟩ | ⟨-, horigin⟩
  · exact Label.infix_of_showsFirst hdeclared
  · exact Label.infix_of_showsFirst horigin

theorem infix_of_declFile? {line file : Text} (h : declFile? line = some file) :
    file <:+: line :=
  Label.infix_of_showsFirst (((readsFirst line).declFile file).mp h)

theorem infix_of_callFile? {line file : Text} (h : callFile? line = some file) :
    file <:+: line :=
  Label.infix_of_showsFirst (((readsFirst line).callFile file).mp h)

/-! ## Blocks -/

namespace Block

theorem lines_subset_of_mem_blocks {lines : List Text} {block : Block} (h : block ∈ blocks lines) :
    block.lines ⊆ lines := by
  induction lines with
  | nil => cases h
  | cons line rest ih =>
    rw [blocks] at h
    split at h
    · rcases List.mem_cons.mp h with rfl | h
      · exact fun l hl => List.mem_cons_of_mem _ (List.takeWhile_subset _ hl)
      · exact fun l hl => List.mem_cons_of_mem _ (ih h hl)
    · exact fun l hl => List.mem_cons_of_mem _ (ih h hl)

/-- A function found in some blocks is described by one of them, below others. -/
theorem exists_of_mem_functionsBelow {earlier later : List Block} {f : SizedFunction}
    (h : f ∈ functionsBelow earlier later) :
    ∃ before block, before ⊆ earlier ++ later ∧ block ∈ later ∧
      block.Describes (unitName? before) f := by
  induction later generalizing earlier with
  | nil => cases h
  | cons block later ih =>
    rw [functionsBelow, List.mem_append, Option.mem_toList] at h
    rcases h with hhere | hlater
    · exact ⟨earlier, block, List.subset_append_left _ _, List.mem_cons_self,
        (function?_eq_some_iff _ _ _).mp hhere⟩
    · obtain ⟨before, found, hbefore, hfound, hdescribes⟩ := ih hlater
      refine ⟨before, found, ?_, List.mem_cons_of_mem _ hfound, hdescribes⟩
      rwa [List.append_assoc, List.singleton_append] at hbefore

theorem exists_line_of_first? {block : Block} {value? : Text → Option Text} {text : Text}
    (hvalue : ∀ line text, value? line = some text → text <:+: line)
    (h : block.first? value? = some text) : ∃ line ∈ block.lines, text <:+: line := by
  obtain ⟨line, hline, hread⟩ := List.exists_of_findSome?_eq_some h
  exact ⟨line, hline, hvalue line text hread⟩

theorem exists_line_of_unitName? {earlier : List Block} {name : Text}
    (h : unitName? earlier = some name) :
    ∃ block ∈ earlier, ∃ line ∈ block.lines, name <:+: line := by
  obtain ⟨block, hblock, hname⟩ := Option.bind_eq_some_iff.mp h
  exact ⟨block, List.mem_reverse.mp (List.mem_of_find?_eq_some hblock),
    exists_line_of_first? (fun _ _ => infix_of_declaredName?) hname⟩

end Block

/-- **Origins.** The name of a function of a dump is a stretch of one of its lines, and so is the
file unless it is unknown. -/
theorem exists_line_of_mem_functions {dump : Text} {f : SizedFunction} (h : f ∈ functions dump) :
    (∃ line ∈ Text.lines dump, f.name <:+: line) ∧
      (f.file = [] ∨ ∃ line ∈ Text.lines dump, f.file <:+: line) := by
  have hfound : f ∈ Block.functionsBelow [] (blocks (Text.lines dump)) := by
    rw [← Block.functionsFrom_eq_functionsBelow]
    exact (SizedFunction.sort_perm _).mem_iff.mp h
  obtain ⟨before, block, hbefore, hblock, hdescribes⟩ := Block.exists_of_mem_functionsBelow hfound
  have hin : ∀ block ∈ blocks (Text.lines dump), ∀ text, (∃ line ∈ block.lines, text <:+: line) →
      ∃ line ∈ Text.lines dump, text <:+: line := by
    rintro block hblock text ⟨line, hline, htext⟩
    exact ⟨line, Block.lines_subset_of_mem_blocks hblock hline, htext⟩
  refine ⟨hin block hblock _ (Block.exists_line_of_first? (fun _ _ => infix_of_name?)
    hdescribes.name), ?_⟩
  rw [hdescribes.file]
  cases hfile : (block.first? declFile?).or ((block.first? callFile?).or
      (Block.unitName? before)) with
  | none => exact .inl rfl
  | some file =>
    refine .inr ?_
    rw [Option.getD_some]
    rcases Option.or_eq_some_iff.mp hfile with hdecl | ⟨-, hfile⟩
    · exact hin block hblock file
        (Block.exists_line_of_first? (fun _ _ => infix_of_declFile?) hdecl)
    · rcases Option.or_eq_some_iff.mp hfile with hcall | ⟨-, hunit⟩
      · exact hin block hblock file
          (Block.exists_line_of_first? (fun _ _ => infix_of_callFile?) hcall)
      · obtain ⟨unit, hunit, hline⟩ := Block.exists_line_of_unitName? hunit
        exact hin unit (by simpa using hbefore hunit) file hline

end BinarySize.Dump
