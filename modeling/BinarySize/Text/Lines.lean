import BinarySize.Text.Basic

/-!
# Lines

A line ends at a line feed. One carriage return directly before the line feed belongs to the
line end; any other carriage return is ordinary text. A last line needs no line feed, and
nothing follows a final one.
-/

namespace BinarySize.Text

/-- The lines of a text, without their line ends. -/
def lines : Text → List Text
  | [] => []
  | '\n' :: rest => [] :: lines rest
  | '\r' :: '\n' :: rest => [] :: lines rest
  | c :: rest =>
    match lines rest with
    | [] => [[c]]
    | line :: more => (c :: line) :: more

theorem not_mem_of_mem_lines {cs line : Text} (h : line ∈ lines cs) : '\n' ∉ line := by
  induction cs using lines.induct generalizing line with
  | case1 => cases h
  | case2 rest ih =>
    rw [lines] at h
    rcases List.mem_cons.mp h with rfl | h
    · exact List.not_mem_nil
    · exact ih h
  | case3 rest ih =>
    rw [lines] at h
    rcases List.mem_cons.mp h with rfl | h
    · exact List.not_mem_nil
    · exact ih h
  | case4 c rest hlf hcrlf hnone ih =>
    rw [lines, hnone] at h
    · rw [List.mem_singleton.mp h]
      intro hc
      exact hlf (List.mem_singleton.mp hc).symm
    all_goals assumption
  | case5 c rest hlf hcrlf first more hsome ih =>
    rw [lines, hsome] at h
    · rcases List.mem_cons.mp h with rfl | h
      · intro hc
        rcases List.mem_cons.mp hc with hc | hc
        · exact hlf hc.symm
        · exact ih (hsome ▸ List.mem_cons_self) hc
      · exact ih (hsome ▸ List.mem_cons_of_mem _ h)
    all_goals assumption

/-- A line without the carriage return that would belong to its line end. -/
def withoutReturn (line : Text) : Text :=
  if line.getLast? = some '\r' then line.dropLast else line

theorem withoutReturn_cons {c : Char} {cs : Text} (h : ¬ (c = '\r' ∧ cs = [])) :
    withoutReturn (c :: cs) = c :: withoutReturn cs := by
  cases cs with
  | nil => simpa [withoutReturn] using h
  | cons d ds =>
    simp only [withoutReturn, List.getLast?_cons_cons, List.dropLast_cons_cons]
    split
    · rfl
    · rfl

theorem eq_withoutReturn_or (line : Text) :
    withoutReturn line = line ∨ line = withoutReturn line ++ ['\r'] := by
  by_cases h : line.getLast? = some '\r'
  · obtain ⟨front, rfl⟩ := List.getLast?_eq_some_iff.mp h
    exact .inr (by rw [withoutReturn, if_pos h, List.dropLast_concat])
  · exact .inl (if_neg h)

theorem lines_append {line : Text} (hlf : '\n' ∉ line) (rest : Text) :
    lines (line ++ '\n' :: rest) = withoutReturn line :: lines rest := by
  induction line with
  | nil => rfl
  | cons c cs ih =>
    have hc : ¬ c = '\n' := fun h => hlf (h ▸ List.mem_cons_self)
    have hcs := ih fun h => hlf (List.mem_cons_of_mem _ h)
    by_cases hreturn : c = '\r' ∧ cs = []
    · obtain ⟨rfl, rfl⟩ := hreturn
      rfl
    · rw [List.cons_append, lines, hcs, withoutReturn_cons hreturn]
      · exact hc
      · intro tail hcr htail
        cases cs with
        | nil => exact hreturn ⟨hcr, rfl⟩
        | cons d ds => exact hlf (by simp [(List.cons.inj htail).1])

theorem unlines_cons (line : Text) (ls : List Text) :
    unlines (line :: ls) = line ++ '\n' :: unlines ls := by
  rw [unlines, List.flatMap_cons, List.append_assoc, List.singleton_append, unlines]

theorem lines_unlines_cons {line : Text} (hlf : '\n' ∉ line) (ls : List Text) :
    lines (unlines (line :: ls)) = withoutReturn line :: lines (unlines ls) := by
  rw [unlines_cons, lines_append hlf]

theorem lines_of_no_lineFeed {line : Text} (hlf : '\n' ∉ line) (hne : line ≠ []) :
    lines line = [line] := by
  induction line with
  | nil => exact absurd rfl hne
  | cons c cs ih =>
    rw [List.mem_cons, not_or] at hlf
    cases cs with
    | nil =>
      rw [lines, lines]
      · exact fun hc => hlf.1 hc.symm
      · exact fun _ _ htail => nomatch htail
    | cons d ds =>
      have hrest := ih hlf.2 (List.cons_ne_nil d ds)
      rw [lines, hrest]
      · exact fun hc => hlf.1 hc.symm
      · exact fun _ _ htail => hlf.2 (by simp [(List.cons.inj htail).1])

/-- Induction over the lines of a text: the last one, and one in front of a line feed and more
text. -/
theorem line_induction {motive : Text → Prop} (last : ∀ line, '\n' ∉ line → motive line)
    (line : ∀ first rest, '\n' ∉ first → motive rest → motive (first ++ '\n' :: rest))
    (text : Text) : motive text := by
  by_cases h : '\n' ∈ text
  · obtain ⟨first, rest, heq, hfirst⟩ := List.eq_append_cons_of_mem h
    exact heq ▸ line first rest hfirst (line_induction last line rest)
  · exact last text h
termination_by text.length
decreasing_by
  simp only [heq, List.length_append, List.length_cons]
  omega

theorem lines_unlines {ls : List Text}
    (h : ∀ line ∈ ls, '\n' ∉ line ∧ line.getLast? ≠ some '\r') : lines (unlines ls) = ls := by
  induction ls with
  | nil => rfl
  | cons line ls ih =>
    obtain ⟨hlf, hcr⟩ := h line List.mem_cons_self
    have hrest := ih fun l hl => h l (List.mem_cons_of_mem _ hl)
    rw [lines_unlines_cons hlf, hrest, withoutReturn, if_neg hcr]

theorem lines_ne_nil {cs : Text} (h : cs ≠ []) : lines cs ≠ [] := by
  rw [lines.eq_def]
  split
  · exact absurd rfl h
  · exact List.cons_ne_nil _ _
  · exact List.cons_ne_nil _ _
  · split
    · exact List.cons_ne_nil _ _
    · exact List.cons_ne_nil _ _

/-- A character that is no line feed belongs to the first line or to its end. -/
theorem lines_cons {c : Char} (hc : c ≠ '\n') {cs first : Text} {more : List Text}
    (h : lines cs = first :: more) :
    lines (c :: cs) =
      (if c = '\r' ∧ cs.head? = some '\n' then first else c :: first) :: more := by
  by_cases hcrlf : c = '\r' ∧ cs.head? = some '\n'
  · obtain ⟨rfl, hhead⟩ := hcrlf
    obtain ⟨rest, rfl⟩ := List.head?_eq_some_iff.mp hhead
    rw [lines] at h
    rw [if_pos ⟨rfl, hhead⟩, lines, h]
  · rw [if_neg hcrlf, lines, h]
    · exact hc
    · rintro rest hreturn rfl
      exact hcrlf ⟨hreturn, rfl⟩

theorem length_lines_cons {c : Char} (hc : c ≠ '\n') {cs : Text} (hcs : cs ≠ []) :
    (lines (c :: cs)).length = (lines cs).length := by
  obtain ⟨first, more, h⟩ := List.exists_cons_of_ne_nil (lines_ne_nil hcs)
  rw [lines_cons hc h, h, List.length_cons, List.length_cons]

theorem length_lines_append (line rest : Text) :
    (lines (line ++ '\n' :: rest)).length = line.count '\n' + 1 + (lines rest).length := by
  induction line with
  | nil => rw [List.nil_append, lines, List.length_cons, List.count_nil, Nat.zero_add, Nat.add_comm]
  | cons c cs ih =>
    by_cases hc : c = '\n'
    · rw [hc, List.cons_append, lines, List.length_cons, ih, List.count_cons_self]
      omega
    · rw [List.cons_append, length_lines_cons hc (by simp), ih, List.count_cons_of_ne hc]

theorem lines_append_lineFeed (cs rest : Text) :
    lines (cs ++ '\n' :: rest) = lines (cs ++ ['\n']) ++ lines rest := by
  induction cs with
  | nil => rfl
  | cons c cs ih =>
    by_cases hc : c = '\n'
    · rw [hc, List.cons_append, List.cons_append, lines, lines, ih, List.cons_append]
    · have hhead : (cs ++ '\n' :: rest).head? = (cs ++ ['\n']).head? := by
        cases cs with
        | nil => rfl
        | cons d ds => rfl
      have hne : cs ++ ['\n'] ≠ [] := by simp
      obtain ⟨first, more, h⟩ := List.exists_cons_of_ne_nil (lines_ne_nil hne)
      have hlong : lines (cs ++ '\n' :: rest) = first :: (more ++ lines rest) := by
        rw [ih, h, List.cons_append]
      rw [List.cons_append, List.cons_append, lines_cons hc hlong, lines_cons hc h, hhead,
        List.cons_append]

/-- Lines that are written out are as many as there are, and one more for each line feed in
them. -/
theorem length_lines_unlines (ls : List Text) :
    (lines (unlines ls)).length = ls.length + ls.flatten.count '\n' := by
  induction ls with
  | nil => rfl
  | cons line ls ih =>
    rw [unlines_cons, length_lines_append, ih, List.length_cons, List.flatten_cons,
      List.count_append]
    omega

theorem lines_unlines_append (front back : List Text) :
    lines (unlines (front ++ back)) = lines (unlines front) ++ lines (unlines back) := by
  induction front with
  | nil => rfl
  | cons line front ih =>
    rw [List.cons_append, unlines_cons, lines_append_lineFeed, ih, unlines_cons,
      lines_append_lineFeed line (unlines front), List.append_assoc]

end BinarySize.Text
