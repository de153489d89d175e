import BinarySize.Proofs.Dump.Patterns

/-!
# Reading laid out lines

Each line of a layout is read for what it says and for nothing else. Proved here:

* `entryTag?_eq_some_iff`: the lines that start entries are those of the layout;
* `showsFirst_laidOut_iff`: the only attribute that a laid out attribute line shows is its own,
  since the marker of labels stands nowhere else in it;
* `attribute?_of_unmarked`: a line without the marker shows no attribute.
-/

namespace BinarySize.Dump

open Text Number

/-! ## Blanks -/

namespace IsSpace

variable {cs : Text}

theorem lineFeed (h : IsSpace cs) : '\n' ∉ cs := fun hmem => (h _ hmem).2 rfl

theorem not_mem (h : IsSpace cs) {c : Char} (hc : isBlank c = false) : c ∉ cs := by
  intro hmem
  rw [(h c hmem).1] at hc
  cases hc

end IsSpace

theorem dropBlanks_indent {indent rest : Text} (hindent : IsSpace indent)
    (hrest : ∀ c, rest.head? = some c → isBlank c = false) :
    dropBlanks (indent ++ rest) = rest := by
  rw [dropBlanks_append fun c hc => (hindent c hc).1, dropBlanks_of_head hrest]

/-! ## Lines that start entries -/

theorem parts_of_entryTag? {line tag : Text} (h : entryTag? line = some tag) :
    ∃ indent offset gap name rest, (∀ c ∈ indent, isBlank c = true) ∧ offset ≠ [] ∧
      (∀ c ∈ offset, isHexDigit c = true) ∧ gap ≠ [] ∧ (∀ c ∈ gap, isBlank c = true) ∧
      name ≠ [] ∧ (∀ c ∈ name, isWordChar c = true) ∧
      (∀ c, rest.head? = some c → isWordChar c = false) ∧ tag = "DW_TAG_".toList ++ name ∧
      line = indent ++ ("0x".toList ++ (offset ++ ':' :: (gap ++ (tag ++ rest)))) := by
  simp only [entryTag?, Option.bind_eq_bind, Option.bind_eq_some_iff] at h
  obtain ⟨r₁, hzero, ⟨offset, r₂⟩, hoffset, r₃, hcolon, r₄, hblanks, r₅, htag, ⟨name, rest⟩, hname,
    heq⟩ := h
  obtain ⟨rfl, hne, hdigits, -⟩ := run?_eq_some_iff_append.mp hoffset
  obtain ⟨rfl, hname, hword, hend⟩ := run?_eq_some_iff_append.mp hname
  obtain rfl := after?_eq_some.mp hcolon
  obtain rfl := after?_eq_some.mp htag
  obtain ⟨gap, rfl, hgap, hblank, -⟩ := afterBlanks?_eq_some_iff.mp hblanks
  refine ⟨line.takeWhile isBlank, offset, gap, name, rest, List.all_eq_true.mp List.all_takeWhile,
    hne, hdigits, hgap, hblank, hname, hword, hend, (Option.some.inj heq).symm, ?_⟩
  have hline : line.takeWhile isBlank ++ dropBlanks line = line := List.takeWhile_append_dropWhile
  rw [← Option.some.inj heq, List.append_assoc]
  exact hline.symm.trans (congrArg _ (after?_eq_some.mp hzero))

/-- A line starts an entry exactly if it is laid out that way. -/
theorem entryTag?_eq_some_iff {line tag : Text} (hlf : '\n' ∉ line) :
    entryTag? line = some tag ↔ IsStart tag line := by
  constructor
  · intro h
    obtain ⟨indent, offset, gap, name, rest, hindent, hne, hoffset, hgap, hblank, hname, hword,
      hend, rfl, rfl⟩ := parts_of_entryTag? h
    simp only [List.mem_append, List.mem_cons, not_or] at hlf
    obtain ⟨hindentLf, -, -, -, hgapLf, -, hrestLf⟩ := hlf
    exact .intro (fun c hc => ⟨hindent c hc, fun heq => hindentLf (heq ▸ hc)⟩) hne hoffset
      ⟨hgap, fun c hc => ⟨hblank c hc, fun heq => hgapLf (heq ▸ hc)⟩⟩ (.intro hname hword)
      (atWordEnd_iff.mpr hend) hrestLf
  · rintro ⟨hindent, hne, hoffset, hgap, ⟨hname, hword⟩, hend, -⟩
    next indent offset gap rest name =>
    have hzero : dropBlanks (indent ++ ("0x".toList ++ (offset ++ ':' :: (gap ++
        ("DW_TAG_".toList ++ name ++ rest))))) = _ :=
      dropBlanks_indent hindent (by rintro c ⟨⟩; decide)
    have hrun : run? isHexDigit (offset ++ ':' :: (gap ++ ("DW_TAG_".toList ++ name ++ rest))) =
        some (offset, _) :=
      run?_eq_some_iff_append.mpr ⟨rfl, hne, hoffset, by rintro c ⟨⟩; decide⟩
    have hblanks : afterBlanks? (gap ++ ("DW_TAG_".toList ++ name ++ rest)) = some _ :=
      afterBlanks?_of_isRun hgap.isRun (by rintro c ⟨⟩; decide)
    have hword : run? isWordChar (name ++ rest) = some (name, rest) :=
      run?_eq_some_iff_append.mpr ⟨rfl, hname, hword, atWordEnd_iff.mp hend⟩
    simp only [entryTag?, Option.bind_eq_bind, Option.bind_eq_some_iff]
    exact ⟨_, after?_eq_some.mpr hzero, (offset, _), hrun, _, after?_eq_some.mpr rfl, _, hblanks, _,
      after?_eq_some.mpr (List.append_assoc ..), (name, rest), hword, rfl⟩

/-! ## The marker of labels -/

theorem unmarked_of_not_mem {cs : Text} (h : 'W' ∉ cs) : ¬ marker <:+: cs :=
  fun hmarked => h (hmarked.subset (by decide))

/-- A character that no marker holds keeps what stands before it and behind it apart. -/
theorem unmarked_append_cons {front back : Text} {c : Char} (hc : c ∉ marker)
    (hfront : ¬ marker <:+: front) (hback : ¬ marker <:+: back) :
    ¬ marker <:+: front ++ c :: back := by
  rw [List.infix_append_iff, List.infix_cons_iff]
  rintro (hin | (hstart | hin) | ⟨left, right, hmarker, hleft, hright⟩)
  · exact hfront hin
  · rcases List.prefix_cons_iff.mp hstart with hnil | ⟨rest, hmarker, -⟩
    · cases hnil
    · exact hc (hmarker ▸ List.mem_cons_self)
  · exact hback hin
  · rcases List.prefix_cons_iff.mp hright with rfl | ⟨rest, rfl, -⟩
    · rw [List.append_nil] at hmarker
      exact hfront (hmarker ▸ hleft.isInfix)
    · exact hc (by simp [hmarker])

/-- Every label starts with the marker, which stands nowhere else in it. -/
theorem marker_prefix_text (label : Label) :
    marker <+: label.text ∧ ¬ marker <:+: label.text.tail := by
  rw [← List.isPrefixOf_iff_prefix, ← occursIn_iff]
  cases label with
  | _ => decide +kernel

/-- No label is the beginning of another one. -/
theorem eq_of_begins {l m : Label} (h : l.text <+: m.text) : l = m := by
  have hall : ∀ l ∈ Label.all, ∀ m ∈ Label.all, l.text.isPrefixOf m.text = true → l = m := by
    decide +kernel
  exact hall l l.mem_all m m.mem_all (List.isPrefixOf_iff_prefix.mpr h)

/-- Behind blanks the marker starts where a text does that holds it nowhere else. -/
theorem eq_of_marked {indent back cs : Text} (hindent : IsSpace indent)
    (hback : ¬ marker <:+: back.tail) (hcs : cs <:+ indent ++ back) (hmarker : marker <+: cs) :
    cs = back := by
  obtain ⟨front, hfront⟩ := hcs
  rcases List.append_eq_append_iff.mp hfront with ⟨more, rfl, rfl⟩ | ⟨more, rfl, rfl⟩
  · cases more with
    | nil => rfl
    | cons c more =>
      obtain ⟨hc, -⟩ : 'D' = c ∧ _ := List.cons_prefix_cons.mp hmarker
      have hmem : 'D' ∈ front ++ c :: more := List.mem_append_right _ (hc ▸ List.mem_cons_self)
      exact absurd hmem (hindent.not_mem (by decide))
  · cases more with
    | nil => rfl
    | cons c more => exact absurd (hmarker.isInfix.trans (List.suffix_append more cs).isInfix) hback

/-! ## Attributes in a line -/

section

variable {label own : Label} {line text gap value : Text}

theorem text_prefix_of_starts (h : label.Starts text line) : label.text <+: line := by
  obtain ⟨rest, hgap, hcaptures⟩ := h
  exact List.prefix_append _ _

theorem marker_prefix_of_starts (h : label.Starts text line) : marker <+: line :=
  (marker_prefix_text label).1.trans (text_prefix_of_starts h)

/-- A line without a label says nothing to the readers of that label. -/
theorem attribute?_of_unlabelled (h : ¬ label.text <:+: line) :
    attribute? label.text label.value? line = none := by
  rw [Option.eq_none_iff_forall_ne_some]
  intro text hread
  obtain ⟨back, hback, hstarts, -⟩ := (attribute?_eq_some_iff label).mp hread
  exact h ((text_prefix_of_starts hstarts).isInfix.trans hback.isInfix)

theorem attribute?_of_unmarked (h : ¬ marker <:+: line) :
    attribute? label.text label.value? line = none :=
  attribute?_of_unlabelled fun hlabel => h ((marker_prefix_text label).1.isInfix.trans hlabel)

/-- What starts like a laid out attribute is an attribute of that label only, and may end at any
parenthesis. -/
theorem starts_laidOut_iff (hgap : IsGap gap) :
    label.Starts text (own.text ++ (gap ++ '(' :: (value ++ [')']))) ↔
      label = own ∧
        ∃ shown rest, value ++ [')'] = shown ++ ')' :: rest ∧ label.Captures shown text := by
  constructor
  · generalize hcs : own.text ++ (gap ++ '(' :: (value ++ [')'])) = cs
    rintro ⟨rest, hblanks, hcaptures⟩
    next blanks shown =>
    have hlabel : label = own := by
      have hown : own.text <+: label.text ++ (blanks ++ '(' :: (shown ++ ')' :: rest)) := ⟨_, hcs⟩
      rcases List.prefix_or_prefix_of_prefix (List.prefix_append _ _) hown with hbegins | hbegins
      · exact eq_of_begins hbegins
      · exact (eq_of_begins hbegins).symm
    subst hlabel
    have hbehind : some ('(' :: (value ++ [')'])) = some ('(' :: (shown ++ ')' :: rest)) := by
      rw [← afterBlanks?_of_isRun hgap.isRun (by rintro c ⟨⟩; decide),
        ← afterBlanks?_of_isRun hblanks (by rintro c ⟨⟩; decide), List.append_cancel_left hcs]
    exact ⟨rfl, shown, rest, (List.cons.inj (Option.some.inj hbehind)).2, hcaptures⟩
  · rintro ⟨rfl, shown, rest, hvalue, hcaptures⟩
    rw [hvalue]
    exact .intro rest hgap.isRun hcaptures

/-- Behind the start of a label there is no other one. -/
theorem unmarked_tail (own : Label) (hgap : IsGap gap) (hvalue : ¬ marker <:+: value) :
    ¬ marker <:+: (own.text ++ (gap ++ '(' :: (value ++ [')']))).tail := by
  obtain ⟨hne, hspace⟩ := hgap
  obtain ⟨g, gap, rfl⟩ := List.exists_cons_of_ne_nil hne
  have hmarker : marker.all (fun c => !isBlank c) = true := by decide
  have hg : g ∉ marker := by
    intro hmem
    have hnot := List.all_eq_true.mp hmarker g hmem
    rw [(hspace g List.mem_cons_self).1] at hnot
    cases hnot
  have hrest : 'W' ∉ gap := fun hmem =>
    hspace.not_mem (by decide) (List.mem_cons_of_mem g hmem)
  have hown : own.text ≠ [] := by
    cases own with
    | _ => decide
  rw [List.tail_append_of_ne_nil hown]
  refine unmarked_append_cons hg (marker_prefix_text own).2 ?_
  refine unmarked_append_cons (by decide) (unmarked_of_not_mem hrest) ?_
  exact unmarked_append_cons (by decide) hvalue (unmarked_of_not_mem List.not_mem_nil)

/-- A laid out line shows its own attribute and no other one. -/
theorem showsFirst_laidOut_iff {indent : Text} (hindent : IsSpace indent) (hgap : IsGap gap)
    (hvalue : ¬ marker <:+: value) :
    label.ShowsFirst (indent ++ (own.text ++ (gap ++ '(' :: (value ++ [')'])))) text ↔
      label = own ∧
        ∃ shown rest, value ++ [')'] = shown ++ ')' :: rest ∧ label.Captures shown text := by
  rw [← starts_laidOut_iff hgap]
  have honly := fun cs => @eq_of_marked _ _ cs hindent (unmarked_tail own hgap hvalue)
  constructor
  · rintro ⟨back, hback, hstarts, -⟩
    rwa [honly back hback (marker_prefix_of_starts hstarts)] at hstarts
  · intro hstarts
    refine ⟨_, List.suffix_append _ _, hstarts, fun rest hrest hlonger other hother => ?_⟩
    rw [honly rest hrest (marker_prefix_of_starts hother)] at hlonger
    exact Nat.lt_irrefl _ hlonger

end

end BinarySize.Dump
