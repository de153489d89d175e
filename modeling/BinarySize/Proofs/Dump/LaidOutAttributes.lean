import BinarySize.Proofs.Dump.LaidOutLines

/-!
# Reading laid out attributes

However the value of an attribute is written, it is what the pattern of its label captures, and
what is captured says the value (`Reads.of_label`). So each reader of lines finds in a laid out line
exactly what the line's attribute says to it, and a line without a label says nothing to any reader
(`Reads`).
-/

namespace BinarySize.Dump

open Text Number

/-! ## Numbers -/

theorem isRun_of_isNumeral {n : Nat} {digits : Text} (h : IsNumeral 10 n digits) :
    IsRun isDecimalDigit digits := by
  refine ⟨h.ne_nil, fun c hc => ?_⟩
  obtain ⟨d, hd⟩ := h.exists_digit? c hc
  exact isDecimalDigit_of_digit? hd

namespace IsAddress

variable {n : Nat} {cs : Text}

theorem isAddressNumeral (h : IsAddress n cs) : IsAddressNumeral cs := by
  cases h with
  | hex hx h => exact .hexadecimal hx ⟨h.ne_nil, h.isHexDigit_of_mem⟩
  | decimal h => exact .decimal (isRun_of_isNumeral h)

theorem isHexDigit_of_mem (h : IsAddress n cs) :
    ∀ c ∈ cs, isHexDigit c = true ∨ c = 'x' ∨ c = 'X' := by
  intro c hc
  cases h with
  | hex hx h =>
    rcases List.mem_cons.mp hc with rfl | hc
    · exact .inl rfl
    · rcases List.mem_cons.mp hc with rfl | hc
      · exact .inr hx
      · exact .inl (h.isHexDigit_of_mem c hc)
  | decimal h => exact .inl (h.isHexDigit_of_mem c hc)

theorem trim_eq (h : IsAddress n cs) : trim cs = cs := by
  have hblank : ∀ c ∈ cs, isBlank c = false := by
    intro c hc
    rcases h.isHexDigit_of_mem c hc with hdigit | rfl | rfl
    · exact isBlank_of_isHexDigit hdigit
    · decide
    · decide
  exact trim_of_ends (fun c hc => hblank c (List.mem_of_head? hc))
    fun c hc => hblank c (List.mem_of_getLast? hc)

theorem attributeNumber? (h : IsAddress n cs) (hn : n < limit) :
    Dump.attributeNumber? cs = some n := by
  rw [attributeNumber?_eq_some_iff, h.trim_eq]
  refine ⟨hn, ?_⟩
  cases h with
  | hex hx h => exact .hexadecimal hx (.plain h)
  | decimal h => exact .decimal (.plain h)

end IsAddress

/-! ## Values -/

theorem not_mem_of_isHexDigit {cs : Text} (h : ∀ c ∈ cs, isHexDigit c = true ∨ c = 'x' ∨ c = 'X') :
    'W' ∉ cs ∧ '\n' ∉ cs :=
  ⟨fun hmem => absurd (h _ hmem) (by decide), fun hmem => absurd (h _ hmem) (by decide)⟩

theorem unmarked_append_quoted {front text : Text} (hfront : 'W' ∉ front)
    (h : ¬ marker <:+: text) : ¬ marker <:+: front ++ quoted text :=
  unmarked_append_cons (by decide) (unmarked_of_not_mem hfront)
    (unmarked_append_cons (by decide) h (unmarked_of_not_mem List.not_mem_nil))

namespace Attribute.IsValue

variable {a : Attribute} {value : Text}

/-- A value is text in quotes with no marker before them, or has no marker at all. -/
theorem shape (h : a.IsValue value) (hwell : a.WellFormed) :
    'W' ∉ value ∧ '\n' ∉ value ∨
      ∃ front text, value = front ++ quoted text ∧ 'W' ∉ front ∧ '\n' ∉ front ∧
        IsQuotable text := by
  have hnumeral : ∀ {n digits}, IsNumeral 10 n digits → 'W' ∉ digits ∧ '\n' ∉ digits :=
    fun h => not_mem_of_isHexDigit fun c hc => .inl (h.isHexDigit_of_mem c hc)
  have hquoted : ∀ {text}, IsQuotable text → ∃ front inside, quoted text = front ++ quoted inside ∧
      'W' ∉ front ∧ '\n' ∉ front ∧ IsQuotable inside :=
    fun {text} h => ⟨[], text, rfl, List.not_mem_nil, List.not_mem_nil, h⟩
  cases h with
  | name text => exact .inr (hquoted hwell)
  | @origin text offset gap hne hoffset hgap =>
    have hdigits := not_mem_of_isHexDigit fun c hc => .inl (hoffset c hc)
    have hmarker : 'W' ∉ gap := hgap.space.not_mem (by decide)
    exact .inr ⟨'0' :: 'x' :: (offset ++ gap), text, by simp, by simp [hdigits, hmarker],
      by simp [hdigits, hgap.space.lineFeed], hwell⟩
  | lowPc h => exact .inl (not_mem_of_isHexDigit h.isHexDigit_of_mem)
  | highPc h => exact .inl (not_mem_of_isHexDigit h.isHexDigit_of_mem)
  | declFile file => exact .inr (hquoted hwell)
  | declLine h => exact .inl (hnumeral h)
  | callFile file => exact .inr (hquoted hwell)
  | callLine h => exact .inl (hnumeral h)

theorem unmarked (h : a.IsValue value) (hwell : a.WellFormed) : ¬ marker <:+: value := by
  rcases h.shape hwell with ⟨hmarker, -⟩ | ⟨front, text, rfl, hfront, -, htext⟩
  · exact unmarked_of_not_mem hmarker
  · exact unmarked_append_quoted hfront htext.unmarked

theorem lineFeed (h : a.IsValue value) (hwell : a.WellFormed) : '\n' ∉ value := by
  rcases h.shape hwell with ⟨-, hline⟩ | ⟨front, text, rfl, -, hfront, htext⟩
  · exact hline
  · simp [quoted, hfront, htext.lineFeed]

end Attribute.IsValue

/-! ## Readers -/

namespace Attribute

def text? : Attribute → Option Text
  | name text | origin text | declFile text | callFile text => some text
  | lowPc _ | highPc _ | declLine _ | callLine _ => none

def number? : Attribute → Option Nat
  | lowPc n | highPc n | declLine n | callLine n => some n
  | name _ | origin _ | declFile _ | callFile _ => none

/-- What an attribute shows, if it has a certain label. -/
def labelled (label : Label) (shows? : Attribute → Option α) (a : Attribute) : Option α :=
  if a.label = label then shows? a else none

end Attribute

/-- A reader of lines finds in a layout what the attributes say, and nothing elsewhere. -/
structure Reads (value? : Text → Option α) (says? : Attribute → Option α) : Prop where
  shown : ∀ {a : Attribute} {line : Text}, a.IsLine line → a.WellFormed → value? line = says? a
  silent : ∀ {line : Text}, ¬ marker <:+: line → value? line = none

namespace Reads

/-- A reader of a label finds what the attributes with that label show, if it makes of what their
values are captured as what they show. -/
theorem of_label {label : Label} {read? : Text → Option α} {shows? : Attribute → Option α}
    (hread : ∀ {a : Attribute} {value : Text}, a.label = label → a.IsValue value → a.WellFormed →
      ∃ found, label.Captures value found ∧ read? found = shows? a) :
    Reads (fun line => (attribute? label.text label.value? line).bind read?)
      (Attribute.labelled label shows?) where
  shown := by
    rintro a line ⟨hindent, hgap, hvalue⟩ hwell
    have hshows := fun text =>
      @showsFirst_laidOut_iff label a.label text _ _ _ hindent hgap (hvalue.unmarked hwell)
    by_cases hlabel : label = a.label
    · obtain ⟨found, hcaptures, hsays⟩ := hread hlabel.symm hvalue hwell
      have hfound := (hshows found).mpr ⟨hlabel, _, [], rfl, hcaptures⟩
      rw [(attribute?_eq_some_iff label).mpr hfound, Attribute.labelled, if_pos hlabel.symm]
      exact hsays
    · have hnone : attribute? label.text label.value? _ = none :=
        Option.eq_none_iff_forall_ne_some.mpr fun text htext =>
          hlabel ((hshows text).mp ((attribute?_eq_some_iff label).mp htext)).1
      rw [hnone, Attribute.labelled, if_neg (Ne.symm hlabel)]
      rfl
  silent h := by rw [attribute?_of_unmarked h, Option.bind_none]

theorem or {first? second? : Text → Option α} {says? tells? : Attribute → Option α}
    (hfirst : Reads first? says?) (hsecond : Reads second? tells?) :
    Reads (fun line => (first? line).or (second? line)) fun a => (says? a).or (tells? a) where
  shown hline hwell := by rw [hfirst.shown hline hwell, hsecond.shown hline hwell]
  silent h := by rw [hfirst.silent h, hsecond.silent h, Option.or_none]

theorem declaredName : Reads declaredName? (Attribute.labelled .name Attribute.text?) := by
  have h : Reads (fun line => (attribute? Label.name.text quoted? line).bind
      (Option.guard fun name => !name.isEmpty)) (Attribute.labelled .name Attribute.text?) := by
    refine of_label ?_
    intro a value hlabel hvalue hwell
    cases hvalue with
    | name text =>
      refine ⟨text, ⟨rfl, hwell.quote⟩, Option.guard_eq_some_iff.mpr ⟨rfl, ?_⟩⟩
      rw [List.isEmpty_eq_false_iff.mpr hwell.ne_nil]
      rfl
    | _ => cases hlabel
  simp only [Option.bind_guard] at h
  exact h

theorem originName : Reads originName? (Attribute.labelled .origin Attribute.text?) := by
  have h : Reads (fun line => (attribute? Label.origin.text reference? line).bind some)
      (Attribute.labelled .origin Attribute.text?) := by
    refine of_label ?_
    intro a value hlabel hvalue hwell
    cases hvalue with
    | origin text hne hoffset hgap =>
      exact ⟨text, ⟨_, _, rfl, ⟨hne, hoffset⟩, hgap.isRun, hwell.ne_nil, hwell.quote⟩, rfl⟩
    | _ => cases hlabel
  simp only [Option.bind_fun_some] at h
  exact h

theorem name : Reads name? fun a =>
    (a.labelled .name Attribute.text?).or (a.labelled .origin Attribute.text?) :=
  declaredName.or originName

theorem file {label : Label} (hfile : label = .declFile ∨ label = .callFile) :
    Reads (attribute? label.text label.value?) (Attribute.labelled label Attribute.text?) := by
  have h : Reads (fun line => (attribute? label.text label.value? line).bind some)
      (Attribute.labelled label Attribute.text?) := by
    refine of_label ?_
    intro a value hlabel hvalue hwell
    cases hvalue with
    | declFile file | callFile file =>
      subst hlabel
      exact ⟨file, ⟨rfl, hwell.ne_nil, hwell.quote⟩, rfl⟩
    | _ =>
      rcases hfile with rfl | rfl
      · cases hlabel
      · cases hlabel
  simp only [Option.bind_fun_some] at h
  exact h

theorem address {label : Label} (hpc : label = .lowPc ∨ label = .highPc) :
    Reads (fun line => (attribute? label.text label.value? line).bind attributeNumber?)
      (Attribute.labelled label Attribute.number?) := by
  refine of_label ?_
  intro a value hlabel hvalue hwell
  cases hvalue with
  | lowPc h | highPc h =>
    subst hlabel
    exact ⟨value, ⟨rfl, h.isAddressNumeral⟩, h.attributeNumber? hwell⟩
  | _ =>
    rcases hpc with rfl | rfl
    · cases hlabel
    · cases hlabel

theorem line {label : Label} (hline : label = .declLine ∨ label = .callLine) :
    Reads (fun line => (attribute? label.text label.value? line).bind (Number.read? 10))
      (Attribute.labelled label Attribute.number?) := by
  refine of_label ?_
  intro a value hlabel hvalue hwell
  cases hvalue with
  | declLine h | callLine h =>
    subst hlabel
    exact ⟨value, ⟨rfl, isRun_of_isNumeral h⟩, h.read? hwell⟩
  | _ =>
    rcases hline with rfl | rfl
    · cases hlabel
    · cases hlabel

end Reads

end BinarySize.Dump
