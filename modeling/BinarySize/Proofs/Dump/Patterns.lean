import BinarySize.Proofs.Dump.Layout
import BinarySize.Proofs.NumberReaders

/-!
# The patterns of attributes

The attributes of a label have a pattern: the label itself, blanks, and a text of the label's own
kind in parentheses. Proved here, for every line:

* `attribute?_eq_some_iff`: what is found for a label is what the pattern captures at the first
  place of the line where it matches;
* `readsFirst`: so each reader of lines answers with what the first attribute of its label shows.
-/

namespace BinarySize.Dump

open Text Number

/-! ## What stands in parentheses -/

/-- One or more characters that satisfy `p`. -/
structure IsRun (p : Char → Bool) (run : Text) : Prop where
  ne_nil : run ≠ []
  all : ∀ c ∈ run, p c = true

theorem run?_of_isRun {p : Char → Bool} {run : Text} (h : IsRun p run) {rest : Text}
    (hrest : ∀ c, rest.head? = some c → p c = false) : run? p (run ++ rest) = some (run, rest) :=
  run?_eq_some_iff_append.mpr ⟨rfl, h.ne_nil, h.all, hrest⟩

theorem isRun_of_run? {p : Char → Bool} {cs run rest : Text} (h : run? p cs = some (run, rest)) :
    cs = run ++ rest ∧ IsRun p run := by
  obtain ⟨heq, hne, hall, -⟩ := run?_eq_some_iff_append.mp h
  exact ⟨heq, hne, hall⟩

/-- Blanks in front of a text that starts with none are what is skipped. -/
theorem afterBlanks?_of_isRun {gap rest : Text} (hgap : IsRun isBlank gap)
    (hrest : ∀ c, rest.head? = some c → isBlank c = false) :
    afterBlanks? (gap ++ rest) = some rest :=
  afterBlanks?_eq_some_iff.mpr ⟨gap, rfl, hgap.ne_nil, hgap.all, hrest⟩

theorem IsGap.isRun {gap : Text} (h : IsGap gap) : IsRun isBlank gap :=
  ⟨h.ne_nil, fun c hc => (h.space c hc).1⟩

theorem isRun_of_afterBlanks? {cs rest : Text} (h : afterBlanks? cs = some rest) :
    ∃ gap, cs = gap ++ rest ∧ IsRun isBlank gap := by
  obtain ⟨gap, heq, hne, hblank, -⟩ := afterBlanks?_eq_some_iff.mp h
  exact ⟨gap, heq, hne, hblank⟩

/-- The numerals of addresses: hexadecimal digits behind `0x` or `0X`, or decimal ones. -/
inductive IsAddressNumeral : Text → Prop
  | hexadecimal {x : Char} {digits : Text} (hx : x = 'x' ∨ x = 'X')
      (hdigits : IsRun isHexDigit digits) : IsAddressNumeral ('0' :: x :: digits)
  | decimal {digits : Text} (hdigits : IsRun isDecimalDigit digits) : IsAddressNumeral digits

namespace Label

/-- The texts that may stand in the parentheses behind a label, each with what is read of it:
quoted texts without their quotes, and numerals as they are. -/
def Captures : Label → Text → Text → Prop
  | name, shown, text => shown = quoted text ∧ '"' ∉ text
  | origin, shown, text => ∃ offset gap, shown = '0' :: 'x' :: (offset ++ (gap ++ quoted text)) ∧
      IsRun isHexDigit offset ∧ IsRun isBlank gap ∧ text ≠ [] ∧ '"' ∉ text
  | lowPc, shown, text | highPc, shown, text => shown = text ∧ IsAddressNumeral text
  | declFile, shown, text | callFile, shown, text => shown = quoted text ∧ text ≠ [] ∧ '"' ∉ text
  | declLine, shown, text | callLine, shown, text => shown = text ∧ IsRun isDecimalDigit text

def value? : Label → Text → Option (Text × Text)
  | name => quoted?
  | origin => reference?
  | lowPc | highPc => numeral?
  | declFile | callFile => quotedNonempty?
  | declLine | callLine => digits?

end Label

/-! ## Recognisers -/

/-- What is quoted ends at the next quote. -/
theorem quoted?_eq_some_iff {cs text rest : Text} :
    quoted? cs = some (text, rest) ↔ cs = quoted text ++ rest ∧ '"' ∉ text := by
  constructor
  · intro h
    unfold quoted? at h
    split at h
    · next cs =>
      simp only [Option.bind_eq_bind, Option.bind_eq_some_iff] at h
      obtain ⟨behind, hclose, heq⟩ := h
      cases heq
      have hcut : cs = cs.takeWhile (· ≠ '"') ++ '"' :: rest := by
        rw [← List.singleton_append, ← after?_eq_some.mp hclose, List.takeWhile_append_dropWhile]
      have hinside : ∀ c ∈ cs.takeWhile (· ≠ '"'), decide (c ≠ '"') = true :=
        List.all_eq_true.mp List.all_takeWhile
      refine ⟨?_, fun hmem => of_decide_eq_true (hinside _ hmem) rfl⟩
      rw [quoted, List.cons_append, List.append_assoc]
      exact congrArg _ hcut
    · cases h
  · rintro ⟨rfl, hquote⟩
    have hinside : ∀ c ∈ text, decide (c ≠ '"') = true := fun c hc =>
      decide_eq_true fun heq => hquote (heq ▸ hc)
    have hcs : quoted text ++ rest = '"' :: (text ++ '"' :: rest) := by simp [quoted]
    have htake : (text ++ '"' :: rest).takeWhile (· ≠ '"') = text := by
      rw [List.takeWhile_append_of_pos hinside]
      simp
    have hdrop : (text ++ '"' :: rest).dropWhile (· ≠ '"') = '"' :: rest := by
      rw [List.dropWhile_append_of_pos hinside]
      simp
    have hclose : after? ['"'] ('"' :: rest) = some rest := after?_eq_some.mpr rfl
    rw [hcs, quoted?, htake, hdrop, hclose]
    rfl

theorem quotedNonempty?_eq_some_iff {cs text rest : Text} :
    quotedNonempty? cs = some (text, rest) ↔ cs = quoted text ++ rest ∧ text ≠ [] ∧ '"' ∉ text := by
  rw [quotedNonempty?, Option.filter_eq_some_iff, quoted?_eq_some_iff, Bool.not_eq_true',
    List.isEmpty_eq_false_iff, and_assoc]
  exact and_congr_right fun _ => and_comm

theorem reference?_eq_some_iff {cs text rest : Text} :
    reference? cs = some (text, rest) ↔ ∃ offset gap,
      cs = '0' :: 'x' :: (offset ++ (gap ++ (quoted text ++ rest))) ∧ IsRun isHexDigit offset ∧
        IsRun isBlank gap ∧ text ≠ [] ∧ '"' ∉ text := by
  simp only [reference?, Option.bind_eq_bind, Option.bind_eq_some_iff]
  constructor
  · rintro ⟨behind, hzero, ⟨offset, behind⟩, hrun, rest, hblanks, hquoted⟩
    obtain rfl := after?_eq_some.mp hzero
    obtain ⟨rfl, hoffset⟩ := isRun_of_run? hrun
    obtain ⟨gap, rfl, hgap⟩ := isRun_of_afterBlanks? hblanks
    obtain ⟨rfl, hne, hquote⟩ := quotedNonempty?_eq_some_iff.mp hquoted
    exact ⟨offset, gap, rfl, hoffset, hgap, hne, hquote⟩
  · rintro ⟨offset, gap, rfl, hoffset, hgap, hne, hquote⟩
    refine ⟨_, after?_eq_some.mpr rfl, (offset, _), run?_of_isRun hoffset ?_, _,
      afterBlanks?_of_isRun hgap (by rintro c ⟨⟩; decide),
      quotedNonempty?_eq_some_iff.mpr ⟨rfl, hne, hquote⟩⟩
    intro c hc
    rw [List.head?_append, List.head?_eq_some_head hgap.ne_nil, Option.some_or] at hc
    exact isHexDigit_of_isBlank (hgap.all c (Option.some.inj hc ▸ List.head_mem hgap.ne_nil))

theorem digits?_eq_some_iff {cs digits rest : Text} :
    digits? cs = some (digits, ')' :: rest) ↔
      cs = digits ++ ')' :: rest ∧ IsRun isDecimalDigit digits := by
  constructor
  · exact isRun_of_run?
  · rintro ⟨rfl, hdigits⟩
    exact run?_of_isRun hdigits (by rintro c ⟨⟩; decide +kernel)

theorem prefixedHex?_eq_some_iff {cs shown rest : Text} :
    prefixedHex? cs = some (shown, ')' :: rest) ↔ cs = shown ++ ')' :: rest ∧
      ∃ x digits, (x = 'x' ∨ x = 'X') ∧ IsRun isHexDigit digits ∧ shown = '0' :: x :: digits := by
  constructor
  · intro h
    simp only [prefixedHex?, Option.bind_eq_bind, Option.bind_eq_some_iff,
      Option.or_eq_some_iff] at h
    obtain ⟨behind, hprefix, ⟨digits, rest'⟩, hrun, heq⟩ := h
    obtain ⟨rfl, hdigits⟩ := isRun_of_run? hrun
    cases heq
    rcases hprefix with hlower | ⟨-, hupper⟩
    · obtain rfl := after?_eq_some.mp hlower
      exact ⟨rfl, 'x', digits, .inl rfl, hdigits, rfl⟩
    · obtain rfl := after?_eq_some.mp hupper
      exact ⟨rfl, 'X', digits, .inr rfl, hdigits, rfl⟩
  · rintro ⟨rfl, x, digits, hx, hdigits, rfl⟩
    have hrun : run? isHexDigit (digits ++ ')' :: rest) = some (digits, ')' :: rest) :=
      run?_of_isRun hdigits (by rintro c ⟨⟩; decide)
    rcases hx with rfl | rfl
    · change (run? isHexDigit (digits ++ ')' :: rest)).bind _ = _
      rw [hrun]
      rfl
    · change (run? isHexDigit (digits ++ ')' :: rest)).bind _ = _
      rw [hrun]
      rfl

/-- Decimal digits in parentheses are no hexadecimal numeral. -/
theorem prefixedHex?_of_digits {digits : Text} (h : IsRun isDecimalDigit digits) (rest : Text) :
    prefixedHex? (digits ++ ')' :: rest) = none := by
  have hnone : ∀ x, isDecimalDigit x = false → x ≠ ')' →
      after? ['0', x] (digits ++ ')' :: rest) = none := by
    intro x hx hclose
    rw [Option.eq_none_iff_forall_ne_some]
    intro behind hbehind
    rw [after?_eq_some] at hbehind
    rcases digits with - | ⟨c, - | ⟨d, digits⟩⟩
    · exact h.ne_nil rfl
    · cases hbehind
      exact hclose rfl
    · cases hbehind
      rw [h.all x (by simp)] at hx
      cases hx
  have hlower := hnone 'x' (by decide +kernel) (by decide)
  have hupper := hnone 'X' (by decide +kernel) (by decide)
  change ((after? ['0', 'x'] _).or (after? ['0', 'X'] _)).bind _ = none
  rw [hlower, hupper]
  rfl

theorem numeral?_eq_some_iff {cs shown rest : Text} :
    numeral? cs = some (shown, ')' :: rest) ↔
      cs = shown ++ ')' :: rest ∧ IsAddressNumeral shown := by
  rw [numeral?, Option.or_eq_some_iff, prefixedHex?_eq_some_iff, digits?_eq_some_iff]
  constructor
  · rintro (⟨hcs, x, digits, hx, hdigits, rfl⟩ | ⟨-, hcs, hdigits⟩)
    · exact ⟨hcs, .hexadecimal hx hdigits⟩
    · exact ⟨hcs, .decimal hdigits⟩
  · rintro ⟨hcs, hx, hdigits⟩
    · exact .inl ⟨hcs, _, _, hx, hdigits, rfl⟩
    · next hdigits => exact .inr ⟨hcs ▸ prefixedHex?_of_digits hdigits rest, hcs, hdigits⟩

/-- The recogniser of a label reads what the label captures. -/
theorem Label.value?_eq_some_iff (label : Label) {cs text rest : Text} :
    label.value? cs = some (text, ')' :: rest) ↔
      ∃ shown, cs = shown ++ ')' :: rest ∧ label.Captures shown text := by
  cases label with
  | name => simp [value?, Captures, quoted?_eq_some_iff]
  | origin =>
    simp only [value?, Captures, reference?_eq_some_iff]
    constructor
    · rintro ⟨offset, gap, rfl, h⟩
      exact ⟨_, by simp, offset, gap, rfl, h⟩
    · rintro ⟨shown, rfl, offset, gap, rfl, h⟩
      exact ⟨offset, gap, by simp, h⟩
  | lowPc | highPc => simp [value?, Captures, numeral?_eq_some_iff]
  | declFile | callFile => simp [value?, Captures, quotedNonempty?_eq_some_iff]
  | declLine | callLine => simp [value?, Captures, digits?_eq_some_iff]

/-! ## Attributes -/

section

variable (label : Label)

/-- The attribute that starts a text. -/
def attributeAt? (cs : Text) : Option Text := do
  let rest ← after? label.text cs
  let rest ← afterBlanks? rest
  let rest ← after? "(".toList rest
  let (value, rest) ← label.value? rest
  let _ ← after? ")".toList rest
  some value

/-- The texts that start with an attribute of a label, by what it shows. -/
inductive Label.Starts (text : Text) : Text → Prop
  | intro {gap shown : Text} (rest : Text) (hgap : IsRun isBlank gap)
      (h : label.Captures shown text) :
      Starts text (label.text ++ (gap ++ '(' :: (shown ++ ')' :: rest)))

/-- The first attribute of a label in a line shows a text. -/
def Label.ShowsFirst (line text : Text) : Prop :=
  ∃ back, back <:+ line ∧ label.Starts text back ∧
    ∀ rest, rest <:+ line → back.length < rest.length → ∀ other, ¬ label.Starts other rest

theorem attributeAt?_eq_some_iff {cs text : Text} :
    attributeAt? label cs = some text ↔ label.Starts text cs := by
  simp only [attributeAt?, Option.bind_eq_bind, Option.bind_eq_some_iff]
  constructor
  · rintro ⟨r₁, hlabel, r₂, hblanks, r₃, hopen, ⟨found, r₄⟩, hvalue, rest, hclose, heq⟩
    cases heq
    obtain rfl := after?_eq_some.mp hlabel
    obtain ⟨gap, rfl, hgap⟩ := isRun_of_afterBlanks? hblanks
    obtain rfl := after?_eq_some.mp hopen
    obtain rfl := after?_eq_some.mp hclose
    obtain ⟨shown, rfl, hcaptures⟩ := label.value?_eq_some_iff.mp hvalue
    exact .intro rest hgap hcaptures
  · rintro ⟨rest, hgap, hcaptures⟩
    exact ⟨_, after?_eq_some.mpr rfl, _, afterBlanks?_of_isRun hgap (by rintro c ⟨⟩; decide), _,
      after?_eq_some.mpr rfl, (text, _), label.value?_eq_some_iff.mpr ⟨_, rfl, hcaptures⟩, rest,
      after?_eq_some.mpr rfl, rfl⟩

/-- What is found for a label in a line is what its first attribute there shows. -/
theorem attribute?_eq_some_iff {line text : Text} :
    attribute? label.text label.value? line = some text ↔ label.ShowsFirst line text := by
  have hnone : ∀ {cs}, attributeAt? label cs = none ↔
      ∀ other, ¬ label.Starts other cs := by
    intro cs
    rw [Option.eq_none_iff_forall_ne_some]
    exact forall_congr' fun other => not_congr (attributeAt?_eq_some_iff label)
  have hmatch := @firstMatch_eq_some_iff _ (attributeAt? label) line text
  simp only [attributeAt?_eq_some_iff, hnone] at hmatch
  exact hmatch

end

/-! ## Readers of lines -/

namespace Label

variable (label : Label)

/-- The first attribute of a label in a line shows an address of 64 bits. -/
def ShowsAddress (line : Text) (n : Nat) : Prop :=
  ∃ text, label.ShowsFirst line text ∧ n < limit ∧ IsAttributeNumber n (trim text)

def ShowsNumber (line : Text) (n : Nat) : Prop :=
  ∃ text, label.ShowsFirst line text ∧ n < limit ∧ IsSigned 10 n text

theorem address?_eq_some_iff {line : Text} {n : Nat} :
    (attribute? label.text label.value? line).bind attributeNumber? = some n ↔
      label.ShowsAddress line n := by
  simp only [Option.bind_eq_some_iff, attribute?_eq_some_iff, attributeNumber?_eq_some_iff,
    ShowsAddress]

theorem number?_eq_some_iff {line : Text} {n : Nat} :
    (attribute? label.text label.value? line).bind (Number.read? 10) = some n ↔
      label.ShowsNumber line n := by
  simp only [Option.bind_eq_some_iff, attribute?_eq_some_iff, read?_eq_some_iff, ShowsNumber]

end Label

/-- What the readers of lines find in a line. -/
structure ReadsFirst (line : Text) : Prop where
  declaredName : ∀ name, declaredName? line = some name ↔
    Label.name.ShowsFirst line name ∧ name ≠ []
  name : ∀ name, name? line = some name ↔ Label.name.ShowsFirst line name ∧ name ≠ [] ∨
    (∀ other, Label.name.ShowsFirst line other → other = []) ∧ Label.origin.ShowsFirst line name
  lowPc : ∀ n, lowPc? line = some n ↔ Label.lowPc.ShowsAddress line n
  highPc : ∀ n, highPc? line = some n ↔ Label.highPc.ShowsAddress line n
  declFile : ∀ file, declFile? line = some file ↔ Label.declFile.ShowsFirst line file
  declLine : ∀ n, declLine? line = some n ↔ Label.declLine.ShowsNumber line n
  callFile : ∀ file, callFile? line = some file ↔ Label.callFile.ShowsFirst line file
  callLine : ∀ n, callLine? line = some n ↔ Label.callLine.ShowsNumber line n

theorem declaredName?_eq_some_iff_showsFirst {line name : Text} :
    declaredName? line = some name ↔ Label.name.ShowsFirst line name ∧ name ≠ [] := by
  rw [← attribute?_eq_some_iff, ← List.isEmpty_eq_false_iff, ← Bool.not_eq_true']
  exact Option.filter_eq_some_iff

theorem declaredName?_eq_none_iff {line : Text} :
    declaredName? line = none ↔ ∀ name, Label.name.ShowsFirst line name → name = [] := by
  simp only [Option.eq_none_iff_forall_ne_some, ne_eq, declaredName?_eq_some_iff_showsFirst,
    not_and, not_not]

/-- Each reader of lines answers with what the first attribute of its label shows. -/
theorem readsFirst (line : Text) : ReadsFirst line where
  declaredName _ := declaredName?_eq_some_iff_showsFirst
  name _ := by
    rw [name?, Option.or_eq_some_iff, declaredName?_eq_some_iff_showsFirst,
      declaredName?_eq_none_iff]
    exact or_congr_right (and_congr_right fun _ => attribute?_eq_some_iff .origin)
  lowPc _ := Label.lowPc.address?_eq_some_iff
  highPc _ := Label.highPc.address?_eq_some_iff
  declFile _ := attribute?_eq_some_iff .declFile
  declLine _ := Label.declLine.number?_eq_some_iff
  callFile _ := attribute?_eq_some_iff .callFile
  callLine _ := Label.callLine.number?_eq_some_iff

end BinarySize.Dump
