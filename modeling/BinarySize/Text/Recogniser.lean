import BinarySize.Text.Blank

/-!
# Recognisers

A recogniser takes a text and, if the text starts as it demands, answers with what it found and
with the text that follows. Each of the line patterns of this library is a chain of the
recognisers below; since no two neighbours in a chain can take the same character, taking the
longest run is the only way to succeed, and there is nothing to retry.
-/

namespace BinarySize.Text

/-- What follows a fixed text. -/
def after? (literal cs : Text) : Option Text := literal.isPrefixOf? cs

theorem after?_cons (c d : Char) (literal cs : Text) :
    after? (c :: literal) (d :: cs) = if c == d then after? literal cs else none := rfl

theorem after?_eq_some {literal cs rest : Text} :
    after? literal cs = some rest ↔ cs = literal ++ rest := by
  induction literal generalizing cs with
  | nil =>
    change some cs = some rest ↔ cs = rest
    rw [Option.some.injEq]
  | cons c literal ih =>
    cases cs with
    | nil =>
      change none = some rest ↔ _
      simp
    | cons d cs =>
      rw [after?_cons]
      by_cases hcd : c = d
      · simp [hcd, ih]
      · simp [hcd, Ne.symm hcd]

/-- The longest non-empty run of characters that satisfy `p`, and what follows it. -/
def run? (p : Char → Bool) (cs : Text) : Option (Text × Text) :=
  match cs.takeWhile p with
  | [] => none
  | c :: run => some (c :: run, cs.dropWhile p)

theorem run?_eq_some {p : Char → Bool} {cs run rest : Text} :
    run? p cs = some (run, rest) ↔
      run ≠ [] ∧ run = cs.takeWhile p ∧ rest = cs.dropWhile p := by
  unfold run?
  cases h : cs.takeWhile p with
  | nil =>
    constructor
    · intro hr
      cases hr
    · rintro ⟨hne, heq, -⟩
      exact absurd heq hne
  | cons c taken =>
    simp only [Option.some.injEq, Prod.mk.injEq]
    constructor
    · rintro ⟨rfl, rfl⟩
      exact ⟨List.cons_ne_nil _ _, rfl, rfl⟩
    · rintro ⟨-, rfl, rfl⟩
      exact ⟨rfl, rfl⟩

/-- A run and what follows it make up the text, and what follows cannot carry the run on. -/
theorem run?_eq_some_iff_append {p : Char → Bool} {cs run rest : Text} :
    run? p cs = some (run, rest) ↔
      cs = run ++ rest ∧ run ≠ [] ∧ (∀ c ∈ run, p c = true) ∧
        ∀ c, rest.head? = some c → p c = false := by
  rw [run?_eq_some]
  constructor
  · rintro ⟨hne, rfl, rfl⟩
    refine ⟨List.takeWhile_append_dropWhile.symm, hne, ?_, ?_⟩
    · exact List.all_eq_true.mp List.all_takeWhile
    · intro c hc
      have hnot := List.head?_dropWhile_not p cs
      rwa [hc] at hnot
  · rintro ⟨rfl, hne, hrun, hrest⟩
    have hstop : rest.takeWhile p = [] ∧ rest.dropWhile p = rest := by
      cases rest with
      | nil => exact ⟨rfl, rfl⟩
      | cons c rest => simp [hrest c rfl]
    rw [List.takeWhile_append_of_pos hrun, List.dropWhile_append_of_pos hrun, hstop.1, hstop.2,
      List.append_nil]
    exact ⟨hne, rfl, rfl⟩

/-- What follows at least one blank, and with it all that come after. -/
def afterBlanks? (cs : Text) : Option Text :=
  (run? isBlank cs).map (·.2)

theorem afterBlanks?_eq_some_iff {cs rest : Text} :
    afterBlanks? cs = some rest ↔
      ∃ gap, cs = gap ++ rest ∧ gap ≠ [] ∧ (∀ c ∈ gap, isBlank c = true) ∧
        ∀ c, rest.head? = some c → isBlank c = false := by
  simp only [afterBlanks?, Option.map_eq_some_iff, Prod.exists, exists_eq_right,
    run?_eq_some_iff_append]

theorem afterBlanks?_append {gap : Text} (hne : gap ≠ []) (hblank : ∀ c ∈ gap, isBlank c = true)
    (cs : Text) : afterBlanks? (gap ++ cs) = some (dropBlanks cs) := by
  have htaken : (gap ++ cs).takeWhile isBlank ≠ [] := by
    rw [List.takeWhile_append_of_pos hblank]
    exact fun hnil => hne (List.append_eq_nil_iff.mp hnil).1
  have hrun : run? isBlank (gap ++ cs) =
      some ((gap ++ cs).takeWhile isBlank, (gap ++ cs).dropWhile isBlank) :=
    run?_eq_some.mpr ⟨htaken, rfl, rfl⟩
  rw [afterBlanks?, hrun, Option.map_some]
  exact congrArg some (dropBlanks_append hblank cs)

/-- The text between two double quotes, which holds none itself, and what follows. -/
def quoted? : Text → Option (Text × Text)
  | '"' :: cs => do
    let rest ← after? ['"'] (cs.dropWhile (· ≠ '"'))
    some (cs.takeWhile (· ≠ '"'), rest)
  | _ => none

def quotedNonempty? (cs : Text) : Option (Text × Text) :=
  (quoted? cs).filter fun found => !found.1.isEmpty

/-- The answer at the first position of a text where a recogniser has one. -/
def firstMatch (recognise : Text → Option α) : Text → Option α
  | [] => recognise []
  | c :: cs => (recognise (c :: cs)).or (firstMatch recognise cs)

/-- A match is what the recogniser answers at the first position where it answers. -/
theorem firstMatch_eq_some_iff {recognise : Text → Option α} {cs : Text} {a : α} :
    firstMatch recognise cs = some a ↔
      ∃ back, back <:+ cs ∧ recognise back = some a ∧
        ∀ rest, rest <:+ cs → back.length < rest.length → recognise rest = none := by
  induction cs with
  | nil =>
    constructor
    · refine fun h => ⟨[], List.suffix_rfl, h, fun rest hrest hlonger => ?_⟩
      exact absurd hrest.length_le (Nat.not_le.mpr hlonger)
    · rintro ⟨back, hback, h, -⟩
      rwa [List.suffix_nil.mp hback] at h
  | cons c cs ih =>
    rw [firstMatch, Option.or_eq_some_iff, ih]
    constructor
    · rintro (hhere | ⟨hnot, back, hback, hmatch, hnone⟩)
      · refine ⟨c :: cs, List.suffix_rfl, hhere, fun rest hrest hlonger => ?_⟩
        exact absurd hrest.length_le (Nat.not_le.mpr hlonger)
      · refine ⟨back, hback.trans (List.suffix_cons c cs), hmatch, fun rest hrest hlonger => ?_⟩
        rcases List.suffix_cons_iff.mp hrest with rfl | hrest
        · exact hnot
        · exact hnone rest hrest hlonger
    · rintro ⟨back, hback, hmatch, hnone⟩
      rcases List.suffix_cons_iff.mp hback with rfl | hback
      · exact .inl hmatch
      · refine .inr ⟨?_, back, hback, hmatch, fun rest hrest => ?_⟩
        · exact hnone _ List.suffix_rfl (Nat.lt_succ_of_le hback.length_le)
        · exact hnone rest (hrest.trans (List.suffix_cons c cs))

theorem length_dropBlanks_le (cs : Text) : (dropBlanks cs).length ≤ cs.length :=
  (List.dropWhile_suffix _).length_le

end BinarySize.Text
