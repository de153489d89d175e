import BinarySize.Proofs.Identifier.Escapes
import BinarySize.Proofs.ModuleText.Definitions

/-!
# Looking functions up in a module text

A function that the debug information names and that the module text defines under that name,
however the identifier is escaped there, is found: by itself, or by a function above it whose name
overlaps with its own (`find?_defined`).
-/

namespace BinarySize.ModuleFunction

open Text Identifier

/-! ## Names -/

/-- One name stands inside the other. -/
def Overlaps (a b : Text) : Prop := a <:+: b ∨ b <:+: a

theorem namesMatch_iff {a b : Text} (ha : a ≠ []) (hb : b ≠ []) :
    namesMatch a b = true ↔ Overlaps a b := by
  simp only [namesMatch, List.isEmpty_eq_false_iff.mpr ha, List.isEmpty_eq_false_iff.mpr hb,
    Bool.not_false, Bool.true_and, Bool.or_eq_true, occursIn_iff, Overlaps, or_comm]

theorem name_ne_nil {limit : Nat} {text : Text} {f : ModuleFunction}
    (hf : f ∈ ModuleSummary.functionsOf limit text) : f.name ≠ [] := by
  obtain ⟨line, -, hdefined, hname⟩ := exists_of_mem_functionsOf hf
  obtain ⟨name, hidentifier, hisName, -⟩ := definedBy?_eq_some_iff.mp hdefined
  rw [hname, hidentifier, plainName_sigil]
  exact unescape_ne_nil hisName.ne_nil

theorem find?_eq {name : Text} (h : plainName (trim name) ≠ []) (functions : List ModuleFunction) :
    find? name functions =
      functions.find? fun f => namesMatch (plainName (trim name)) f.name := by
  unfold find?
  split
  · next hnil => exact absurd hnil h
  · rfl

/-- A debug name whose plain form is something finds the first function whose name overlaps with
that. -/
theorem find?_eq_some_iff {limit : Nat} {text name : Text} (hname : plainName (trim name) ≠ [])
    {found : ModuleFunction} :
    find? name (ModuleSummary.functionsOf limit text) = some found ↔
      Overlaps (plainName (trim name)) found.name ∧ ∃ above below,
        ModuleSummary.functionsOf limit text = above ++ found :: below ∧
        ∀ f ∈ above, ¬ Overlaps (plainName (trim name)) f.name := by
  have hmatch : ∀ f ∈ ModuleSummary.functionsOf limit text,
      namesMatch (plainName (trim name)) f.name = true ↔
        Overlaps (plainName (trim name)) f.name := fun f hf =>
    namesMatch_iff hname (name_ne_nil hf)
  rw [find?_eq hname, List.find?_eq_some_iff_append]
  constructor
  · rintro ⟨hfound, above, below, heq, habove⟩
    rw [heq] at hmatch
    refine ⟨(hmatch found (by simp)).mp hfound, above, below, heq, fun f hf hoverlaps => ?_⟩
    have hnot := habove f hf
    rw [(hmatch f (by simp [hf])).mpr hoverlaps] at hnot
    cases hnot
  · rintro ⟨hoverlaps, above, below, heq, habove⟩
    rw [heq] at hmatch
    refine ⟨(hmatch found (by simp)).mpr hoverlaps, above, below, heq, fun f hf => ?_⟩
    rw [Bool.not_eq_true', ← Bool.not_eq_true, hmatch f (by simp [hf])]
    exact habove f hf

/-! ## Functions under their own names -/

theorem infix_plainName_trim {s : Text} (h : '\\' ∉ s) : plainName (trim s) <:+: s := by
  have hfree : '\\' ∉ trim s := fun hmem => h ((infix_trim s).subset hmem)
  rw [plainName_of_no_backslash hfree]
  exact (dropSigil_suffix _).isInfix.trans (infix_trim s)

theorem isName_of_isEscaping {s e : Text} (hs : s ≠ []) (he : IsEscaping endsIdentifier s e) :
    IsName e := by
  refine ⟨he.ne_nil hs, fun c hc => ?_⟩
  rcases he.mem hc with hkept | rfl | hdigit
  · exact hkept
  · decide
  · have hblank : isBlank c = false := Number.isBlank_of_isHexDigit hdigit
    have hne : c ≠ ')' := by
      rintro rfl
      exact absurd hdigit (by decide)
    rw [endsIdentifier, hblank, beq_false_of_ne hne, Bool.false_or]

/-- **Functions are found under their names.** Take a name without a backslash that is neither blank
nor just a dollar sign, and a module text in which a line defines a function under that name,
written with any escapes. Then a function is found for the name: the first one of those whose names
overlap with the plain form of the name, and none behind the function of that line. -/
theorem find?_defined {s e line text : Text} {above below : List Text} (limit : Nat)
    (hbackslash : '\\' ∉ s) (hblank : trim s ≠ []) (hsigil : trim s ≠ ['$'])
    (he : IsEscaping endsIdentifier s e) (hline : IsDefinition e line)
    (hlines : lines text = above ++ line :: below) :
    let functions := ModuleSummary.functionsOf limit text
    let target := plainName (trim s)
    let place := above.countP defines
    ∃ found before behind own, find? s functions = some found ∧
      functions = before ++ found :: behind ∧ Overlaps target found.name ∧
      (∀ f ∈ before, ¬ Overlaps target f.name) ∧ before.length ≤ place ∧
      functions[place]? = some own ∧ own.identifier = '$' :: e ∧
      own.snippet.head? = some line := by
  intro functions target place
  have hs : s ≠ [] := by
    rintro rfl
    exact hblank rfl
  have htarget : target ≠ [] := by
    have hfree : '\\' ∉ trim s := fun hmem => hbackslash ((infix_trim s).subset hmem)
    have hplain : target = dropSigil (trim s) := plainName_of_no_backslash hfree
    rw [hplain]
    exact dropSigil_ne_nil hblank hsigil
  have hdefined : defined? line = some (define ('$' :: e) line) := by
    have hidentifier := definedBy?_eq_some_iff.mpr ⟨e, rfl, isName_of_isEscaping hs he, hline⟩
    rw [defined?, hidentifier, Option.map_some]
  obtain ⟨own, hown, hhead⟩ := getElem?_functionsOf limit hlines hdefined
  have hname : own.name = s := by
    have hplain : own.name = plainName ('$' :: e) := congrArg ModuleFunction.name hhead
    rw [hplain, plainName_sigil, unescape_of_isEscaping he (.inr hbackslash)]
  have hoverlaps : Overlaps target own.name := by
    rw [hname]
    exact .inl (infix_plainName_trim hbackslash)
  have hmem : own ∈ functions := List.mem_of_getElem? hown
  obtain ⟨found, hfound⟩ : ∃ found, find? s functions = some found := by
    rw [← Option.isSome_iff_exists, find?_eq htarget, List.find?_isSome]
    exact ⟨own, hmem, (namesMatch_iff htarget (name_ne_nil hmem)).mpr hoverlaps⟩
  obtain ⟨hfirst, before, behind, heq, hbefore⟩ := (find?_eq_some_iff htarget).mp hfound
  -- The function of the line overlaps itself, so it cannot stand above the first that does.
  have hplace : before.length ≤ place := by
    refine Nat.le_of_not_lt fun hlt => ?_
    have hearlier : before[place]? = some own := by
      rw [← hown, ← List.getElem?_append_left hlt, ← heq]
    exact hbefore own (List.mem_of_getElem? hearlier) hoverlaps
  refine ⟨found, before, behind, own, hfound, heq, hfirst, hbefore, hplace, hown,
    congrArg ModuleFunction.identifier hhead, ?_⟩
  have hsnippet : own.snippet.take 1 = [line] := congrArg ModuleFunction.snippet hhead
  have hfirstLine := congrArg List.head? hsnippet
  rwa [List.head?_take, if_neg Nat.one_ne_zero] at hfirstLine

/-- A name with a blank, a letter outside of ASCII and a closing parenthesis, and in front of its
own function one whose name stands inside the name. -/
theorem find?_defined_above :
    let s := " $f é)".toList
    let e := "\\20".toList ++ '$' :: 'f' :: ("\\20".toList ++ ("\\c3\\A9".toList ++
      ("\\29".toList ++ [])))
    let line := "\t".toList ++ ("(func".toList ++ (" ".toList ++ '$' :: (e ++ ") nop".toList)))
    let text := "(module\n(func $f)\n".toList ++ line
    let functions := ModuleSummary.functionsOf 1 text
    '\\' ∉ s ∧ trim s ≠ [] ∧ trim s ≠ ['$'] ∧ IsEscaping endsIdentifier s e ∧
      IsDefinition e line ∧ lines text = ["(module".toList, "(func $f)".toList] ++ line :: [] ∧
      ∃ found before behind own, find? s functions = some found ∧
        functions = before ++ found :: behind ∧ Overlaps (plainName (trim s)) found.name ∧
        (∀ f ∈ before, ¬ Overlaps (plainName (trim s)) f.name) ∧ before.length ≤ 1 ∧
        functions[1]? = some own ∧ own.identifier = '$' :: e ∧ own.snippet.head? = some line := by
  intro s e line text functions
  have hspace : IsEscaped (String.utf8EncodeChar ' ') "\\20".toList :=
    .cons (by decide) (by decide) .nil
  have hletter : IsEscaped (String.utf8EncodeChar 'é') "\\c3\\A9".toList :=
    .cons (by decide) (by decide) (.cons (by decide) (by decide) .nil)
  have hclose : IsEscaped (String.utf8EncodeChar ')') "\\29".toList :=
    .cons (by decide) (by decide) .nil
  have he : IsEscaping endsIdentifier s e :=
    .escaped hspace <| .kept (by decide) <| .kept (by decide) <| .escaped hspace <|
      .escaped hletter <| .escaped hclose .nil
  have hline : IsDefinition e line :=
    .intro (List.all_eq_true.mp (by decide)) (by decide) (List.all_eq_true.mp (by decide))
      (by rintro c ⟨⟩; decide)
  have hlines : lines text = ["(module".toList, "(func $f)".toList] ++ line :: [] := by
    decide +kernel
  have hplace : ["(module".toList, "(func $f)".toList].countP defines = 1 := by decide
  have hfound := find?_defined 1 (by decide) (by decide) (by decide) he hline hlines
  rw [hplace] at hfound
  exact ⟨by decide, by decide, by decide, he, hline, hlines, hfound⟩

end BinarySize.ModuleFunction
