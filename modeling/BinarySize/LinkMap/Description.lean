import BinarySize.Text.Recogniser

/-!
# Descriptions in a linker map

The last column of a map row is free text. It is a section label, or it names a symbol, either
as `file:(symbol)` or by its bare name.
-/

namespace BinarySize.LinkMap

open Text

def plainSections : List String :=
  ["TYPE", "IMPORT", "FUNCTION", "TABLE", "MEMORY", "GLOBAL", "EXPORT", "ELEM", "CODE", "DATA",
   ".rodata", ".data", ".bss"]

/-- Whether a text is `CUSTOM(…)` with a text between the parentheses that is not empty and
does not close them itself. -/
def isCustomSection (description : Text) : Bool :=
  match after? "CUSTOM(".toList description with
  | none => false
  | some rest => !(rest.takeWhile (· ≠ ')')).isEmpty && rest.dropWhile (· ≠ ')') == [')']

def isSectionLabel (description : Text) : Bool :=
  plainSections.any (·.toList == description) || isCustomSection description

def delimiter : Text := ":(".toList

/-- A text cut at the last delimiter in it: what stands before and what stands behind. -/
def cutAtLast? : Text → Option (Text × Text)
  | [] => none
  | c :: cs =>
    match cutAtLast? cs with
    | some (before, behind) => some (c :: before, behind)
    | none => (delimiter.isPrefixOf? (c :: cs)).map (([], ·))

/-- The file and the symbol of a description of the form `file:(symbol)` on one line, cut at the
last delimiter. -/
def fileAndSymbol? (description : Text) : Option (Text × Text) :=
  if description.contains '\n' then none
  else match description.reverse with
    | ')' :: reversed => cutAtLast? reversed.reverse
    | _ => none

/-- The file and the symbol of a description; a bare name is a symbol without a file. -/
def splitFileSymbol (description : Text) : Text × Text :=
  (fileAndSymbol? description).getD ([], description)

theorem cutAtLast?_eq_none_iff {cs : Text} :
    cutAtLast? cs = none ↔ occursIn delimiter cs = false := by
  induction cs with
  | nil => decide +kernel
  | cons c cs ih =>
    rw [cutAtLast?, occursIn, Bool.or_eq_false_iff, ← ih]
    cases cutAtLast? cs with
    | some parts => simp
    | none =>
      simp only [Option.map_eq_none_iff, and_true]
      rw [Bool.eq_false_iff, ne_eq, List.isPrefixOf_iff_prefix, Option.eq_none_iff_forall_ne_some]
      constructor
      · rintro h ⟨rest, hrest⟩
        exact h rest (after?_eq_some.mpr hrest.symm)
      · intro h rest hrest
        exact h ⟨rest, (after?_eq_some.mp hrest).symm⟩

/-- The cut is at the delimiter behind which no other one stands. -/
theorem cutAtLast?_append (before : Text) {behind : Text}
    (h : occursIn delimiter behind = false) :
    cutAtLast? (before ++ ':' :: '(' :: behind) = some (before, behind) := by
  induction before with
  | nil =>
    have hparen : cutAtLast? ('(' :: behind) = none := by
      rw [cutAtLast?, cutAtLast?_eq_none_iff.mpr h]
      rfl
    rw [List.nil_append, cutAtLast?, hparen]
    rfl
  | cons c before ih => rw [List.cons_append, cutAtLast?, ih]

theorem trim_of_isSectionLabel {label : Text} (h : isSectionLabel label = true) :
    trim label = label := by
  rw [isSectionLabel, Bool.or_eq_true] at h
  rcases h with hplain | hcustom
  · obtain ⟨known, hknown, heq⟩ := List.any_eq_true.mp hplain
    have hall : ∀ known ∈ plainSections, trim known.toList = known.toList := by decide +kernel
    rw [← eq_of_beq heq]
    exact hall known hknown
  · rw [isCustomSection] at hcustom
    split at hcustom
    · cases hcustom
    · next rest hrest =>
      rw [Bool.and_eq_true] at hcustom
      have hclose : rest.dropWhile (· ≠ ')') = [')'] := eq_of_beq hcustom.2
      have hcut : rest.takeWhile (· ≠ ')') ++ [')'] = rest := by
        rw [← hclose, List.takeWhile_append_dropWhile]
      rw [after?_eq_some.mp hrest, ← hcut]
      apply trim_of_ends
      · intro c hc
        cases hc
        decide
      · intro c hc
        rw [← List.append_assoc, List.getLast?_concat] at hc
        cases hc
        decide

end BinarySize.LinkMap
