import BinarySize.LinkMap.Description

/-!
# Files and symbols

A description of the form `file:(symbol)` is cut at the last delimiter in it. So the parts that are
read make up the description, and they are the parts that were written exactly if there is no
delimiter in the symbol (`splitFileSymbol_described`).
-/

namespace BinarySize.LinkMap

open Text

def described (file symbol : Text) : Text := file ++ ':' :: '(' :: (symbol ++ [')'])

theorem not_mem_described {c : Char} (hc : c ∉ [':', '(', ')']) {file symbol : Text} :
    c ∉ described file symbol ↔ c ∉ file ∧ c ∉ symbol := by
  simp only [List.mem_cons, List.not_mem_nil, or_false, not_or] at hc
  simp [described, hc]

/-- With a delimiter in the symbol there are two ways of telling the file from it. -/
theorem described_append (file front behind : Text) :
    described file (front ++ ':' :: '(' :: behind) =
      described (file ++ ':' :: '(' :: front) behind := by
  simp [described]

/-- The cut is at the delimiter behind which there is no other. -/
theorem cutAtLast?_eq_some_iff {cs before behind : Text} :
    cutAtLast? cs = some (before, behind) ↔
      cs = before ++ ':' :: '(' :: behind ∧ occursIn delimiter behind = false := by
  constructor
  · intro h
    induction cs generalizing before with
    | nil => cases h
    | cons c cs ih =>
      rw [cutAtLast?] at h
      cases hcs : cutAtLast? cs with
      | some parts =>
        rw [hcs] at h
        obtain ⟨rfl, rfl⟩ := Prod.mk.inj (Option.some.inj h)
        obtain ⟨heq, hfree⟩ := ih hcs
        exact ⟨congrArg (c :: ·) heq, hfree⟩
      | none =>
        rw [hcs] at h
        obtain ⟨rest, hrest, heq⟩ := Option.map_eq_some_iff.mp h
        obtain ⟨rfl, rfl⟩ := Prod.mk.inj heq
        have hcons : c :: cs = ':' :: '(' :: rest := after?_eq_some.mp hrest
        obtain ⟨-, rfl⟩ := List.cons.inj hcons
        have hfree := cutAtLast?_eq_none_iff.mp hcs
        rw [occursIn, Bool.or_eq_false_iff] at hfree
        exact ⟨hcons, hfree.2⟩
  · rintro ⟨rfl, hfree⟩
    exact cutAtLast?_append before hfree

/-- A file and a symbol are read exactly from their description, if it is one line and has no
delimiter in the symbol. -/
theorem fileAndSymbol?_eq_some_iff {description file symbol : Text} :
    fileAndSymbol? description = some (file, symbol) ↔
      description = described file symbol ∧ '\n' ∉ description ∧
        occursIn delimiter symbol = false := by
  constructor
  · intro h
    unfold fileAndSymbol? at h
    split at h
    · cases h
    · next hlf =>
      split at h
      · next reversed hreverse =>
        obtain ⟨hfront, hfree⟩ := cutAtLast?_eq_some_iff.mp h
        have hclosed : description = reversed.reverse ++ [')'] := by
          rw [← description.reverse_reverse, hreverse, List.reverse_cons]
        rw [hfront] at hclosed
        exact ⟨by rw [hclosed]; simp [described], by simpa using hlf, hfree⟩
      · cases h
  · rintro ⟨rfl, hlf, hfree⟩
    have hreverse : (described file symbol).reverse =
        ')' :: (file ++ ':' :: '(' :: symbol).reverse := by
      simp [described]
    have hcut := cutAtLast?_append file hfree
    rw [fileAndSymbol?, if_neg (by simpa using hlf), hreverse]
    simpa using hcut

theorem infix_splitFileSymbol (description : Text) :
    (splitFileSymbol description).1 <:+: description ∧
      (splitFileSymbol description).2 <:+: description := by
  rw [splitFileSymbol]
  cases h : fileAndSymbol? description with
  | none => exact ⟨List.nil_infix, List.infix_rfl⟩
  | some parts =>
    obtain ⟨heq, -⟩ := fileAndSymbol?_eq_some_iff.mp h
    refine ⟨⟨[], ':' :: '(' :: (parts.2 ++ [')']), heq.symm⟩, parts.1 ++ [':', '('], [')'], ?_⟩
    rw [heq, described, Option.getD_some]
    simp

/-- A file and a symbol without delimiter are read back from their description. -/
theorem splitFileSymbol_of_free {file symbol : Text} (hfile : '\n' ∉ file)
    (hsymbol : '\n' ∉ symbol) (h : occursIn delimiter symbol = false) :
    splitFileSymbol (described file symbol) = (file, symbol) := by
  have hlf := (not_mem_described (by decide)).mpr ⟨hfile, hsymbol⟩
  rw [splitFileSymbol, fileAndSymbol?_eq_some_iff.mpr ⟨rfl, hlf, h⟩, Option.getD_some]

/-- A file that is read is what stands before the delimiter. -/
theorem described_splitFileSymbol {description : Text} (h : (splitFileSymbol description).1 ≠ []) :
    described (splitFileSymbol description).1 (splitFileSymbol description).2 = description := by
  rw [splitFileSymbol] at h ⊢
  cases hread : fileAndSymbol? description with
  | none =>
    rw [hread] at h
    exact absurd rfl h
  | some parts => exact (fileAndSymbol?_eq_some_iff.mp hread).1.symm

/-- **Files and symbols.** The file and the symbol of a description on one line are told apart if
and only if there is no delimiter in the symbol. If there is, all that stands before the last one is
taken for the file. And where a file is read, file and symbol make up the description. -/
theorem splitFileSymbol_described (description : Text) {file symbol : Text} (hfile : '\n' ∉ file)
    (hsymbol : '\n' ∉ symbol) :
    (splitFileSymbol (described file symbol) = (file, symbol) ↔
      occursIn delimiter symbol = false) ∧
    (∀ front behind, symbol = front ++ ':' :: '(' :: behind → occursIn delimiter behind = false →
      splitFileSymbol (described file symbol) = (file ++ ':' :: '(' :: front, behind)) ∧
    ((splitFileSymbol description).1 ≠ [] →
      described (splitFileSymbol description).1 (splitFileSymbol description).2 = description) := by
  have hcut : ∀ front behind, symbol = front ++ ':' :: '(' :: behind →
      occursIn delimiter behind = false →
      splitFileSymbol (described file symbol) = (file ++ ':' :: '(' :: front, behind) := by
    rintro front behind rfl hfree
    simp only [List.mem_append, List.mem_cons, not_or] at hsymbol
    rw [described_append]
    exact splitFileSymbol_of_free (by simp [hfile, hsymbol.1]) hsymbol.2.2.2 hfree
  refine ⟨⟨fun hback => ?_, splitFileSymbol_of_free hfile hsymbol⟩, hcut, described_splitFileSymbol⟩
  rw [← cutAtLast?_eq_none_iff, Option.eq_none_iff_forall_ne_some]
  rintro ⟨front, behind⟩ hsome
  obtain ⟨heq, hfree⟩ := cutAtLast?_eq_some_iff.mp hsome
  -- the symbol that is read is shorter than the one that was written
  rw [hcut front behind heq hfree] at hback
  have hlength := congrArg List.length ((Prod.mk.inj hback).2.trans heq)
  simp only [List.length_append, List.length_cons] at hlength
  omega

/-- A symbol with a delimiter in it, one without, and a description of the second. -/
theorem splitFileSymbol_described_cut :
    let file := "a.o".toList
    let symbol := "ns::(anonymous namespace)::f(int)".toList
    let plain := "f(int)".toList
    '\n' ∉ file ∧ '\n' ∉ symbol ∧ '\n' ∉ plain ∧
      splitFileSymbol (described file symbol) =
        ("a.o:(ns:".toList, "anonymous namespace)::f(int)".toList) ∧
      splitFileSymbol (described file plain) = (file, plain) ∧
      described (splitFileSymbol "a.o:(f)".toList).1 (splitFileSymbol "a.o:(f)".toList).2 =
        "a.o:(f)".toList := by
  intro file symbol plain
  have hfile : '\n' ∉ file := by decide +kernel
  have hsymbol : '\n' ∉ symbol := by decide +kernel
  have hplain : '\n' ∉ plain := by decide +kernel
  have hread := splitFileSymbol_described "a.o:(f)".toList hfile hplain
  refine ⟨hfile, hsymbol, hplain, ?_, hread.1.mpr (by decide +kernel),
    hread.2.2 (by decide +kernel)⟩
  exact (splitFileSymbol_described [] hfile hsymbol).2.1 "ns:".toList _ (by decide +kernel)
    (by decide +kernel)

/-- A member of an anonymous namespace is not told from its file, and the file that is read for it
does not exist. -/
theorem splitFileSymbol_anonymous_namespace :
    let file := "a.o".toList
    let symbol := "ns::(anonymous namespace)::f(int)".toList
    occursIn delimiter file = false ∧ '\n' ∉ file ∧ '\n' ∉ symbol ∧
      splitFileSymbol (described file symbol) ≠ (file, symbol) ∧
      (splitFileSymbol (described file symbol)).1 = "a.o:(ns:".toList := by
  decide +kernel

end BinarySize.LinkMap
