import BinarySize.Dump.Entry
import BinarySize.LinkMap.Listing
import BinarySize.ModuleText.Summary

/-!
# Line ends

A line may end with a line feed or with a carriage return and a line feed. The readers of a dump
and of a map, and the snippets of a module text, see lines only; the openers of a module text are
found in one scan over the whole text, in which both line ends are blanks and end a word. Proved
here:

* `lines_withReturns`: a text has the same lines with either line end;
* `openers_withReturns`: and the same openers;
* `read_withReturns`: so all three inputs are read alike with either.

A carriage return that stands elsewhere is ordinary text, with both line ends.
-/

namespace BinarySize

namespace Text

/-- A text with a carriage return put before every line feed. -/
def withReturns (cs : Text) : Text :=
  cs.flatMap fun c => if c = '\n' then ['\r', '\n'] else [c]

@[simp] theorem withReturns_nil : withReturns [] = [] := rfl

theorem withReturns_lineFeed (cs : Text) :
    withReturns ('\n' :: cs) = '\r' :: '\n' :: withReturns cs := rfl

theorem withReturns_cons {c : Char} (h : c ≠ '\n') (cs : Text) :
    withReturns (c :: cs) = c :: withReturns cs := by
  rw [withReturns, List.flatMap_cons, if_neg h]
  rfl

theorem head?_withReturns_ne (cs : Text) : (withReturns cs).head? ≠ some '\n' := by
  cases cs with
  | nil => simp
  | cons c cs =>
    by_cases hc : c = '\n'
    · simp [hc, withReturns_lineFeed]
    · simpa [withReturns_cons hc] using hc

/-! ## Lines -/

/-- **Lines.** A text in which no carriage return stands before a line feed has the same lines
with a carriage return before every line feed. -/
theorem lines_withReturns {cs : Text} (h : ¬ ['\r', '\n'] <:+: cs) :
    lines (withReturns cs) = lines cs := by
  induction cs with
  | nil => rfl
  | cons c cs ih =>
    have hcs := ih fun hin => h (hin.trans (List.suffix_cons c cs).isInfix)
    by_cases hc : c = '\n'
    · rw [hc, withReturns_lineFeed, lines, lines, hcs]
    · rw [withReturns_cons hc]
      cases cs with
      | nil => rfl
      | cons d ds =>
        -- neither text starts with a line end, so `c` belongs to the first line of both
        have hplain : ¬ (c = '\r' ∧ (d :: ds).head? = some '\n') := by
          rintro ⟨rfl, hd⟩
          cases hd
          exact h (List.prefix_append ['\r', '\n'] ds).isInfix
        have hreturns : ¬ (c = '\r' ∧ (withReturns (d :: ds)).head? = some '\n') :=
          fun hcrlf => head?_withReturns_ne _ hcrlf.2
        obtain ⟨first, more, hlines⟩ :=
          List.exists_cons_of_ne_nil (lines_ne_nil (List.cons_ne_nil d ds))
        rw [lines_cons hc hlines, lines_cons hc (hcs.trans hlines), if_neg hplain,
          if_neg hreturns]

/-! ## Recognisers -/

theorem dropBlanks_withReturns (cs : Text) :
    dropBlanks (withReturns cs) = withReturns (dropBlanks cs) := by
  have hlf : isBlank '\n' = true := by decide
  have hcr : isBlank '\r' = true := by decide
  induction cs with
  | nil => rfl
  | cons c cs ih =>
    by_cases hc : c = '\n'
    · rw [hc, withReturns_lineFeed, dropBlanks_cons hcr, dropBlanks_cons hlf, ih,
        dropBlanks_cons hlf]
    · rw [withReturns_cons hc]
      cases hblank : isBlank c with
      | true => rw [dropBlanks_cons hblank, dropBlanks_cons hblank, ih]
      | false =>
        have hstop : ∀ rest : Text, dropBlanks (c :: rest) = c :: rest := fun rest =>
          dropBlanks_of_head fun d hd => Option.some.inj hd ▸ hblank
        rw [hstop, hstop, withReturns_cons hc]

theorem after?_withReturns {literal : Text} (hcr : '\r' ∉ literal) (hlf : '\n' ∉ literal)
    (cs : Text) : after? literal (withReturns cs) = (after? literal cs).map withReturns := by
  induction literal generalizing cs with
  | nil => rfl
  | cons c literal ih =>
    rw [List.mem_cons, not_or] at hcr hlf
    cases cs with
    | nil => rfl
    | cons d ds =>
      by_cases hd : d = '\n'
      · have hc : (c == '\r') = false ∧ (c == '\n') = false :=
          ⟨beq_false_of_ne (Ne.symm hcr.1), beq_false_of_ne (Ne.symm hlf.1)⟩
        rw [hd, withReturns_lineFeed, after?_cons, after?_cons, hc.1, hc.2]
        rfl
      · rw [withReturns_cons hd, after?_cons, after?_cons, ih hcr.2 hlf.2]
        split <;> rfl

theorem atWordEnd_withReturns (cs : Text) : atWordEnd (withReturns cs) = atWordEnd cs := by
  cases cs with
  | nil => rfl
  | cons c cs =>
    by_cases hc : c = '\n'
    · have hends : isWordChar '\r' = false ∧ isWordChar '\n' = false := by decide
      rw [hc, withReturns_lineFeed, atWordEnd, atWordEnd, hends.1, hends.2]
    · rw [withReturns_cons hc, atWordEnd, atWordEnd]

end Text

open Text

/-! ## Openers -/

namespace Construct

theorem keyword_no_lineEnd (construct : Construct) :
    '\r' ∉ construct.keyword.toList ∧ '\n' ∉ construct.keyword.toList := by
  cases construct <;> decide +kernel

theorem atKeyword?_withReturns (cs : Text) :
    atKeyword? (withReturns cs) =
      (atKeyword? cs).map fun found => (found.1, withReturns found.2) := by
  rw [atKeyword?, atKeyword?, List.map_findSome?]
  congr 1
  funext construct
  obtain ⟨hcr, hlf⟩ := construct.keyword_no_lineEnd
  simp only [after?_withReturns hcr hlf, Function.comp_apply]
  cases after? construct.keyword.toList cs with
  | none => rfl
  | some rest =>
    simp only [Option.map_some, atWordEnd_withReturns]
    split <;> rfl

theorem atOpener?_withReturns (cs : Text) :
    atOpener? (withReturns cs) =
      (atOpener? cs).map fun found => (found.1, withReturns found.2) := by
  cases cs with
  | nil => rfl
  | cons c cs =>
    by_cases hc : c = '\n'
    · rw [hc, withReturns_lineFeed, atOpener?_of_ne (by decide), atOpener?_of_ne (by decide),
        Option.map_none]
    · rw [withReturns_cons hc]
      by_cases hopen : c = '('
      · rw [hopen, atOpener?, atOpener?, dropBlanks_withReturns, atKeyword?_withReturns]
      · rw [atOpener?_of_ne hopen, atOpener?_of_ne hopen, Option.map_none]

/-- **Openers.** A text opens the same constructs with either line end. -/
theorem openers_withReturns (cs : Text) : openers (withReturns cs) = openers cs := by
  induction cs using openers.induct with
  | case1 => rfl
  | case2 c cs construct rest h ih =>
    have hc : c ≠ '\n' := by
      rintro rfl
      rw [atOpener?_of_ne (by decide)] at h
      cases h
    have hreturns := atOpener?_withReturns (c :: cs)
    rw [withReturns_cons hc, h, Option.map_some] at hreturns
    rw [withReturns_cons hc, openers_of_opener hreturns, openers_of_opener h, ih]
  | case3 c cs h ih =>
    by_cases hc : c = '\n'
    · -- no opener starts at a line end, so the scan passes one character or two
      have hcr : ∀ rest, openers ('\r' :: rest) = openers rest :=
        fun rest => openers_of_none (atOpener?_of_ne (by decide) rest)
      have hlf : ∀ rest, openers ('\n' :: rest) = openers rest :=
        fun rest => openers_of_none (atOpener?_of_ne (by decide) rest)
      rw [hc, withReturns_lineFeed, hcr, hlf, hlf, ih]
    · have hreturns := atOpener?_withReturns (c :: cs)
      rw [withReturns_cons hc, h, Option.map_none] at hreturns
      rw [withReturns_cons hc, openers_of_none hreturns, openers_of_none h, ih]

end Construct

/-! ## The three inputs -/

/-- **Line ends.** A text in which no carriage return stands before a line feed gives the same
functions as a dump, the same listing as a map, and the same counts, names and snippets as a
module text, for every limit of snippets, when a carriage return is put before every line feed. -/
theorem read_withReturns {cs : Text} (h : ¬ ['\r', '\n'] <:+: cs) :
    Dump.functions (withReturns cs) = Dump.functions cs ∧
      LinkMap.listing (withReturns cs) = LinkMap.listing cs ∧
      ∀ limit, ModuleSummary.ofText limit (withReturns cs) = ModuleSummary.ofText limit cs := by
  have hlines := lines_withReturns h
  refine ⟨?_, ?_, fun limit => ?_⟩
  · rw [Dump.functions, Dump.functions, hlines]
  · rw [LinkMap.listing, LinkMap.listing, hlines]
  · rw [ModuleSummary.ofText, ModuleSummary.ofText, Construct.openers_withReturns,
      ModuleSummary.functionsOf, ModuleSummary.functionsOf, hlines]

/-- A function of a dump, a symbol of a map and a function of a module text in one text, with
carriage returns inside of lines and at the end, and an opener that runs over a line end. -/
theorem read_withReturns_lone :
    let text := ("0x1: DW_TAG_subprogram\nDW_AT_name (\"f\r\")\nDW_AT_low_pc (0)\n" ++
      "DW_AT_high_pc (4)\n- 8 a CODE\n- 20 5 a\r.o:(g)\n(func $h\r)\n(\ndata\r").toList
    ¬ ['\r', '\n'] <:+: text ∧
      (Dump.functions (withReturns text)).map (·.name) = ["f\r".toList] ∧
      (LinkMap.listing (withReturns text)).symbols.map (·.file) = ["a\r.o".toList] ∧
      ModuleSummary.ofText 3 (withReturns text) = ⟨Construct.openers text,
        [⟨"$h".toList, "h".toList, ["(func $h\r)".toList, "(".toList, "data\r".toList]⟩]⟩ := by
  intro text
  have h : ¬ ['\r', '\n'] <:+: text := by
    rw [← occursIn_iff]
    decide +kernel
  obtain ⟨hdump, hmap, hmodule⟩ := read_withReturns h
  refine ⟨h, ?_, ?_, ?_⟩
  · rw [hdump]
    decide +kernel
  · rw [hmap]
    decide +kernel
  · have hfunctions : ModuleSummary.functionsOf 3 text = [⟨"$h".toList, "h".toList,
        ["(func $h\r)".toList, "(".toList, "data\r".toList]⟩] := by decide +kernel
    rw [hmodule, ModuleSummary.ofText, hfunctions]

end BinarySize
