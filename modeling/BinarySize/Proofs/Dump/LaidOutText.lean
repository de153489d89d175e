import BinarySize.Proofs.Dump.LaidOutAttributes
import BinarySize.Text.Lines

/-!
# Reading laid out lines back from a text

The lines of a layout may be written out one after the other. Reading them back cuts them at the
same places, and what may be lost of a line, a carriage return at its end, is no part of what the
layout demands; so what is read back is a layout of the same units (`IsDump.read_back`).
-/

namespace BinarySize.Dump

open Text Number

/-! ## Lines that start entries -/

namespace IsStart

variable {tag line : Text}

theorem lineFeed (h : IsStart tag line) : '\n' ∉ line := by
  obtain ⟨hindent, -, hoffset, hgap, ⟨-, hname⟩, -, hrest⟩ := h
  have hdigits := not_mem_of_isHexDigit fun c hc => .inl (hoffset c hc)
  next name =>
  have hword : '\n' ∉ name := fun hmem => absurd (hname _ hmem) (by decide)
  simp [hindent.lineFeed, hdigits.2, hgap.space.lineFeed, hword, hrest]

instance (tag line : Text) : Decidable (IsStart tag line) :=
  decidable_of_iff ('\n' ∉ line ∧ entryTag? line = some tag)
    ⟨fun h => (entryTag?_eq_some_iff h.1).mp h.2,
      fun h => ⟨h.lineFeed, (entryTag?_eq_some_iff h.lineFeed).mpr h⟩⟩

/-- Behind the tag a carriage return may stand or not. -/
theorem append_return_iff : IsStart tag (line ++ ['\r']) ↔ IsStart tag line := by
  constructor
  · generalize hlong : line ++ ['\r'] = long
    rintro ⟨hindent, hne, hoffset, hgap, ⟨hname, hword⟩, hend, hrest⟩
    next indent offset gap rest name =>
    rcases List.eq_nil_or_concat rest with rfl | ⟨rest, c, rfl⟩
    · -- the tag ends with a word character
      obtain ⟨front, d, rfl⟩ := (List.eq_nil_or_concat name).resolve_left hname
      have hcut : line ++ ['\r'] = indent ++ ("0x".toList ++ (offset ++ ':' ::
          (gap ++ ("DW_TAG_".toList ++ front)))) ++ [d] := by
        simpa using hlong
      obtain ⟨-, hlast⟩ := List.append_inj' hcut rfl
      cases hlast
      exact absurd (hword '\r' (by simp)) (by decide)
    · have hcut : line ++ ['\r'] = indent ++ ("0x".toList ++ (offset ++ ':' ::
          (gap ++ ("DW_TAG_".toList ++ name ++ rest)))) ++ [c] := by
        simpa using hlong
      rw [(List.append_inj' hcut rfl).1]
      refine .intro hindent hne hoffset hgap (.intro hname hword) ?_
        fun hmem => hrest (by simp [hmem])
      rw [atWordEnd_iff] at hend ⊢
      intro d hd
      exact hend d (by simp [hd])
  · rintro ⟨hindent, hne, hoffset, hgap, htag, hend, hrest⟩
    next indent offset gap rest =>
    have happend : indent ++ ("0x".toList ++ (offset ++ ':' :: (gap ++ (tag ++ rest)))) ++ ['\r'] =
        indent ++ ("0x".toList ++ (offset ++ ':' :: (gap ++ (tag ++ (rest ++ ['\r']))))) := by
      simp
    rw [happend]
    refine .intro hindent hne hoffset hgap htag ?_ (by simp [hrest])
    cases rest with
    | nil => decide
    | cons c rest => exact hend

theorem withoutReturn_iff : IsStart tag (withoutReturn line) ↔ IsStart tag line := by
  rcases eq_withoutReturn_or line with heq | heq
  · rw [heq]
  · rw [← append_return_iff, ← heq]

end IsStart

/-! ## Other lines -/

namespace Attribute.IsLine

variable {a : Attribute} {line : Text}

theorem lineFeed (h : a.IsLine line) (hwell : a.WellFormed) : '\n' ∉ line := by
  obtain ⟨hindent, hgap, hvalue⟩ := h
  have hlabel : '\n' ∉ a.label.text := by
    cases a.label with
    | _ => decide
  simp [hindent.lineFeed, hlabel, hgap.space.lineFeed, hvalue.lineFeed hwell]

theorem withoutReturn_eq (h : a.IsLine line) : withoutReturn line = line := by
  obtain ⟨hindent, hgap, hvalue⟩ := h
  next indent gap value =>
  have hclosed : indent ++ (a.label.text ++ (gap ++ '(' :: (value ++ [')']))) =
      indent ++ (a.label.text ++ (gap ++ '(' :: value)) ++ [')'] := by
    simp
  rw [hclosed]
  exact if_neg (by rw [List.getLast?_concat]; decide)

theorem entryTag?_eq_none (h : a.IsLine line) : entryTag? line = none := by
  obtain ⟨hindent, hgap, hvalue⟩ := h
  next indent gap value =>
  obtain ⟨behind, hlabel⟩ := (marker_prefix_text a.label).1
  rw [entryTag?, ← hlabel, dropBlanks_indent hindent (by rintro c ⟨⟩; decide)]
  rfl

end Attribute.IsLine

namespace IsExtra

variable {line : Text}

theorem entryTag?_eq_none (h : IsExtra line) : entryTag? line = none := by
  rw [Option.eq_none_iff_forall_ne_some]
  intro tag htag
  exact h.noEntry tag ((entryTag?_eq_some_iff h.lineFeed).mp htag)

instance (line : Text) : Decidable (IsExtra line) :=
  decidable_of_iff ('\n' ∉ line ∧ entryTag? line = none ∧ ¬ occursIn marker line = true) <| by
    rw [occursIn_iff]
    constructor
    · rintro ⟨hlf, hnone, hmarker⟩
      refine ⟨hlf, fun tag htag => ?_, hmarker⟩
      rw [(entryTag?_eq_some_iff hlf).mpr htag] at hnone
      cases hnone
    · exact fun h => ⟨h.lineFeed, h.entryTag?_eq_none, h.unmarked⟩

theorem withoutReturn (h : IsExtra line) : IsExtra (withoutReturn line) := by
  rcases eq_withoutReturn_or line with heq | heq
  · rwa [heq]
  · have hstart : Text.withoutReturn line <+: line := ⟨_, heq.symm⟩
    exact ⟨fun hmem => h.lineFeed (hstart.subset hmem),
      fun tag htag => h.noEntry tag (IsStart.withoutReturn_iff.mp htag),
      fun hmarked => h.unmarked (hmarked.trans hstart.isInfix)⟩

end IsExtra

/-! ## Layouts -/

theorem exists_read_back {IsListed : α → List Text → Prop} {xs : List α}
    {listed : List (List Text)} (h : List.Forall₂ IsListed xs listed)
    (hback : ∀ x ∈ xs, ∀ ls, IsListed x ls → IsListed x (lines (unlines ls))) :
    ∃ back, List.Forall₂ IsListed xs back ∧ lines (unlines listed.flatten) = back.flatten := by
  induction h with
  | nil => exact ⟨[], .nil, rfl⟩
  | @cons x ls xs listed hx hxs ih =>
    obtain ⟨back, hlisted, hread⟩ := ih fun y hy => hback y (List.mem_cons_of_mem _ hy)
    refine ⟨lines (unlines ls) :: back, .cons (hback x List.mem_cons_self ls hx) hlisted, ?_⟩
    rw [List.flatten_cons, lines_unlines_append, hread, List.flatten_cons]

theorem IsBody.read_back {attributes : List Attribute} {body : List Text}
    (h : IsBody attributes body) (hwell : ∀ a ∈ attributes, a.WellFormed) :
    IsBody attributes (lines (unlines body)) := by
  induction h with
  | nil => exact .nil
  | shown hline h ih =>
    rw [lines_unlines_cons (hline.lineFeed (hwell _ List.mem_cons_self)), hline.withoutReturn_eq]
    exact .shown hline (ih fun a ha => hwell a (List.mem_cons_of_mem _ ha))
  | extra hline h ih =>
    rw [lines_unlines_cons hline.lineFeed]
    exact .extra hline.withoutReturn (ih hwell)

namespace ListedFunction

variable {f : ListedFunction}

theorem WellFormed.attributes (h : f.WellFormed) {named : Attribute}
    (hnamed : named = .name f.name ∨ named = .origin f.name) :
    ∀ a ∈ f.attributes named, a.WellFormed := by
  obtain ⟨htexts, hnumbers⟩ := h
  simp only [ListedFunction.texts, ListedFunction.numbers, List.mem_cons, List.mem_append,
    Option.mem_toList] at htexts hnumbers
  simp only [ListedFunction.attributes, List.mem_cons, List.mem_append, List.mem_map,
    Option.mem_toList]
  rintro a (rfl | rfl | rfl | ((⟨file, hfile, rfl⟩ | ⟨line, hline, rfl⟩) | ⟨file, hfile, rfl⟩) |
    ⟨line, hline, rfl⟩)
  · rcases hnamed with rfl | rfl
    · exact htexts _ (.inl rfl)
    · exact htexts _ (.inl rfl)
  · exact hnumbers _ (.inl rfl)
  · exact hnumbers _ (.inr (.inl rfl))
  · exact htexts _ (.inr (.inl hfile))
  · exact hnumbers _ (.inr (.inr (.inl hline)))
  · exact htexts _ (.inr (.inr hfile))
  · exact hnumbers _ (.inr (.inr (.inr hline)))

theorem IsListed.read_back {ls : List Text} (h : f.IsListed ls) (hwell : f.WellFormed) :
    f.IsListed (lines (unlines ls)) := by
  obtain ⟨hstart, hnamed, hattributes, hbody⟩ := h
  rw [lines_unlines_cons hstart.lineFeed]
  refine .intro (IsStart.withoutReturn_iff.mpr hstart) hnamed hattributes (hbody.read_back ?_)
  exact fun a ha => hwell.attributes hnamed a (hattributes.mem_iff.mp ha)

end ListedFunction

namespace ListedUnit

variable {unit : ListedUnit}

theorem WellFormed.attributes (h : unit.WellFormed) :
    ∀ a ∈ unit.name.toList.map Attribute.name, a.WellFormed := by
  intro a ha
  obtain ⟨name, hname, rfl⟩ := List.mem_map.mp ha
  exact h.name name (Option.mem_toList.mp hname)

theorem IsListed.read_back {ls : List Text} (h : unit.IsListed ls) (hwell : unit.WellFormed) :
    unit.IsListed (lines (unlines ls)) := by
  obtain ⟨hstart, hbody, hfunctions⟩ := h
  obtain ⟨back, hlisted, hread⟩ :=
    exists_read_back hfunctions fun f hf ls hls => hls.read_back (hwell.functions f hf)
  rw [List.cons_append, lines_unlines_cons hstart.lineFeed, lines_unlines_append, hread]
  exact .intro (IsStart.withoutReturn_iff.mpr hstart) (hbody.read_back hwell.attributes) hlisted

end ListedUnit

/-- A dump that is written out and read back lists the same units. -/
theorem IsDump.read_back {units : List ListedUnit} {ls : List Text} (h : IsDump units ls)
    (hwell : ∀ unit ∈ units, unit.WellFormed) : IsDump units (lines (unlines ls)) := by
  obtain ⟨habove, hunits⟩ := h
  next above listed =>
  obtain ⟨back, hlisted, hread⟩ :=
    exists_read_back hunits fun unit hunit ls hls => hls.read_back (hwell unit hunit)
  rw [lines_unlines_append, hread]
  exact .intro (habove.read_back fun _ ha => nomatch ha) hlisted

end BinarySize.Dump
