import BinarySize.Proofs.Identifier.Escapes

/-!
# Undoing escapes

Escapes may come in any number and at any place, and what they spell may be no UTF-8. Proved here:

* `unescape_undoes_escaping`: escapes spell what they were written for, and a text stays as it is
  exactly if there is no escape in it;
* `unescape_append_cons`: what escapes leave incomplete or out of place does no harm beyond the next
  plain character.
-/

namespace BinarySize.Identifier

open Text

/-! ## Where escapes start -/

/-- Octets that start with an escape. -/
inductive StartsEscape : Octets → Prop
  | intro {high low : UInt8} {h l : Nat} (hhigh : hexOctet? high = some h)
      (hlow : hexOctet? low = some l) (rest : Octets) : StartsEscape (0x5C :: high :: low :: rest)

theorem unescapeOctets_cons_of_not_startsEscape {octet : UInt8} {rest : Octets}
    (h : ¬ StartsEscape (octet :: rest)) :
    unescapeOctets (octet :: rest) = octet :: unescapeOctets rest := by
  rw [unescapeOctets.eq_def]
  split
  · next heq => cases heq
  · next high low behind heq =>
    cases heq
    split
    · next hhigh hlow => exact absurd (.intro hhigh hlow behind) h
    · rfl
  · next heq =>
    cases heq
    rfl

section
variable {back : Octets} (hback : ∀ octet, back.head? = some octet → hexOctet? octet = none)
include hback

theorem not_startsEscape_append {octet : UInt8} {front : Octets}
    (h : ¬ StartsEscape (octet :: front)) : ¬ StartsEscape (octet :: (front ++ back)) := by
  intro hstarts
  match front with
  | [] =>
    cases hstarts with
    | intro hhigh hlow rest =>
      rw [hback _ rfl] at hhigh
      cases hhigh
  | [high] =>
    cases hstarts with
    | intro hhigh hlow rest =>
      rw [hback _ rfl] at hlow
      cases hlow
  | high :: low :: front =>
    cases hstarts with
    | intro hhigh hlow rest => exact h (.intro hhigh hlow front)

/-- No escape reaches across a place behind which there is no hexadecimal digit. -/
theorem unescapeOctets_append_of_head (front : Octets) :
    unescapeOctets (front ++ back) = unescapeOctets front ++ unescapeOctets back := by
  match front with
  | [] => rfl
  | octet :: front =>
    by_cases h : StartsEscape (octet :: front)
    · cases h with
      | intro hhigh hlow front =>
        have hrest := unescapeOctets_append_of_head front
        simp only [List.cons_append, unescapeOctets, hhigh, hlow, hrest]
    · rw [List.cons_append, unescapeOctets_cons_of_not_startsEscape h,
        unescapeOctets_cons_of_not_startsEscape (not_startsEscape_append hback h),
        unescapeOctets_append_of_head front, List.cons_append]
termination_by front.length

end

/-! ## Escapes of a text -/

theorem toNat_of_hexOctet? {octet : UInt8} {d : Nat} (h : hexOctet? octet = some d) :
    octet.toNat < 0x80 := by
  have hdigit : Number.isHexDigit (Char.ofNat octet.toNat) = true := by
    rw [Number.isHexDigit, ← hexOctet?, h, Option.isSome_some]
  have hrange := Number.toNat_of_isHexDigit hdigit
  have hvalid : octet.toNat.isValidChar := by
    have hoctet := octet.toNat_lt
    exact .inl (by omega)
  have hback : (Char.ofNat octet.toNat).toNat = octet.toNat := by
    rw [Char.ofNat, dif_pos hvalid]
    rfl
  omega

/-- A hexadecimal digit among the octets of a text is a character of the text. -/
theorem exists_of_toOctets_eq_cons {s : Text} {octet : UInt8} {octets : Octets} {d : Nat}
    (hs : toOctets s = octet :: octets) (hd : hexOctet? octet = some d) :
    ∃ c rest, s = c :: rest ∧ Number.hexDigit? c = some d ∧ toOctets rest = octets := by
  have hascii := toNat_of_hexOctet? hd
  cases s with
  | nil => cases hs
  | cons c rest =>
    obtain ⟨first, tail, hc, -⟩ := Octets.exists_encodeChar_eq_cons c
    have hfirst : first = octet := by
      rw [toOctets, List.flatMap_cons, hc] at hs
      exact (List.cons.inj hs).1
    have hmem : octet ∈ String.utf8EncodeChar c := by
      rw [hc, hfirst]
      exact List.mem_cons_self
    have heq : octet.toNat = c.toNat := by
      rcases Octets.ascii_or_of_mem_encodeChar hmem with heq | hlarge
      · exact heq
      · omega
    rw [toOctets, List.flatMap_cons, Octets.encodeChar_of_ascii (heq ▸ hascii)] at hs
    refine ⟨c, rest, rfl, ?_, (List.cons.inj hs).2⟩
    rw [← hd, hexOctet?, heq, Char.ofNat_toNat]

theorem unescapeOctets_toOctets_append (front : Text) {back : Text}
    (hback : ∀ c, back.head? = some c → Number.isHexDigit c = false) :
    unescapeOctets (toOctets (front ++ back)) =
      unescapeOctets (toOctets front) ++ unescapeOctets (toOctets back) := by
  have hoctets : ∀ octet, (toOctets back).head? = some octet → hexOctet? octet = none := by
    intro octet hoctet
    obtain ⟨octets, hcons⟩ := List.head?_eq_some_iff.mp hoctet
    rw [Option.eq_none_iff_forall_ne_some]
    intro d hd
    obtain ⟨c, rest, rfl, hc, -⟩ := exists_of_toOctets_eq_cons hcons hd
    have hnot := hback c rfl
    rw [Number.isHexDigit, hc] at hnot
    cases hnot
  rw [toOctets, List.flatMap_append]
  exact unescapeOctets_append_of_head hoctets (toOctets front)

/-- **Damage stays local.** A character that is neither a backslash nor a hexadecimal digit is read
as itself, and what stands on either side of it as if it stood alone, whatever octets its escapes
leave incomplete or out of place. -/
theorem unescape_append_cons (a b : Text) {c : Char} (hbackslash : c ≠ '\\')
    (hdigit : Number.isHexDigit c = false) :
    unescape (a ++ c :: b) = unescape a ++ c :: unescape b := by
  have hplain : unescapeOctets (toOctets (c :: b)) =
      String.utf8EncodeChar c ++ unescapeOctets (toOctets b) := by
    rw [toOctets, List.flatMap_cons,
      unescapeOctets_append (backslash_not_mem_encodeChar hbackslash)]
    rfl
  have hhead : ∀ d, (c :: b).head? = some d → Number.isHexDigit d = false := by
    rintro d ⟨⟩
    exact hdigit
  rw [unescape, unescapeOctets_toOctets_append a hhead, hplain, Octets.decode_append_encodeChar,
    unescape, unescape]

/-- The escapes of two octets that begin a character, a backslash that starts no escape, a dash, and
the escape of an octet that could end the character. -/
theorem unescape_append_cons_dash :
    '-' ≠ '\\' ∧ Number.isHexDigit '-' = false ∧
      unescape ("\\e2\\82\\".toList ++ '-' :: "\\ac".toList) =
        [replacement, '\\', '-', replacement] := by
  refine ⟨by decide, by decide, ?_⟩
  rw [unescape_append_cons "\\e2\\82\\".toList "\\ac".toList (by decide) (by decide)]
  decide +kernel

/-! ## Texts with and without escapes -/

/-- A backslash with two hexadecimal digits behind it stands somewhere in a text. -/
def HasEscape (s : Text) : Prop :=
  ∃ front high low behind, s = front ++ '\\' :: high :: low :: behind ∧
    Number.isHexDigit high = true ∧ Number.isHexDigit low = true

theorem HasEscape.cons {s : Text} (h : HasEscape s) (c : Char) : HasEscape (c :: s) := by
  obtain ⟨front, high, low, behind, rfl, hdigits⟩ := h
  exact ⟨c :: front, high, low, behind, rfl, hdigits⟩

theorem hasEscape_of_startsEscape {s : Text} (h : StartsEscape (0x5C :: toOctets s)) :
    HasEscape ('\\' :: s) := by
  generalize hs : toOctets s = octets at h
  cases h with
  | intro hhigh hlow rest =>
    obtain ⟨high, s, rfl, hhigh, hs⟩ := exists_of_toOctets_eq_cons hs hhigh
    obtain ⟨low, s, rfl, hlow, -⟩ := exists_of_toOctets_eq_cons hs hlow
    exact ⟨[], high, low, s, rfl, Option.isSome_of_eq_some hhigh, Option.isSome_of_eq_some hlow⟩

/-- A text without an escape spells itself. -/
theorem unescape_of_not_hasEscape {s : Text} (h : ¬ HasEscape s) : unescape s = s := by
  have hoctets : unescapeOctets (toOctets s) = toOctets s := by
    induction s with
    | nil => rfl
    | cons c s ih =>
      have hs := ih fun hs => h (hs.cons c)
      rw [toOctets, List.flatMap_cons]
      by_cases hc : c = '\\'
      · subst hc
        have hstays := unescapeOctets_cons_of_not_startsEscape (mt hasEscape_of_startsEscape h)
        rw [hs] at hstays
        exact hstays
      · rw [unescapeOctets_append (backslash_not_mem_encodeChar hc)]
        exact congrArg _ hs
  rw [unescape, hoctets, Octets.decode_toOctets]

/-- Of the three characters of an escape at most one is left. -/
theorem length_unescape_escape_le (front behind : Text) {high low : Char}
    (hhigh : Number.isHexDigit high = true) (hlow : Number.isHexDigit low = true) :
    (unescape (front ++ '\\' :: high :: low :: behind)).length ≤
      (unescape front).length + (1 + (unescape behind).length) := by
  obtain ⟨h, hh⟩ := Option.isSome_iff_exists.mp hhigh
  obtain ⟨l, hl⟩ := Option.isSome_iff_exists.mp hlow
  have hhead : ∀ c, ('\\' :: high :: low :: behind).head? = some c →
      Number.isHexDigit c = false := by
    rintro c ⟨⟩
    decide
  have hfront := Octets.length_decodeFrom_append_le Octets.wellFormed_idle
    (unescapeOctets (toOctets front)) (UInt8.ofNat (16 * h + l) :: unescapeOctets (toOctets behind))
  have hescape := Octets.length_decode_cons_le (UInt8.ofNat (16 * h + l))
    (unescapeOctets (toOctets behind))
  rw [unescape, unescapeOctets_toOctets_append front hhead, unescapeOctets_escape hh hl]
  exact Nat.le_trans hfront (Nat.add_le_add_left hescape _)

theorem length_unescape_le (s : Text) : (unescape s).length ≤ s.length := by
  by_cases h : HasEscape s
  · obtain ⟨front, high, low, behind, rfl, hhigh, hlow⟩ := h
    have hescape := length_unescape_escape_le front behind hhigh hlow
    have hfront := length_unescape_le front
    have hbehind := length_unescape_le behind
    simp only [List.length_append, List.length_cons]
    omega
  · exact Nat.le_of_eq (congrArg List.length (unescape_of_not_hasEscape h))
termination_by s.length

/-- **Unescaping undoes escaping.** Take any text and replace its backslashes and any other
characters of it by the escapes of their octets. The result spells the text, and behind a dollar
sign it is an identifier with the text as its plain name. Only texts in which there is no escape
stay as they are. -/
theorem unescape_undoes_escaping (s : Text) :
    (∀ e, IsEscaping (· == '\\') s e → unescape e = s ∧ plainName ('$' :: e) = s) ∧
      (unescape s = s ↔ ¬ HasEscape s) := by
  refine ⟨fun e he => ?_, ?_, unescape_of_not_hasEscape⟩
  · have hspelled := unescape_of_isEscaping he (.inl rfl)
    exact ⟨hspelled, by rw [plainName_sigil, hspelled]⟩
  · rintro heq ⟨front, high, low, behind, rfl, hhigh, hlow⟩
    -- an escape makes the text shorter
    have hescape := length_unescape_escape_le front behind hhigh hlow
    have hfront := length_unescape_le front
    have hbehind := length_unescape_le behind
    rw [heq] at hescape
    simp only [List.length_append, List.length_cons] at hescape
    omega

/-- An escaped backslash before two digits that are no escape with it, an escaped letter outside of
ASCII with digits in either case, and the same text unescaped. -/
theorem unescape_undoes_escaping_digits :
    let s := "$\\41é".toList
    let e := '$' :: ("\\5c".toList ++ '4' :: '1' :: ("\\C3\\a9".toList ++ []))
    IsEscaping (· == '\\') s e ∧ unescape e = s ∧ plainName ('$' :: e) = s ∧ unescape s ≠ s := by
  intro s e
  have hbackslash : IsEscaped (String.utf8EncodeChar '\\') "\\5c".toList :=
    .cons (by decide) (by decide) .nil
  have hletter : IsEscaped (String.utf8EncodeChar 'é') "\\C3\\a9".toList :=
    .cons (by decide) (by decide) (.cons (by decide) (by decide) .nil)
  have he : IsEscaping (· == '\\') s e :=
    .kept (by decide) <| .escaped hbackslash <| .kept (by decide) <| .kept (by decide) <|
      .escaped hletter .nil
  have hescape : HasEscape s := ⟨['$'], '4', '1', ['é'], rfl, by decide, by decide⟩
  obtain ⟨hspelled, hplain⟩ := (unescape_undoes_escaping s).1 e he
  exact ⟨he, hspelled, hplain, fun hstays => (unescape_undoes_escaping s).2.mp hstays hescape⟩

end BinarySize.Identifier
