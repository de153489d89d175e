import BinarySize.Identifier
import BinarySize.Proofs.Numerals
import BinarySize.Proofs.Utf8

/-!
# Escaped identifiers

An identifier may be written with escapes in place of any of its characters, and for some
characters that is the only way to write them. However it is written, undoing the escapes gives it
back (`unescape_of_isEscaping`), as long as no character of its own starts an escape.
-/

namespace BinarySize.Identifier

open Text

/-! ## Ways of writing -/

/-- Octets as escapes: for each a backslash and its two hexadecimal digits, in either case. -/
inductive IsEscaped : Octets → Text → Prop
  | nil : IsEscaped [] []
  | cons {octet : UInt8} {octets : Octets} {high low : Char} {escapes : Text}
      (hhigh : Number.hexDigit? high = some (octet.toNat / 16))
      (hlow : Number.hexDigit? low = some (octet.toNat % 16)) (h : IsEscaped octets escapes) :
      IsEscaped (octet :: octets) ('\\' :: high :: low :: escapes)

/-- The ways of writing a text in which the characters that `reserved` tells have to be escaped. Any
other character may be; then all octets of its UTF-8 form are. -/
inductive IsEscaping (reserved : Char → Bool) : Text → Text → Prop
  | nil : IsEscaping reserved [] []
  | kept {c : Char} {s e : Text} (hc : reserved c = false) (h : IsEscaping reserved s e) :
      IsEscaping reserved (c :: s) (c :: e)
  | escaped {c : Char} {s escapes e : Text} (hc : IsEscaped (String.utf8EncodeChar c) escapes)
      (h : IsEscaping reserved s e) : IsEscaping reserved (c :: s) (escapes ++ e)

/-! ## Undoing escapes -/

theorem unescapeOctets_cons_of_ne {octet : UInt8} (h : octet ≠ 0x5C) (rest : Octets) :
    unescapeOctets (octet :: rest) = octet :: unescapeOctets rest := by
  rw [unescapeOctets]
  rintro high low behind rfl
  exact absurd rfl h

/-- Octets among which there is no backslash stay. -/
theorem unescapeOctets_append {front : Octets} (h : 0x5C ∉ front) (rest : Octets) :
    unescapeOctets (front ++ rest) = front ++ unescapeOctets rest := by
  induction front with
  | nil => rfl
  | cons octet front ih =>
    simp only [List.mem_cons, not_or] at h
    rw [List.cons_append, unescapeOctets_cons_of_ne (Ne.symm h.1), ih h.2, List.cons_append]

/-- No octet of another character looks like a backslash. -/
theorem backslash_not_mem_encodeChar {c : Char} (h : c ≠ '\\') :
    0x5C ∉ String.utf8EncodeChar c := by
  intro hmem
  rcases Octets.ascii_or_of_mem_encodeChar hmem with heq | hlarge
  · exact h (Char.toNat_inj.mp heq.symm)
  · exact absurd hlarge (by decide)

theorem octet_of_hexDigit? {c : Char} {d : Nat} (h : Number.hexDigit? c = some d) :
    String.utf8EncodeChar c = [UInt8.ofNat c.toNat] ∧ hexOctet? (UInt8.ofNat c.toNat) = some d := by
  have hdigit : Number.isHexDigit c = true := by rw [Number.isHexDigit, h, Option.isSome_some]
  have hrange := Number.toNat_of_isHexDigit hdigit
  refine ⟨Octets.encodeChar_of_ascii (by omega), ?_⟩
  rw [hexOctet?, Octets.toNat_ofNat (by omega), Char.ofNat_toNat, h]

/-- An escape spells the octet whose digits it holds. -/
theorem unescapeOctets_escape {high low : Char} {h l : Nat} (hhigh : Number.hexDigit? high = some h)
    (hlow : Number.hexDigit? low = some l) (rest : Text) :
    unescapeOctets (toOctets ('\\' :: high :: low :: rest)) =
      UInt8.ofNat (16 * h + l) :: unescapeOctets (toOctets rest) := by
  obtain ⟨hhighOctet, hhigh⟩ := octet_of_hexDigit? hhigh
  obtain ⟨hlowOctet, hlow⟩ := octet_of_hexDigit? hlow
  have hcons : toOctets ('\\' :: high :: low :: rest) = 0x5C ::
      UInt8.ofNat high.toNat :: UInt8.ofNat low.toNat :: toOctets rest := by
    simp only [toOctets, List.flatMap_cons, hhighOctet, hlowOctet,
      Octets.encodeChar_of_ascii (show '\\'.toNat < 0x80 by decide)]
    rfl
  rw [hcons, unescapeOctets, hhigh, hlow]

theorem unescapeOctets_escaped {octets : Octets} {escapes : Text} (h : IsEscaped octets escapes)
    (rest : Text) :
    unescapeOctets (toOctets (escapes ++ rest)) = octets ++ unescapeOctets (toOctets rest) := by
  induction h with
  | nil => rfl
  | @cons octet octets high low escapes hhigh hlow _ ih =>
    have hoctet : 16 * (octet.toNat / 16) + octet.toNat % 16 = octet.toNat := Nat.div_add_mod _ _
    rw [List.cons_append, List.cons_append, List.cons_append, unescapeOctets_escape hhigh hlow,
      hoctet, UInt8.ofNat_toNat, ih, List.cons_append]

theorem unescapeOctets_of_isEscaping {reserved : Char → Bool} {s e : Text}
    (h : IsEscaping reserved s e) (hbackslash : reserved '\\' = true ∨ '\\' ∉ s) :
    unescapeOctets (toOctets e) = toOctets s := by
  induction h with
  | nil => rfl
  | @kept c s e hc _ ih =>
    have hne : c ≠ '\\' := by
      rintro rfl
      rcases hbackslash with hreserved | hfree
      · rw [hc] at hreserved
        cases hreserved
      · exact hfree List.mem_cons_self
    have hlater := ih (hbackslash.imp_right fun hfree hmem => hfree (List.mem_cons_of_mem _ hmem))
    rw [toOctets, List.flatMap_cons, unescapeOctets_append (backslash_not_mem_encodeChar hne)]
    exact congrArg _ hlater
  | @escaped c s escapes e hc _ ih =>
    have hlater := ih (hbackslash.imp_right fun hfree hmem => hfree (List.mem_cons_of_mem _ hmem))
    exact (unescapeOctets_escaped hc e).trans (congrArg _ hlater)

/-- However an identifier is written, it is what its escapes spell. -/
theorem unescape_of_isEscaping {reserved : Char → Bool} {s e : Text}
    (h : IsEscaping reserved s e) (hbackslash : reserved '\\' = true ∨ '\\' ∉ s) :
    unescape e = s := by
  rw [unescape, unescapeOctets_of_isEscaping h hbackslash, Octets.decode_toOctets]

/-- A text in which nothing has to be escaped may be written as it is. -/
theorem IsEscaping.refl {reserved : Char → Bool} {s : Text} (h : ∀ c ∈ s, reserved c = false) :
    IsEscaping reserved s s := by
  induction s with
  | nil => exact .nil
  | cons c s ih =>
    exact .kept (h c List.mem_cons_self) (ih fun d hd => h d (List.mem_cons_of_mem _ hd))

theorem unescape_of_no_backslash {s : Text} (h : '\\' ∉ s) : unescape s = s :=
  unescape_of_isEscaping (@IsEscaping.refl (fun _ => false) s fun _ _ => rfl) (.inr h)

/-! ## Plain names -/

theorem toOctets_ne_nil {cs : Text} (h : cs ≠ []) : toOctets cs ≠ [] := by
  intro hnil
  have hback := Octets.decode_toOctets cs
  rw [hnil] at hback
  exact h hback.symm

theorem unescapeOctets_ne_nil {octets : Octets} (h : octets ≠ []) : unescapeOctets octets ≠ [] := by
  rw [unescapeOctets.eq_def]
  split
  · exact absurd rfl h
  · split
    · exact List.cons_ne_nil _ _
    · exact List.cons_ne_nil _ _
  · exact List.cons_ne_nil _ _

theorem unescape_ne_nil {identifier : Text} (h : identifier ≠ []) : unescape identifier ≠ [] :=
  Octets.decode_ne_nil (unescapeOctets_ne_nil (toOctets_ne_nil h))

theorem plainName_sigil (name : Text) : plainName ('$' :: name) = unescape name := by
  have hsigil : '$' ≠ '\\' := by decide
  have hspelled : unescape ('$' :: name) = '$' :: unescape name := by
    rw [unescape, toOctets, List.flatMap_cons,
      unescapeOctets_append (backslash_not_mem_encodeChar hsigil), Octets.decode,
      Octets.decodeFrom_encodeChar]
    rfl
  rw [plainName, hspelled, dropSigil]

/-- The plain name of a text without a backslash is the text without a dollar sign in front. -/
theorem plainName_of_no_backslash {s : Text} (h : '\\' ∉ s) : plainName s = dropSigil s := by
  rw [plainName, unescape_of_no_backslash h]

theorem dropSigil_suffix (s : Text) : dropSigil s <:+ s := by
  unfold dropSigil
  split
  · exact List.suffix_cons _ _
  · exact List.suffix_rfl

theorem dropSigil_ne_nil {s : Text} (hne : s ≠ []) (hsigil : s ≠ ['$']) : dropSigil s ≠ [] := by
  unfold dropSigil
  split
  · next name =>
    rintro rfl
    exact hsigil rfl
  · exact hne

/-! ## What is written -/

theorem IsEscaping.ne_nil {reserved : Char → Bool} {s e : Text} (h : IsEscaping reserved s e)
    (hs : s ≠ []) : e ≠ [] := by
  cases h with
  | nil => exact absurd rfl hs
  | kept hc h => exact List.cons_ne_nil _ _
  | @escaped c s escapes e hc h =>
    refine List.append_ne_nil_of_left_ne_nil ?_ e
    rintro rfl
    have hsize : (String.utf8EncodeChar c).length = c.utf8Size := String.length_utf8EncodeChar c
    generalize String.utf8EncodeChar c = octets at hc hsize
    cases hc
    exact absurd hsize (Nat.ne_of_lt c.utf8Size_pos)

theorem IsEscaped.mem {octets : Octets} {escapes : Text} (h : IsEscaped octets escapes) {c : Char}
    (hc : c ∈ escapes) : c = '\\' ∨ Number.isHexDigit c = true := by
  induction h with
  | nil => cases hc
  | cons hhigh hlow _ ih =>
    simp only [List.mem_cons] at hc
    rcases hc with rfl | rfl | rfl | hc
    · exact .inl rfl
    · exact .inr (by rw [Number.isHexDigit, hhigh, Option.isSome_some])
    · exact .inr (by rw [Number.isHexDigit, hlow, Option.isSome_some])
    · exact ih hc

/-- All that is written is a character that may stay, or belongs to an escape. -/
theorem IsEscaping.mem {reserved : Char → Bool} {s e : Text} (h : IsEscaping reserved s e)
    {c : Char} (hc : c ∈ e) : reserved c = false ∨ c = '\\' ∨ Number.isHexDigit c = true := by
  induction h with
  | nil => cases hc
  | kept hkept _ ih =>
    rcases List.mem_cons.mp hc with rfl | hc
    · exact .inl hkept
    · exact ih hc
  | escaped hescaped _ ih =>
    rcases List.mem_append.mp hc with hc | hc
    · exact .inr (hescaped.mem hc)
    · exact ih hc

end BinarySize.Identifier
