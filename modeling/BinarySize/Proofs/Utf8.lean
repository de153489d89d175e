import BinarySize.Text.Utf8

/-!
# UTF-8 read back

The decoder never fails, but where it reads what was written in UTF-8 it puts nothing in place of
anything (`decode_toOctets`). It never takes octets for nothing (`decode_ne_nil`), and whatever it
has to replace, it finds the next character again (`decode_append_encodeChar`).
-/

namespace BinarySize

namespace Octets

/-! ## Octet by octet -/

theorem decodeFrom_cons (pending : Pending) (octet : UInt8) (rest : Octets) :
    decodeFrom pending (octet :: rest) =
      (step pending octet).1 ++ decodeFrom (step pending octet).2 rest := by
  cases pending with
  | idle => rfl
  | inside owed least greatest value => rfl

theorem toNat_ofNat {n : Nat} (h : n < 256) : (UInt8.ofNat n).toNat = n := by
  rw [UInt8.toNat_ofNat']
  omega

section
variable {least greatest : Nat} (value k : Nat) (rest : Octets)

theorem decodeFrom_last (h : least ≤ k % 64 + 128 ∧ k % 64 + 128 ≤ greatest) :
    decodeFrom (.inside 1 least greatest value) (UInt8.ofNat (k % 64 + 128) :: rest) =
      Char.ofNat (value * 64 + k % 64) :: decodeFrom .idle rest := by
  simp only [decodeFrom_cons, step, toNat_ofNat (show k % 64 + 128 < 256 by omega), if_pos h,
    Nat.le_refl, if_true, Nat.add_sub_cancel, List.singleton_append]

theorem decodeFrom_further (owed : Nat) (h : least ≤ k % 64 + 128 ∧ k % 64 + 128 ≤ greatest) :
    decodeFrom (.inside (owed + 2) least greatest value) (UInt8.ofNat (k % 64 + 128) :: rest) =
      decodeFrom (.inside (owed + 1) 0x80 0xBF (value * 64 + k % 64)) rest := by
  have howed : ¬ owed + 2 ≤ 1 := by omega
  simp only [decodeFrom_cons, step, toNat_ofNat (show k % 64 + 128 < 256 by omega), if_pos h,
    if_neg howed, Nat.add_sub_cancel, Nat.add_one_sub_one, List.nil_append]

theorem tail_range : 0x80 ≤ k % 64 + 128 ∧ k % 64 + 128 ≤ 0xBF := by omega

end

/-! ## First octets -/

section
variable {n : Nat}

theorem start_ascii (h : n < 0x80) : start (UInt8.ofNat n) = ([Char.ofNat n], .idle) := by
  simp only [start, toNat_ofNat (show n < 256 by omega), if_pos h]

theorem start_two (h : 0xC2 ≤ n ∧ n ≤ 0xDF) :
    start (UInt8.ofNat n) = ([], .inside 1 0x80 0xBF (n - 0xC0)) := by
  have hascii : ¬ n < 0x80 := by omega
  simp only [start, toNat_ofNat (show n < 256 by omega), if_neg hascii, if_pos h]

/-- The first of three octets. Behind `E0` and `ED` not every octet can follow. -/
theorem start_three (h : 0xE0 ≤ n ∧ n ≤ 0xEF) {second : Nat}
    (hsecond : 0x80 ≤ second ∧ second ≤ 0xBF) (hshort : n = 0xE0 → 0xA0 ≤ second)
    (hsurrogate : n = 0xED → second ≤ 0x9F) :
    ∃ least greatest, start (UInt8.ofNat n) = ([], .inside 2 least greatest (n - 0xE0)) ∧
      least ≤ second ∧ second ≤ greatest := by
  have hascii : ¬ n < 0x80 := by omega
  have htwo : ¬ (0xC2 ≤ n ∧ n ≤ 0xDF) := by omega
  simp only [start, toNat_ofNat (show n < 256 by omega), if_neg hascii, if_neg htwo]
  split
  · next heq => exact ⟨0xA0, 0xBF, by rw [heq], hshort heq, hsecond.2⟩
  · split
    · next heq => exact ⟨0x80, 0x9F, by rw [heq], hsecond.1, hsurrogate heq⟩
    · rw [if_pos (by omega)]
      exact ⟨0x80, 0xBF, rfl, hsecond⟩

/-- The first of four octets. Behind `F0` and `F4` not every octet can follow. -/
theorem start_four (h : 0xF0 ≤ n ∧ n ≤ 0xF4) {second : Nat}
    (hsecond : 0x80 ≤ second ∧ second ≤ 0xBF) (hshort : n = 0xF0 → 0x90 ≤ second)
    (hlarge : n = 0xF4 → second ≤ 0x8F) :
    ∃ least greatest, start (UInt8.ofNat n) = ([], .inside 3 least greatest (n - 0xF0)) ∧
      least ≤ second ∧ second ≤ greatest := by
  have hascii : ¬ n < 0x80 := by omega
  have htwo : ¬ (0xC2 ≤ n ∧ n ≤ 0xDF) := by omega
  have hthree : ¬ (0xE1 ≤ n ∧ n ≤ 0xEF) := by omega
  simp only [start, toNat_ofNat (show n < 256 by omega), if_neg hascii, if_neg htwo, if_neg hthree,
    if_neg (show ¬ n = 0xE0 by omega), if_neg (show ¬ n = 0xED by omega)]
  split
  · next heq => exact ⟨0x90, 0xBF, by rw [heq], hshort heq, hsecond.2⟩
  · split
    · exact ⟨0x80, 0xBF, rfl, hsecond⟩
    · have heq : n = 0xF4 := by omega
      rw [if_pos heq]
      exact ⟨0x80, 0x8F, by rw [heq], hsecond.1, hlarge heq⟩

end

/-! ## Characters -/

/-- The octets of a character are read as that character, whatever follows. -/
theorem decodeFrom_encodeChar (c : Char) (rest : Octets) :
    decodeFrom .idle (String.utf8EncodeChar c ++ rest) = c :: decodeFrom .idle rest := by
  -- No code point is a surrogate, and none is above 0x10FFFF.
  have hvalid : c.toNat < 0xD800 ∨ 0xDFFF < c.toNat ∧ c.toNat < 0x110000 := c.valid
  have hback : Char.ofNat c.toNat = c := Char.ofNat_toNat c
  have hval : c.val.toNat = c.toNat := rfl
  unfold String.utf8EncodeChar
  simp only [hval]
  generalize c.toNat = v at hvalid hback
  split
  · next hone =>
    have hstep : step .idle (UInt8.ofNat v) = ([Char.ofNat v], .idle) := start_ascii (by omega)
    rw [List.singleton_append, decodeFrom_cons, hstep, hback]
    rfl
  · split
    · next hone htwo =>
      have hstep : step .idle (UInt8.ofNat (v / 64 % 32 + 192)) = _ := start_two (by omega)
      rw [List.cons_append, List.singleton_append, decodeFrom_cons, hstep, List.nil_append,
        decodeFrom_last _ v rest (tail_range v),
        show (v / 64 % 32 + 192 - 0xC0) * 64 + v % 64 = v by omega, hback]
    · split
      · next hone htwo hthree =>
        obtain ⟨least, greatest, hstart, hsecond⟩ := start_three (n := v / 4096 % 16 + 224)
          (by omega) (tail_range (v / 64)) (by omega) (by omega)
        have hstep : step .idle (UInt8.ofNat (v / 4096 % 16 + 224)) = _ := hstart
        rw [List.cons_append, List.cons_append, List.singleton_append, decodeFrom_cons, hstep,
          List.nil_append, decodeFrom_further _ _ _ 0 hsecond,
          decodeFrom_last _ v rest (tail_range v),
          show ((v / 4096 % 16 + 224 - 0xE0) * 64 + v / 64 % 64) * 64 + v % 64 = v by omega, hback]
      · next hone htwo hthree =>
        obtain ⟨least, greatest, hstart, hsecond⟩ := start_four (n := v / 262144 % 8 + 240)
          (by omega) (tail_range (v / 4096)) (by omega) (by omega)
        have hstep : step .idle (UInt8.ofNat (v / 262144 % 8 + 240)) = _ := hstart
        rw [List.cons_append, List.cons_append, List.cons_append, List.singleton_append,
          decodeFrom_cons, hstep, List.nil_append, decodeFrom_further _ _ _ 1 hsecond,
          decodeFrom_further _ _ _ 0 (tail_range (v / 64)),
          decodeFrom_last _ v rest (tail_range v),
          show (((v / 262144 % 8 + 240 - 0xF0) * 64 + v / 4096 % 64) * 64 + v / 64 % 64) * 64
            + v % 64 = v by omega, hback]

/-- An octet of a character is the character itself, or none of the ASCII characters. -/
theorem ascii_or_of_mem_encodeChar {c : Char} {octet : UInt8}
    (h : octet ∈ String.utf8EncodeChar c) : octet.toNat = c.toNat ∨ 0x80 ≤ octet.toNat := by
  have hval : c.val.toNat = c.toNat := rfl
  unfold String.utf8EncodeChar at h
  simp only [hval] at h
  split at h
  · rw [List.mem_singleton.mp h]
    exact .inl (toNat_ofNat (by omega))
  · have hlarge : ∀ n : Nat, 0x80 ≤ n → n < 256 → 0x80 ≤ (UInt8.ofNat n).toNat := by
      intro n hlow hhigh
      rwa [toNat_ofNat hhigh]
    right
    split at h
    · simp only [List.mem_cons, List.not_mem_nil, or_false] at h
      rcases h with rfl | rfl
      all_goals exact hlarge _ (by omega) (by omega)
    · split at h
      · simp only [List.mem_cons, List.not_mem_nil, or_false] at h
        rcases h with rfl | rfl | rfl
        all_goals exact hlarge _ (by omega) (by omega)
      · simp only [List.mem_cons, List.not_mem_nil, or_false] at h
        rcases h with rfl | rfl | rfl | rfl
        all_goals exact hlarge _ (by omega) (by omega)

theorem encodeChar_of_ascii {c : Char} (h : c.toNat < 0x80) :
    String.utf8EncodeChar c = [UInt8.ofNat c.toNat] := by
  have hval : c.val.toNat = c.toNat := rfl
  simp only [String.utf8EncodeChar, hval, if_pos (show c.toNat ≤ 127 by omega)]

/-- **Reading back.** A text is what its UTF-8 form spells. -/
theorem decode_toOctets (cs : Text) : decode (Text.toOctets cs) = cs := by
  induction cs with
  | nil => rfl
  | cons c cs ih =>
    rw [Text.toOctets, List.flatMap_cons, decode, decodeFrom_encodeChar]
    exact congrArg (c :: ·) ih

/-! ## Octets between characters -/

/-- Whether an octet can only stand inside a character. -/
def isContinuation (octet : UInt8) : Bool := 0x80 ≤ octet.toNat && octet.toNat ≤ 0xBF

theorem isContinuation_eq_false_iff {octet : UInt8} :
    isContinuation octet = false ↔ octet.toNat < 0x80 ∨ 0xBF < octet.toNat := by
  rw [isContinuation, Bool.and_eq_false_iff, decide_eq_false_iff_not, decide_eq_false_iff_not,
    Nat.not_le, Nat.not_le]

/-- An octet between characters is replaced, or it is one of its own or starts one that waits for an
octet that can only stand inside. -/
theorem start_cases (octet : UInt8) :
    start octet = ([Text.replacement], .idle) ∨
      isContinuation octet = false ∧
        (start octet = ([Char.ofNat octet.toNat], .idle) ∨
          ∃ owed least greatest value, start octet = ([], .inside owed least greatest value) ∧
            0x80 ≤ least ∧ greatest ≤ 0xBF) := by
  rw [isContinuation_eq_false_iff]
  unfold start
  dsimp only
  split
  · exact .inr ⟨by omega, .inl rfl⟩
  · repeat' split
    all_goals first
      | exact .inl rfl
      | exact .inr ⟨by omega, .inr ⟨_, _, _, _, rfl, by decide, by decide⟩⟩

/-! ## Octets are not lost -/

theorem decodeFrom_inside_ne_nil (owed least greatest value : Nat) (octets : Octets) :
    decodeFrom (.inside owed least greatest value) octets ≠ [] := by
  induction octets generalizing owed least greatest value with
  | nil => exact List.cons_ne_nil _ _
  | cons octet rest ih =>
    simp only [decodeFrom_cons, step]
    split
    · split
      · exact List.cons_ne_nil _ _
      · exact ih _ _ _ _
    · exact List.cons_ne_nil _ _

theorem decode_ne_nil {octets : Octets} (h : octets ≠ []) : decode octets ≠ [] := by
  obtain ⟨octet, rest, rfl⟩ := List.exists_cons_of_ne_nil h
  have hstep : step .idle octet = start octet := rfl
  rw [decode, decodeFrom_cons, hstep]
  rcases start_cases octet with hstart | ⟨-, hstart | ⟨owed, least, greatest, value, hstart, -⟩⟩
  · rw [hstart]
    exact List.cons_ne_nil _ _
  · rw [hstart]
    exact List.cons_ne_nil _ _
  · rw [hstart]
    exact decodeFrom_inside_ne_nil _ _ _ _ _

/-! ## Where characters begin -/

/-- A pending character waits for an octet that can only stand inside one. -/
def Pending.WellFormed : Pending → Prop
  | .idle => True
  | .inside _ least greatest _ => 0x80 ≤ least ∧ greatest ≤ 0xBF

theorem wellFormed_idle : Pending.idle.WellFormed := trivial

theorem wellFormed_start (octet : UInt8) : (start octet).2.WellFormed := by
  rcases start_cases octet with hstart | ⟨-, hstart | ⟨owed, least, greatest, value, hstart, hin⟩⟩
  · rw [hstart]
    exact wellFormed_idle
  · rw [hstart]
    exact wellFormed_idle
  · rw [hstart]
    exact hin

theorem wellFormed_step (pending : Pending) (octet : UInt8) :
    (step pending octet).2.WellFormed := by
  cases pending with
  | idle => exact wellFormed_start octet
  | inside owed least greatest value =>
    simp only [step]
    split
    · split
      · trivial
      · exact ⟨Nat.le_refl _, Nat.le_refl _⟩
    · exact wellFormed_start octet

section
variable {pending : Pending}

/-- An octet that continues nothing ends the pending character, if there is one, and is read as if
nothing stood before it. -/
theorem decodeFrom_cons_of_not_continuation (h : pending.WellFormed) {octet : UInt8}
    (hoctet : isContinuation octet = false) (rest : Octets) :
    decodeFrom pending (octet :: rest) = decodeFrom pending [] ++ decode (octet :: rest) := by
  cases pending with
  | idle => rfl
  | inside owed least greatest value =>
    have hout : ¬ (least ≤ octet.toNat ∧ octet.toNat ≤ greatest) := by
      obtain ⟨hleast, hgreatest⟩ := h
      have hrange := isContinuation_eq_false_iff.mp hoctet
      omega
    simp only [decodeFrom_cons, step, if_neg hout]
    rfl

/-- What stands before such an octet and what starts with it are read apart. -/
theorem decodeFrom_append (h : pending.WellFormed) (front : Octets) {back : Octets}
    (hback : ∀ octet, back.head? = some octet → isContinuation octet = false) :
    decodeFrom pending (front ++ back) = decodeFrom pending front ++ decode back := by
  induction front generalizing pending with
  | nil =>
    cases back with
    | nil => simp [decode, decodeFrom]
    | cons octet rest => exact decodeFrom_cons_of_not_continuation h (hback octet rfl) rest
  | cons octet front ih =>
    rw [List.cons_append, decodeFrom_cons, decodeFrom_cons, ih (wellFormed_step _ _),
      List.append_assoc]

end

/-- No character begins in the middle of one. -/
theorem exists_encodeChar_eq_cons (c : Char) :
    ∃ first tail, String.utf8EncodeChar c = first :: tail ∧ isContinuation first = false := by
  have hval : c.val.toNat = c.toNat := rfl
  have hfirst : ∀ n : Nat, n < 256 → (n < 0x80 ∨ 0xBF < n) →
      isContinuation (UInt8.ofNat n) = false := by
    intro n hn hrange
    rwa [isContinuation_eq_false_iff, toNat_ofNat hn]
  unfold String.utf8EncodeChar
  simp only [hval]
  repeat' split
  all_goals exact ⟨_, _, rfl, hfirst _ (by omega) (by omega)⟩

/-- **Characters stand for themselves.** Whatever octets stand before and behind a character, it is
read as itself, and they are read as if they stood alone. -/
theorem decode_append_encodeChar (front : Octets) (c : Char) (back : Octets) :
    decode (front ++ (String.utf8EncodeChar c ++ back)) = decode front ++ c :: decode back := by
  have hback : ∀ octet, (String.utf8EncodeChar c ++ back).head? = some octet →
      isContinuation octet = false := by
    obtain ⟨first, tail, hc, hfirst⟩ := exists_encodeChar_eq_cons c
    rw [hc]
    rintro octet ⟨⟩
    exact hfirst
  rw [decode, decodeFrom_append wellFormed_idle front hback, decode, decodeFrom_encodeChar, decode,
    decode]

/-! ## How many characters octets spell -/

theorem start_of_continuation {octet : UInt8} (h : isContinuation octet = true) :
    start octet = ([Text.replacement], .idle) := by
  rcases start_cases octet with hstart | ⟨hnot, -⟩
  · exact hstart
  · rw [h] at hnot
    cases hnot

/-- A character that waits for its end comes to one at the most. -/
theorem length_decodeFrom_inside_le {owed least greatest value : Nat}
    (h : (Pending.inside owed least greatest value).WellFormed) (octets : Octets) :
    (decodeFrom (.inside owed least greatest value) octets).length ≤
      1 + (decode octets).length := by
  induction octets generalizing owed least greatest value with
  | nil => exact Nat.le_refl _
  | cons octet rest ih =>
    by_cases hin : least ≤ octet.toNat ∧ octet.toNat ≤ greatest
    · have hoctet : isContinuation octet = true := by
        obtain ⟨hleast, hgreatest⟩ := h
        rw [isContinuation, Bool.and_eq_true, decide_eq_true_eq, decide_eq_true_eq]
        omega
      -- Between characters this octet would be one of its own.
      have hidle : decode (octet :: rest) = Text.replacement :: decode rest := by
        have hstep : step .idle octet = _ := start_of_continuation hoctet
        rw [decode, decodeFrom_cons, hstep]
        rfl
      have hnext := wellFormed_step (.inside owed least greatest value) octet
      simp only [decodeFrom_cons, step, if_pos hin, hidle, List.length_cons] at hnext ⊢
      split
      · simp [decode]
      · next howed =>
        rw [if_neg howed] at hnext
        have hrest := ih hnext
        simp only [List.nil_append]
        omega
    · simp only [decode, decodeFrom_cons, step, if_neg hin, List.cons_append, List.length_cons]
      omega

theorem length_decodeFrom_append_le {pending : Pending} (h : pending.WellFormed)
    (front back : Octets) :
    (decodeFrom pending (front ++ back)).length ≤
      (decodeFrom pending front).length + (decode back).length := by
  induction front generalizing pending with
  | nil =>
    cases pending with
    | idle => simp [decode, decodeFrom]
    | inside owed least greatest value => exact length_decodeFrom_inside_le h back
  | cons octet front ih =>
    have hrest := ih (wellFormed_step pending octet)
    simp only [List.cons_append, decodeFrom_cons, List.length_append]
    omega

/-- An octet adds no more than one character to those behind it. -/
theorem length_decode_cons_le (octet : UInt8) (rest : Octets) :
    (decode (octet :: rest)).length ≤ 1 + (decode rest).length := by
  have hone : (decode [octet]).length ≤ 1 := by
    have hstep : step .idle octet = start octet := rfl
    rw [decode, decodeFrom_cons, hstep]
    rcases start_cases octet with hstart | ⟨-, hstart | ⟨owed, least, greatest, value, hstart, -⟩⟩
    all_goals
      rw [hstart]
      exact Nat.le_refl 1
  have hapart := length_decodeFrom_append_le wellFormed_idle [octet] rest
  rw [List.singleton_append] at hapart
  exact Nat.le_trans hapart (Nat.add_le_add_right hone _)

end Octets

end BinarySize
