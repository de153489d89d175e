/-!
# Text

Text is a list of characters, first to last, so that every reader in this library is a recursion
on it. This module holds what all of them share: searching, cutting at a separator, decimal
numerals and the padding of columns.
-/

namespace BinarySize

abbrev Text := List Char

namespace Text

/-- Whether `needle` stands anywhere in a text; the empty text stands everywhere. -/
def occursIn (needle : Text) : Text → Bool
  | [] => needle.isEmpty
  | c :: cs => needle.isPrefixOf (c :: cs) || occursIn needle cs

theorem occursIn_iff {needle cs : Text} : occursIn needle cs = true ↔ needle <:+: cs := by
  induction cs with
  | nil => simp [occursIn]
  | cons c cs ih =>
    rw [occursIn, Bool.or_eq_true, List.isPrefixOf_iff_prefix, ih, List.infix_cons_iff]

/-- The pieces of a text between the characters that satisfy `isCut`: one more than there are
such characters, so a text without any is its own single piece. -/
def pieces (isCut : Char → Bool) : Text → List Text
  | [] => [[]]
  | c :: cs =>
    if isCut c then [] :: pieces isCut cs
    else match pieces isCut cs with
      | [] => [[c]]
      | piece :: rest => (c :: piece) :: rest

theorem pieces_ne_nil (isCut : Char → Bool) (cs : Text) : pieces isCut cs ≠ [] := by
  cases cs with
  | nil => exact List.cons_ne_nil _ _
  | cons c cs =>
    rw [pieces]
    split
    · exact List.cons_ne_nil _ _
    · split
      · exact List.cons_ne_nil _ _
      · exact List.cons_ne_nil _ _

theorem pieces_of_no_cut {isCut : Char → Bool} {cs : Text} (h : ∀ c ∈ cs, isCut c = false) :
    pieces isCut cs = [cs] := by
  induction cs with
  | nil => rfl
  | cons c cs ih =>
    rw [pieces, h c List.mem_cons_self, ih fun d hd => h d (List.mem_cons_of_mem _ hd)]
    rfl

theorem pieces_append_cut {isCut : Char → Bool} {c : Char} (h : isCut c = true)
    (front back : Text) :
    pieces isCut (front ++ c :: back) = pieces isCut front ++ pieces isCut back := by
  induction front with
  | nil => simp [pieces, h]
  | cons d front ih =>
    rw [List.cons_append, pieces, pieces, ih]
    cases isCut d with
    | true => rfl
    | false =>
      cases hp : pieces isCut front with
      | nil => exact absurd hp (pieces_ne_nil isCut front)
      | cons piece rest => rfl

theorem not_cut_of_mem_pieces {isCut : Char → Bool} {cs piece : Text}
    (h : piece ∈ pieces isCut cs) : ∀ c ∈ piece, isCut c = false := by
  induction cs generalizing piece with
  | nil =>
    rw [List.mem_singleton.mp h]
    exact fun c hc => nomatch hc
  | cons d cs ih =>
    rw [pieces] at h
    cases hd : isCut d with
    | true =>
      rw [hd] at h
      rcases List.mem_cons.mp h with rfl | h
      · exact fun c hc => nomatch hc
      · exact ih h
    | false =>
      rw [hd] at h
      cases hp : pieces isCut cs with
      | nil => exact absurd hp (pieces_ne_nil isCut cs)
      | cons first rest =>
        rw [hp] at h ih
        rcases List.mem_cons.mp h with rfl | h
        · intro c hc
          rcases List.mem_cons.mp hc with rfl | hc
          · exact hd
          · exact ih List.mem_cons_self c hc
        · exact ih (List.mem_cons_of_mem _ h)

def decimal (n : Nat) : Text := Nat.toDigits 10 n

/-- A text moved to the right edge of a column; a text as wide as the column stays as it is. -/
def padLeft (width : Nat) (cs : Text) : Text :=
  List.replicate (width - cs.length) ' ' ++ cs

def padRight (width : Nat) (cs : Text) : Text :=
  cs ++ List.replicate (width - cs.length) ' '

/-- Lines as one text, each closed by a line feed. -/
def unlines (lines : List Text) : Text :=
  lines.flatMap (· ++ ['\n'])

end Text

end BinarySize
