import BinarySize.Text.Basic

/-!
# Blanks

The Unicode property `White_Space`, whose characters separate the tokens of all three inputs,
and trimming by it.
-/

namespace BinarySize.Text

/-- The characters with the property `White_Space`: twenty-five in all. -/
def isBlank (c : Char) : Bool :=
  let n := c.toNat
  (0x9 ≤ n && n ≤ 0xD) || n == 0x20 || n == 0x85 || n == 0xA0 || n == 0x1680
    || (0x2000 ≤ n && n ≤ 0x200A) || n == 0x2028 || n == 0x2029 || n == 0x202F || n == 0x205F
    || n == 0x3000

def dropBlanks (cs : Text) : Text := cs.dropWhile isBlank

def dropBlanksEnd (cs : Text) : Text := (cs.reverse.dropWhile isBlank).reverse

def trim (cs : Text) : Text := dropBlanksEnd (dropBlanks cs)

theorem dropBlanks_append {gap : Text} (h : ∀ c ∈ gap, isBlank c = true) (cs : Text) :
    dropBlanks (gap ++ cs) = dropBlanks cs :=
  List.dropWhile_append_of_pos h

theorem dropBlanks_cons {c : Char} (h : isBlank c = true) (cs : Text) :
    dropBlanks (c :: cs) = dropBlanks cs :=
  List.dropWhile_cons_of_pos h

theorem dropBlanks_of_head {cs : Text} (h : ∀ c, cs.head? = some c → isBlank c = false) :
    dropBlanks cs = cs := by
  cases cs with
  | nil => rfl
  | cons c cs => simp [dropBlanks, h c rfl]

theorem head?_dropBlanks {cs : Text} {c : Char} (h : (dropBlanks cs).head? = some c) :
    isBlank c = false := by
  have hnot := List.head?_dropWhile_not isBlank cs
  rwa [show (cs.dropWhile isBlank).head? = some c from h] at hnot

theorem trim_dropBlanks (cs : Text) : trim (dropBlanks cs) = trim cs := by
  rw [trim, dropBlanks_of_head fun _ => head?_dropBlanks, trim]

theorem trim_of_ends {cs : Text} (hhead : ∀ c, cs.head? = some c → isBlank c = false)
    (hlast : ∀ c, cs.getLast? = some c → isBlank c = false) : trim cs = cs := by
  have hrev : ∀ c, cs.reverse.head? = some c → isBlank c = false := by
    intro c hc
    exact hlast c (List.head?_reverse ▸ hc)
  rw [trim, dropBlanks_of_head hhead, dropBlanksEnd]
  have hdrop : cs.reverse.dropWhile isBlank = cs.reverse := dropBlanks_of_head hrev
  rw [hdrop, List.reverse_reverse]

theorem getLast?_trim {cs : Text} {c : Char} (h : (trim cs).getLast? = some c) :
    isBlank c = false := by
  rw [trim, dropBlanksEnd, List.getLast?_reverse] at h
  exact head?_dropBlanks h

theorem infix_trim (cs : Text) : trim cs <:+: cs := by
  have hdrop : (dropBlanks cs).reverse.dropWhile isBlank <:+ (dropBlanks cs).reverse :=
    List.dropWhile_suffix _
  have hfront : trim cs <+: dropBlanks cs := by
    rw [trim, dropBlanksEnd, ← List.reverse_suffix, List.reverse_reverse]
    exact hdrop
  exact hfront.isInfix.trans (List.dropWhile_suffix _).isInfix

theorem mem_dropBlanks {cs : Text} {c : Char} (hc : c ∈ cs) (h : isBlank c = false) :
    c ∈ dropBlanks cs := by
  have happ : c ∈ cs.takeWhile isBlank ++ cs.dropWhile isBlank := by
    rwa [List.takeWhile_append_dropWhile]
  rcases List.mem_append.mp happ with htaken | hleft
  · have hblank := List.all_eq_true.mp List.all_takeWhile c htaken
    rw [h] at hblank
    cases hblank
  · exact hleft

/-- Trimming takes nothing but blanks away. -/
theorem mem_trim {cs : Text} {c : Char} (hc : c ∈ cs) (h : isBlank c = false) : c ∈ trim cs := by
  have hrev : c ∈ (dropBlanks cs).reverse := List.mem_reverse.mpr (mem_dropBlanks hc h)
  exact List.mem_reverse.mpr (mem_dropBlanks hrev h)

end BinarySize.Text
