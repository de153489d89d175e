import BinarySize.Dump.Function
import BinarySize.Dump.Line
import BinarySize.Proofs.Numerals
import Mathlib.Data.List.Forall2

/-!
# The layout of a dump

How a dumper may lay out compile units and their functions: a line that starts each entry, then a
line for each attribute of the entry, in any order, with blanks where the layout has blanks,
numbers with any zeros in front, and lines that say nothing anywhere between. The layout says
nothing about how a dump is read. Every list of compile units has one (`isDump_printed`).
-/

namespace BinarySize.Dump

open Text Number

/-! ## What is listed -/

/-- A function that a dump lists. Its end is an address, or the length of its code. -/
structure ListedFunction where
  kind : FunctionKind
  name : Text
  lowPc : Nat
  highPc : Nat
  declFile : Option Text := none
  declLine : Option Nat := none
  callFile : Option Text := none
  callLine : Option Nat := none

structure ListedUnit where
  name : Option Text
  functions : List ListedFunction

/-- What every attribute's label starts with, and nothing else in a dump may hold. -/
def marker : Text := "DW_AT_".toList

structure IsQuotable (text : Text) : Prop where
  ne_nil : text ≠ []
  quote : '"' ∉ text
  lineFeed : '\n' ∉ text
  unmarked : ¬ marker <:+: text

instance (text : Text) : Decidable (IsQuotable text) :=
  decidable_of_iff (text ≠ [] ∧ '"' ∉ text ∧ '\n' ∉ text ∧ ¬ occursIn marker text = true) <| by
    rw [occursIn_iff]
    exact ⟨fun ⟨hne, hquote, hline, hmarker⟩ => ⟨hne, hquote, hline, hmarker⟩,
      fun ⟨hne, hquote, hline, hmarker⟩ => ⟨hne, hquote, hline, hmarker⟩⟩

namespace ListedFunction

def texts (f : ListedFunction) : List Text :=
  f.name :: (f.declFile.toList ++ f.callFile.toList)

def numbers (f : ListedFunction) : List Nat :=
  f.lowPc :: f.highPc :: (f.declLine.toList ++ f.callLine.toList)

structure WellFormed (f : ListedFunction) : Prop where
  texts : ∀ text ∈ f.texts, IsQuotable text
  numbers : ∀ n ∈ f.numbers, n < limit

instance (f : ListedFunction) : Decidable f.WellFormed :=
  decidable_of_iff ((∀ text ∈ f.texts, IsQuotable text) ∧ ∀ n ∈ f.numbers, n < limit)
    ⟨fun h => ⟨h.1, h.2⟩, fun h => ⟨h.texts, h.numbers⟩⟩

/-- The size of the function's code. -/
def size (f : ListedFunction) : Nat :=
  if f.highPc < f.lowPc then f.highPc else f.highPc - f.lowPc

/-- The function as it is to be reported, unless it has no code. The declaration goes before the
call, and the unit's name stands in for an unknown file. -/
def sized? (unitName : Option Text) (f : ListedFunction) : Option SizedFunction :=
  if f.size = 0 then none
  else some {
    size := ByteSize.ofNat f.size
    file := (f.declFile.or (f.callFile.or unitName)).getD []
    line := ((f.declLine.filter (· ≠ 0)).or f.callLine).getD 0
    name := f.name
    kind := f.kind }

end ListedFunction

namespace ListedUnit

structure WellFormed (unit : ListedUnit) : Prop where
  name : ∀ name ∈ unit.name, IsQuotable name
  functions : ∀ f ∈ unit.functions, f.WellFormed

instance (unit : ListedUnit) : Decidable unit.WellFormed :=
  decidable_of_iff ((∀ name ∈ unit.name, IsQuotable name) ∧ ∀ f ∈ unit.functions, f.WellFormed)
    ⟨fun h => ⟨h.1, h.2⟩, fun h => ⟨h.name, h.functions⟩⟩

def sized (unit : ListedUnit) : List SizedFunction :=
  unit.functions.filterMap (·.sized? unit.name)

end ListedUnit

/-! ## Attributes -/

/-- The labels of the attributes that matter. -/
inductive Label where
  | name | origin | lowPc | highPc | declFile | declLine | callFile | callLine
  deriving DecidableEq

namespace Label

def all : List Label :=
  [name, origin, lowPc, highPc, declFile, declLine, callFile, callLine]

theorem mem_all (label : Label) : label ∈ all := by
  cases label with
  | _ => decide

def text : Label → Text
  | name => "DW_AT_name".toList
  | origin => "DW_AT_abstract_origin".toList
  | lowPc => "DW_AT_low_pc".toList
  | highPc => "DW_AT_high_pc".toList
  | declFile => "DW_AT_decl_file".toList
  | declLine => "DW_AT_decl_line".toList
  | callFile => "DW_AT_call_file".toList
  | callLine => "DW_AT_call_line".toList

end Label

/-- An attribute with its value. The origin of an entry is shown by the name of the entry that it
refers to. -/
inductive Attribute where
  | name (text : Text)
  | origin (text : Text)
  | lowPc (address : Nat)
  | highPc (address : Nat)
  | declFile (file : Text)
  | declLine (line : Nat)
  | callFile (file : Text)
  | callLine (line : Nat)
  deriving DecidableEq

/-- Blanks inside a line. -/
def IsSpace (cs : Text) : Prop := ∀ c ∈ cs, isBlank c = true ∧ c ≠ '\n'

-- Decided along the text: a search over all characters would never come back.
instance (cs : Text) : Decidable (IsSpace cs) :=
  List.decidableBAll (fun c => isBlank c = true ∧ c ≠ '\n') cs

structure IsGap (cs : Text) : Prop where
  ne_nil : cs ≠ []
  space : IsSpace cs

instance (cs : Text) : Decidable (IsGap cs) :=
  decidable_of_iff (cs ≠ [] ∧ IsSpace cs) ⟨fun h => ⟨h.1, h.2⟩, fun h => ⟨h.ne_nil, h.space⟩⟩

def quoted (text : Text) : Text := '"' :: (text ++ ['"'])

/-- The ways of writing an address: hexadecimal digits behind `0x` or `0X`, or decimal ones. -/
inductive IsAddress (n : Nat) : Text → Prop
  | hex {x : Char} {digits : Text} (hx : x = 'x' ∨ x = 'X') (h : IsNumeral 16 n digits) :
      IsAddress n ('0' :: x :: digits)
  | decimal {digits : Text} (h : IsNumeral 10 n digits) : IsAddress n digits

namespace Attribute

def label : Attribute → Label
  | name _ => .name
  | origin _ => .origin
  | lowPc _ => .lowPc
  | highPc _ => .highPc
  | declFile _ => .declFile
  | declLine _ => .declLine
  | callFile _ => .callFile
  | callLine _ => .callLine

def WellFormed : Attribute → Prop
  | name text | origin text | declFile text | callFile text => IsQuotable text
  | lowPc n | highPc n | declLine n | callLine n => n < limit

/-- The ways of writing an attribute's value. The offset before the name of an origin may be any. -/
inductive IsValue : Attribute → Text → Prop
  | name (text : Text) : IsValue (.name text) (quoted text)
  | origin (text : Text) {offset gap : Text} (hne : offset ≠ [])
      (hoffset : ∀ c ∈ offset, isHexDigit c = true) (hgap : IsGap gap) :
      IsValue (.origin text) ('0' :: 'x' :: (offset ++ (gap ++ quoted text)))
  | lowPc {n : Nat} {cs : Text} (h : IsAddress n cs) : IsValue (.lowPc n) cs
  | highPc {n : Nat} {cs : Text} (h : IsAddress n cs) : IsValue (.highPc n) cs
  | declFile (file : Text) : IsValue (.declFile file) (quoted file)
  | declLine {n : Nat} {cs : Text} (h : IsNumeral 10 n cs) : IsValue (.declLine n) cs
  | callFile (file : Text) : IsValue (.callFile file) (quoted file)
  | callLine {n : Nat} {cs : Text} (h : IsNumeral 10 n cs) : IsValue (.callLine n) cs

inductive IsLine (a : Attribute) : Text → Prop
  | intro {indent gap value : Text} (hindent : IsSpace indent) (hgap : IsGap gap)
      (hvalue : a.IsValue value) :
      IsLine a (indent ++ (a.label.text ++ (gap ++ '(' :: (value ++ [')']))))

end Attribute

/-! ## Lines -/

inductive IsTag : Text → Prop
  | intro {name : Text} (hne : name ≠ []) (hname : ∀ c ∈ name, isWordChar c = true) :
      IsTag ("DW_TAG_".toList ++ name)

inductive IsStart (tag : Text) : Text → Prop
  | intro {indent offset gap rest : Text} (hindent : IsSpace indent) (hne : offset ≠ [])
      (hoffset : ∀ c ∈ offset, isHexDigit c = true) (hgap : IsGap gap) (htag : IsTag tag)
      (hend : atWordEnd rest = true) (hrest : '\n' ∉ rest) :
      IsStart tag (indent ++ ("0x".toList ++ (offset ++ ':' :: (gap ++ (tag ++ rest)))))

/-- A line that says nothing. -/
structure IsExtra (line : Text) : Prop where
  lineFeed : '\n' ∉ line
  noEntry : ∀ tag, ¬ IsStart tag line
  unmarked : ¬ marker <:+: line

/-- The lines below the one that starts an entry: one for each attribute, and lines that say
nothing. -/
inductive IsBody : List Attribute → List Text → Prop
  | nil : IsBody [] []
  | shown {a : Attribute} {line : Text} {rest : List Attribute} {lines : List Text}
      (hline : a.IsLine line) (h : IsBody rest lines) : IsBody (a :: rest) (line :: lines)
  | extra {line : Text} {rest : List Attribute} {lines : List Text}
      (hline : IsExtra line) (h : IsBody rest lines) : IsBody rest (line :: lines)

namespace ListedFunction

/-- The attributes of a function, with its name shown by the first of them. -/
def attributes (f : ListedFunction) (named : Attribute) : List Attribute :=
  named :: .lowPc f.lowPc :: .highPc f.highPc ::
    (f.declFile.toList.map .declFile ++ f.declLine.toList.map .declLine
      ++ f.callFile.toList.map .callFile ++ f.callLine.toList.map .callLine)

/-- The lines that list a function, which gives its name itself or takes it over. -/
inductive IsListed (f : ListedFunction) : List Text → Prop
  | intro {start : Text} {attributes : List Attribute} {named : Attribute} {body : List Text}
      (hstart : IsStart f.kind.tag.toList start)
      (hnamed : named = .name f.name ∨ named = .origin f.name)
      (hattributes : attributes.Perm (f.attributes named)) (hbody : IsBody attributes body) :
      IsListed f (start :: body)

end ListedFunction

inductive ListedUnit.IsListed (unit : ListedUnit) : List Text → Prop
  | intro {start : Text} {body : List Text} {functions : List (List Text)}
      (hstart : IsStart "DW_TAG_compile_unit".toList start)
      (hbody : IsBody (unit.name.toList.map .name) body)
      (hfunctions : List.Forall₂ ListedFunction.IsListed unit.functions functions) :
      IsListed unit (start :: body ++ functions.flatten)

/-- The lines that list compile units, below lines that say nothing. -/
inductive IsDump (units : List ListedUnit) : List Text → Prop
  | intro {above : List Text} {listed : List (List Text)} (habove : IsBody [] above)
      (hunits : List.Forall₂ ListedUnit.IsListed units listed) :
      IsDump units (above ++ listed.flatten)

/-! ## One layout -/

namespace Attribute

/-- The value of an attribute, with addresses in hexadecimal and origins at offset zero. -/
def printedValue : Attribute → Text
  | name text | declFile text | callFile text => quoted text
  | origin text => '0' :: 'x' :: ("0".toList ++ (" ".toList ++ quoted text))
  | lowPc n | highPc n => '0' :: 'x' :: Nat.toDigits 16 n
  | declLine n | callLine n => decimal n

theorem isValue_printedValue (a : Attribute) : a.IsValue a.printedValue := by
  have haddress : ∀ n, IsAddress n ('0' :: 'x' :: Nat.toDigits 16 n) := fun n =>
    .hex (.inl rfl) (isNumeral_toDigits (by decide) (by decide) n)
  have hline : ∀ n, IsNumeral 10 n (decimal n) :=
    isNumeral_toDigits (by decide) (by decide)
  cases a with
  | name text => exact .name text
  | origin text => exact .origin text (by decide) (List.all_eq_true.mp (by decide)) (by decide)
  | lowPc n => exact .lowPc (haddress n)
  | highPc n => exact .highPc (haddress n)
  | declFile file => exact .declFile file
  | declLine n => exact .declLine (hline n)
  | callFile file => exact .callFile file
  | callLine n => exact .callLine (hline n)

def printed (a : Attribute) : Text :=
  "  ".toList ++ (a.label.text ++ (" ".toList ++ '(' :: (a.printedValue ++ [')'])))

theorem isLine_printed (a : Attribute) : a.IsLine a.printed :=
  .intro (by decide) (by decide) a.isValue_printedValue

theorem isBody_printed (attributes : List Attribute) :
    IsBody attributes (attributes.map printed) := by
  induction attributes with
  | nil => exact .nil
  | cons a rest ih => exact .shown a.isLine_printed ih

end Attribute

def printedStart (tag : Text) : Text :=
  [] ++ ("0x".toList ++ ("0".toList ++ ':' :: (" ".toList ++ (tag ++ []))))

theorem isStart_printedStart {tag : Text} (h : IsTag tag) : IsStart tag (printedStart tag) :=
  .intro (by decide) (by decide) (List.all_eq_true.mp (by decide)) (by decide) h rfl (by decide)

namespace ListedFunction

def printed (f : ListedFunction) : List Text :=
  printedStart f.kind.tag.toList :: (f.attributes (.name f.name)).map Attribute.printed

theorem isListed_printed (f : ListedFunction) : f.IsListed f.printed := by
  have htag : IsTag f.kind.tag.toList := by
    cases f.kind with
    | subprogram =>
      exact @IsTag.intro "subprogram".toList (by decide) (List.all_eq_true.mp (by decide))
    | inlinedSubroutine =>
      exact @IsTag.intro "inlined_subroutine".toList (by decide) (List.all_eq_true.mp (by decide))
  exact .intro (isStart_printedStart htag) (.inl rfl) (.refl _) (Attribute.isBody_printed _)

end ListedFunction

namespace ListedUnit

def printed (unit : ListedUnit) : List Text :=
  printedStart "DW_TAG_compile_unit".toList ::
      (unit.name.toList.map Attribute.name).map Attribute.printed
    ++ (unit.functions.map ListedFunction.printed).flatten

theorem isListed_printed (unit : ListedUnit) : unit.IsListed unit.printed := by
  have htag : IsTag "DW_TAG_compile_unit".toList :=
    @IsTag.intro "compile_unit".toList (by decide) (List.all_eq_true.mp (by decide))
  refine .intro (isStart_printedStart htag) (Attribute.isBody_printed _) ?_
  rw [List.forall₂_map_right_iff, List.forall₂_same]
  exact fun f _ => f.isListed_printed

end ListedUnit

def printed (units : List ListedUnit) : List Text := (units.map ListedUnit.printed).flatten

/-- Every list of compile units can be laid out. -/
theorem isDump_printed (units : List ListedUnit) : IsDump units (printed units) := by
  refine @IsDump.intro units [] _ .nil ?_
  rw [List.forall₂_map_right_iff, List.forall₂_same]
  exact fun unit _ => unit.isListed_printed

end BinarySize.Dump
