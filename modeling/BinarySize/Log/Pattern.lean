import BinarySize.Number
import BinarySize.Text.Basic

/-!
# Patterns

A log filter may ask for the value of a field by a pattern: text with sets in brackets, groups in
parentheses, alternatives, repetitions and escapes. Only well-formed patterns can be asked for,
and this module says which those are. A pattern is read by a machine that takes one character at
a time and knows how many groups and sets are open.
-/

namespace BinarySize.Pattern

inductive Place where
  /-- Before an item; `repeatable` if there is one behind it that can be repeated. -/
  | item (repeatable : Bool)
  /-- Behind the parenthesis that opens a group. -/
  | group
  /-- Behind the question mark with which a group starts. -/
  | kind
  /-- Behind the letter that only comes before a group's name. -/
  | named
  /-- In the name of a group. -/
  | name (text : Text)
  /-- In the flags of a group. -/
  | flags (text : Text)
  /-- Behind the bracket that opens a set. -/
  | opened
  /-- Behind the bracket that opens a set and the sign that negates it. -/
  | negated
  /-- In a set; `low` may start a range, and `dash` if it does. -/
  | member (low : Option Char) (dash : Bool)
  /-- Behind a backslash. -/
  | escape
  /-- In an escape that spells a code point and owes some digits. -/
  | digits (owed value : Nat)
  /-- In an escape that names a property. -/
  | property
  deriving DecidableEq

/-- The state of the reader: the groups and sets that are open, and where it stands. -/
structure State where
  groups : Nat := 0
  sets : Nat := 0
  place : Place := .item false
  deriving DecidableEq

namespace State

def behindItem (s : State) : State :=
  { s with place := if s.sets = 0 then .item true else .member none false }

/-- The state behind an item of a set that stands for one character. -/
def behindMember (s : State) (c : Char) : State := { s with place := .member (some c) false }

def openSet (s : State) : State := { s with sets := s.sets + 1, place := .opened }

def closeSet (s : State) : State := behindItem { s with sets := s.sets - 1 }

def atItem (s : State) (repeatable : Bool) (c : Char) : Option State :=
  match c with
  | '\\' => some { s with place := .escape }
  | '[' => some s.openSet
  | '(' => some { s with groups := s.groups + 1, place := .group }
  | ')' => if s.groups = 0 then none else some (behindItem { s with groups := s.groups - 1 })
  | '|' => some { s with place := .item false }
  | '*' | '+' | '?' => if repeatable then some s else none
  | '\x7b' => none
  | _ => some s.behindItem

def atMember (s : State) (low : Option Char) (dash : Bool) (c : Char) : Option State :=
  match c with
  | '\\' => some { s with place := .escape }
  | ']' => some s.closeSet
  | '[' => some s.openSet
  | '-' => some { s with place := .member low (low.isSome && !dash) }
  | _ =>
    match low, dash with
    | some l, true => if l ≤ c then some s.behindItem else none
    | _, _ => some (s.behindMember c)

/-- The letters that make an escape for a class of characters or for a control character. -/
def classLetters : Text := "dDsSwWaftnrv".toList

def categories : Text := "CcLlMmNnPpSsZz".toList

def atEscape (s : State) (c : Char) : Option State :=
  if classLetters.contains c then some s.behindItem
  else match c with
    | 'A' | 'z' => if s.sets = 0 then some s.behindItem else none
    | 'x' => some { s with place := .digits 2 0 }
    | 'u' => some { s with place := .digits 4 0 }
    | 'U' => some { s with place := .digits 8 0 }
    | 'p' | 'P' => some { s with place := .property }
    | '<' | '>' => none
    | _ => if c.isAlphanum || 0x80 ≤ c.toNat then none else some s.behindItem

def isNameChar (text : Text) (c : Char) : Bool :=
  c.isAlpha || c = '_' || (!text.isEmpty && (c.isDigit || c = '.' || c = '[' || c = ']'))

def step (s : State) (c : Char) : Option State :=
  match s.place with
  | .item repeatable => s.atItem repeatable c
  | .group =>
    if c = '?' then some { s with place := .kind } else s.atItem false c
  | .kind =>
    if c = 'P' then some { s with place := .named }
    else if c = '<' then some { s with place := .name [] }
    else if c = ':' then some { s with place := .item false }
    else if "imsUuxR-".toList.contains c then some { s with place := .flags [c] }
    else none
  | .named => if c = '<' then some { s with place := .name [] } else none
  | .name text =>
    if c = '>' then if text.isEmpty then none else some { s with place := .item false }
    else if isNameChar text c then some { s with place := .name (text ++ [c]) }
    else none
  | .flags text =>
    if c = ':' ∨ c = ')' then
      if text.getLast? = some '-' then none
      else some { s with
        groups := if c = ':' then s.groups else s.groups - 1
        place := .item false }
    else if "imsUuxR-".toList.contains c && !text.contains c then
      some { s with place := .flags (text ++ [c]) }
    else none
  | .opened =>
    if c = '^' then some { s with place := .negated }
    else if c = ']' then some (s.behindMember c)
    else s.atMember none false c
  | .negated => if c = ']' then some (s.behindMember c) else s.atMember none false c
  | .member low dash => s.atMember low dash c
  | .escape => s.atEscape c
  | .digits owed value =>
    match Number.hexDigit? c with
    | none => none
    | some d =>
      let value := 16 * value + d
      if 1 < owed then some { s with place := .digits (owed - 1) value }
      else if value.isValidChar then some s.behindItem else none
  | .property => if categories.contains c then some s.behindItem else none

def isFinal (s : State) : Bool :=
  match s.place with
  | .item _ => s.groups = 0
  | _ => false

end State

def isWellFormed (pattern : Text) : Bool :=
  ((pattern.foldlM State.step {}).map State.isFinal).getD false

end BinarySize.Pattern
