import BinarySize.CommandLine.Arguments
import Mathlib.Data.List.Nodup

/-!
# The grammar of the command line

How a request can be written as arguments, said without a reader: options in any order and in any
of their forms on both sides of the verb. Proved here:

* `adds_of_readSide`: what is read on one side of the verb is written there;
* `readsSide_of_isWritten`: what is written on one side of the verb is read;
* `read_eq_ok_iff`: so the arguments that are accepted are those that write a request.
-/

namespace BinarySize.CommandLine

/-! ## Written options -/

def Switch.flag (switch : Switch) : Text := '-' :: '-' :: switch.word.toList

/-- The ways of writing an option. A value that stands apart must not look like an option. -/
inductive Switch.IsWritten : Switch → Text → List Text → Prop
  | flag {switch : Switch} (h : switch.takesValue = false) : IsWritten switch [] [switch.flag]
  | attached {switch : Switch} (h : switch.takesValue = true) (value : Text) :
      IsWritten switch value [switch.flag ++ '=' :: value]
  | apart {switch : Switch} {value : Text} (h : switch.takesValue = true)
      (hplain : value.head? = some '-' → value = ['-']) :
      IsWritten switch value [switch.flag, value]

/-- The arguments that write some options one after the other, in front of what ends them. -/
inductive Given.IsWritten (verb : Option Verb) (ending : List Text) : Given → List Text → Prop
  | nil : IsWritten verb ending [] ending
  | cons {switch : Switch} {value : Text} {words rest : List Text} {given : Given}
      (hswitch : switch ∈ switchesOf verb) (haccepts : switch.accepts value = true)
      (hwords : switch.IsWritten value words) (h : IsWritten verb ending given rest) :
      IsWritten verb ending ((switch, value) :: given) (words ++ rest)

/-- The arguments that write a request: the options that may stand before the verb, the verb and
its options, none of them twice on one side. Two dashes may stand at the end. -/
inductive Request.IsWritten (request : Request) : List Text → Prop
  | intro {ending behind arguments : List Text} (hending : ending = [] ∨ ending = ["--".toList])
      (hbehind : request.behind.IsWritten (some request.verb) ending behind)
      (hbefore : request.before.IsWritten none (request.verb.word.toList :: behind) arguments)
      (honce : (request.before.map (·.1)).Nodup ∧ (request.behind.map (·.1)).Nodup) :
      IsWritten request arguments

/-! ## Tokens -/

theorem ofText_flag (switch : Switch) :
    Token.ofText switch.flag = .long switch.word.toList none := by
  cases switch <;> decide

theorem ofText_attached (switch : Switch) (value : Text) :
    Token.ofText (switch.flag ++ '=' :: value) = .long switch.word.toList (some value) := by
  cases switch <;> rfl

theorem ofText_word (verb : Verb) :
    Token.ofText verb.word.toList = .plain verb.word.toList := by
  cases verb <;> decide

theorem isPlain_ofText_iff {value : Text} :
    (Token.ofText value).isPlain = true ↔ (value.head? = some '-' → value = ['-']) := by
  unfold Token.ofText
  split
  · simp [Token.isPlain]
  · split <;> simp [Token.isPlain]
  · simp [Token.isPlain]
  · next h =>
    -- no other text starts with a dash, unless it is one
    simp only [Token.isPlain, true_iff]
    intro hdash
    rcases value with - | ⟨c, - | ⟨d, rest⟩⟩
    · cases hdash
    · exact congrArg (· :: []) (Option.some.inj hdash)
    · cases hdash
      exact absurd rfl (h d rest)

theorem eq_of_ofText_long {argument word : Text} {attached : Option Text}
    (h : Token.ofText argument = .long word attached) :
    argument = '-' :: '-' :: (word ++ (attached.map ('=' :: ·)).getD []) := by
  unfold Token.ofText at h
  split at h
  · cases h
  · next cs _ =>
    have hcut : cs.takeWhile (· ≠ '=') ++ cs.dropWhile (· ≠ '=') = cs :=
      List.takeWhile_append_dropWhile
    split at h
    · next c value hdrop =>
      have hc : c = '=' := by
        have hstop := List.head?_dropWhile_not (· ≠ '=') cs
        rw [hdrop] at hstop
        exact of_decide_eq_true (by simpa using hstop)
      cases h
      rw [hdrop, hc] at hcut
      exact congrArg (fun cs => '-' :: '-' :: cs) hcut.symm
    · cases h
      simp
  · cases h
  · cases h

theorem eq_of_ofText_plain {argument word : Text} (h : Token.ofText argument = .plain word) :
    argument = word := by
  unfold Token.ofText at h
  split at h
  · cases h
  · split at h
    · cases h
    · cases h
  · cases h
  · cases h
    rfl

theorem eq_of_ofText_dashes {argument : Text} (h : Token.ofText argument = .dashes) :
    argument = "--".toList := by
  unfold Token.ofText at h
  split at h
  · rfl
  · split at h
    · cases h
    · cases h
  · cases h
  · cases h

theorem find?_word (verb : Option Verb) : ∀ switch ∈ switchesOf verb,
    (switchesOf verb).find? (·.word.toList == switch.word.toList) = some switch := by
  rcases verb with - | - | -
  · decide
  · decide
  · decide

/-! ## One side of the verb -/

theorem add_eq_ok_iff {given added : Given} {switch : Switch} {value : Text} :
    given.add switch value = .ok added ↔
      switch.accepts value = true ∧ switch ∉ given.map (·.1) ∧
        added = given ++ [(switch, value)] := by
  have hnew : (given.lookup switch).isNone = true ↔ switch ∉ given.map (·.1) := by
    rw [Option.isNone_iff_eq_none, List.lookup_eq_none_iff, List.mem_map]
    constructor
    · rintro h ⟨entry, hentry, rfl⟩
      exact bne_iff_ne.mp (h entry hentry) rfl
    · intro h entry hentry
      exact bne_iff_ne.mpr fun heq => h ⟨entry, hentry, heq.symm⟩
  unfold Given.add
  split
  · next h =>
    obtain ⟨haccepts, habsent⟩ := Bool.and_eq_true_iff.mp h
    rw [Except.ok.injEq, eq_comm]
    exact ⟨fun heq => ⟨haccepts, hnew.mp habsent, heq⟩, fun h => h.2.2⟩
  · next h =>
    constructor
    · intro herror
      cases herror
    · rintro ⟨haccepts, habsent, -⟩
      exact absurd (Bool.and_eq_true_iff.mpr ⟨haccepts, hnew.mpr habsent⟩) h

theorem nodup_map_concat {given : Given} {switch : Switch} {value : Text} :
    ((given ++ [(switch, value)]).map (·.1)).Nodup ↔
      (given.map (·.1)).Nodup ∧ switch ∉ given.map (·.1) := by
  rw [List.map_append, List.map_singleton, ← List.concat_eq_append, List.nodup_concat, and_comm]

/-- What ends the options on one side of the verb: the verb, or nothing but perhaps two dashes. -/
def IsEnding (verb : Option Verb) (ending : List Text) : Option (Verb × List Text) → Prop
  | none => ending = [] ∨ ending = ["--".toList]
  | some (next, rest) => verb = none ∧ ending = next.word.toList :: rest

structure Adds (verb : Option Verb) (given final : Given) (arguments : List Text)
    (next : Option (Verb × List Text)) : Prop where
  written : ∃ options ending, final = given ++ options ∧
    options.IsWritten verb ending arguments ∧ IsEnding verb ending next
  once : (given.map (·.1)).Nodup → (final.map (·.1)).Nodup

section

variable {verb : Option Verb} {given added final : Given} {arguments : List Text}
  {next : Option (Verb × List Text)}

theorem Adds.nil {ending : List Text} (h : IsEnding verb ending next) :
    Adds verb given given ending next :=
  ⟨⟨[], ending, (List.append_nil given).symm, .nil, h⟩, id⟩

theorem Adds.cons {switch : Switch} {value : Text} {words : List Text}
    (hswitch : switch ∈ switchesOf verb) (hadd : given.add switch value = .ok added)
    (hwords : switch.IsWritten value words) (h : Adds verb added final arguments next) :
    Adds verb given final (words ++ arguments) next := by
  obtain ⟨haccepts, hnew, rfl⟩ := add_eq_ok_iff.mp hadd
  obtain ⟨⟨options, ending, rfl, hwritten, hending⟩, honce⟩ := h
  refine ⟨⟨(switch, value) :: options, ending, ?_, ?_, hending⟩, fun hgiven => ?_⟩
  · rw [List.append_assoc, List.singleton_append]
  · exact .cons hswitch haccepts hwords hwritten
  · exact honce (nodup_map_concat.mpr ⟨hgiven, hnew⟩)

theorem switch_of_find? {word : Text} {switch : Switch}
    (h : (switchesOf verb).find? (·.word.toList == word) = some switch) :
    switch ∈ switchesOf verb ∧ switch.word.toList = word := by
  have hword := List.find?_some h
  exact ⟨List.mem_of_find?_eq_some h, beq_iff_eq.mp hword⟩

theorem word_of_ofText? {word : Text} {named : Verb} (h : Verb.ofText? word = some named) :
    named.word.toList = word := by
  have hword := List.find?_some h
  exact beq_iff_eq.mp hword

/-- What is read on one side of the verb are options that are written there. -/
theorem adds_of_readSide {pending : Option (Switch × Text)} {side : Side}
    (h : readSide verb given pending arguments = .ok side)
    (hfinal : side.given.settle side.pending = .ok final) :
    ∃ settled, given.settle pending = .ok settled ∧
      Adds verb settled final arguments side.verb := by
  fun_induction readSide verb given pending arguments with
  | case1 given pending =>
    cases h
    exact ⟨final, hfinal, .nil (.inl rfl)⟩
  | case2 given pending argument rest hdashes hrest =>
    cases h
    obtain rfl := eq_of_ofText_dashes hdashes
    obtain rfl := List.isEmpty_iff.mp hrest
    exact ⟨final, hfinal, .nil (.inr rfl)⟩
  | case8 given pending argument rest word hplain hverb hhelp verb hword =>
    cases h
    obtain rfl := eq_of_ofText_plain hplain
    obtain rfl := word_of_ofText? hword
    exact ⟨final, hfinal, .nil ⟨Option.not_isSome_iff_eq_none.mp hverb, rfl⟩⟩
  | case14 given pending argument word settled hsettled switch hswitch htakes value rest added hadd
      hlong ih =>
    obtain ⟨_, heq, hadds⟩ := ih h
    cases heq
    obtain ⟨hmem, rfl⟩ := switch_of_find? hswitch
    obtain rfl := eq_of_ofText_long hlong
    exact ⟨settled, hsettled, .cons hmem hadd (.attached htakes value) hadds⟩
  | case15 given pending argument word settled hsettled switch hswitch htakes value rest hplain
      hlong ih =>
    obtain ⟨added, hadd, hadds⟩ := ih h
    obtain ⟨hmem, rfl⟩ := switch_of_find? hswitch
    obtain rfl := eq_of_ofText_long hlong
    have hwords := Switch.IsWritten.apart htakes (isPlain_ofText_iff.mp hplain)
    simp only [Option.map_none, Option.getD_none, List.append_nil]
    exact ⟨settled, hsettled, .cons hmem hadd hwords hadds⟩
  | case20 given pending argument rest word settled hsettled switch attached hswitch htakes
      hattached added hadd hlong ih =>
    obtain ⟨_, heq, hadds⟩ := ih h
    cases heq
    obtain ⟨hmem, rfl⟩ := switch_of_find? hswitch
    obtain rfl := Option.not_isSome_iff_eq_none.mp hattached
    obtain rfl := eq_of_ofText_long hlong
    have hwords := Switch.IsWritten.flag (Bool.not_eq_true _ ▸ htakes)
    simp only [Option.map_none, Option.getD_none, List.append_nil]
    exact ⟨settled, hsettled, .cons hmem hadd hwords hadds⟩
  | case3 | case4 | case5 | case6 | case7 | case9 | case10 | case11 | case12 | case13 | case16
  | case17 | case18 | case19 => cases h

/-- A reading of one side of the verb, with the last option looked at too. -/
def ReadsSide (verb : Option Verb) (given : Given) (pending : Option (Switch × Text))
    (arguments : List Text) (final : Given) (next : Option (Verb × List Text)) : Prop :=
  ∃ side, readSide verb given pending arguments = .ok side ∧
    side.given.settle side.pending = .ok final ∧ side.verb = next

/-- It makes no difference if an option is looked at before the next one starts. -/
theorem ReadsSide.of_settled {pending : Option (Switch × Text)}
    (hsettled : given.settle pending = .ok added)
    (h : ReadsSide verb added none arguments final next) :
    ReadsSide verb given pending arguments final next := by
  obtain ⟨side, hread, hfinal, hnext⟩ := h
  cases arguments with
  | nil =>
    cases hread
    cases hfinal
    exact ⟨⟨given, pending, none⟩, rfl, hsettled, hnext⟩
  | cons argument rest =>
    unfold readSide at hread
    cases htoken : Token.ofText argument with
    | dashes =>
      simp only [htoken] at hread
      split at hread
      · next hrest =>
        cases hread
        cases hfinal
        refine ⟨⟨given, pending, none⟩, ?_, hsettled, hnext⟩
        simp only [readSide, htoken, if_pos hrest]
      · cases hread
    | short letters =>
      simp only [htoken, Given.settle] at hread
      cases hread
    | plain word =>
      simp only [htoken] at hread
      split at hread
      · cases hread
      · next hverb =>
        split at hread
        · cases hread
        · next hhelp =>
          split at hread
          · next named hword =>
            cases hread
            cases hfinal
            refine ⟨⟨given, pending, some (named, rest)⟩, ?_, hsettled, hnext⟩
            simp only [readSide, htoken, if_neg hverb, if_neg hhelp, hword]
          · cases hread
    | long word attached =>
      refine ⟨side, ?_, hfinal, hnext⟩
      simp only [htoken, Given.settle] at hread
      simp only [readSide, htoken, hsettled]
      exact hread

theorem readsSide_of_isEnding (h : IsEnding verb arguments next) :
    ReadsSide verb given none arguments given next := by
  cases next with
  | none =>
    rcases h with rfl | rfl
    · exact ⟨⟨given, none, none⟩, rfl, rfl, rfl⟩
    · exact ⟨⟨given, none, none⟩, rfl, rfl, rfl⟩
  | some next =>
    obtain ⟨rfl, rfl⟩ := h
    obtain ⟨next, rest⟩ := next
    refine ⟨⟨given, none, some (next, rest)⟩, ?_, rfl, rfl⟩
    have hhelp : ¬ next.word.toList = "help".toList := by
      cases next with
      | _ => decide
    have hword : Verb.ofText? next.word.toList = some next := by
      cases next with
      | _ => decide
    simp only [readSide, ofText_word, if_neg hhelp, hword]
    rfl

theorem ReadsSide.cons {switch : Switch} {value : Text} {words : List Text}
    (hswitch : switch ∈ switchesOf verb) (hadd : given.add switch value = .ok added)
    (hwords : switch.IsWritten value words) (h : ReadsSide verb added none arguments final next) :
    ReadsSide verb given none (words ++ arguments) final next := by
  have hfind := find?_word verb switch hswitch
  cases hwords with
  | flag htakes =>
    obtain ⟨side, hread, hrest⟩ := h
    refine ⟨side, ?_, hrest⟩
    rw [List.singleton_append, readSide]
    simp only [ofText_flag, Given.settle, hfind, htakes, hadd]
    exact hread
  | attached htakes =>
    obtain ⟨side, hread, hrest⟩ := h
    refine ⟨side, ?_, hrest⟩
    rw [List.singleton_append, readSide]
    simp only [ofText_attached, Given.settle, hfind, htakes, hadd]
    exact hread
  | apart htakes hplain =>
    have hpending : given.settle (some (switch, value)) = .ok added := hadd
    obtain ⟨side, hread, hrest⟩ := h.of_settled hpending
    refine ⟨side, ?_, hrest⟩
    rw [List.cons_append, List.singleton_append, readSide]
    simp only [ofText_flag, Given.settle, hfind, htakes, isPlain_ofText_iff.mpr hplain]
    exact hread

theorem readsSide_of_isWritten {ending : List Text} {options : Given}
    (h : options.IsWritten verb ending arguments) (hending : IsEnding verb ending next)
    (honce : ((given ++ options).map (·.1)).Nodup) :
    ReadsSide verb given none arguments (given ++ options) next := by
  induction h generalizing given with
  | nil =>
    rw [List.append_nil]
    exact readsSide_of_isEnding hending
  | @cons switch value words rest options hswitch haccepts hwords h ih =>
    have happend : given ++ (switch, value) :: options =
        given ++ [(switch, value)] ++ options := by simp
    rw [happend] at honce ⊢
    have hnew : switch ∉ given.map (·.1) := by
      rw [List.map_append] at honce
      exact (nodup_map_concat.mp honce.of_append_left).2
    exact (ih honce).cons hswitch (add_eq_ok_iff.mpr ⟨haccepts, hnew, rfl⟩) hwords

end

/-! ## Whole command lines -/

section

variable {request : Request} {arguments : List Text}

theorem read_eq_ok_iff_readsSide :
    Request.read arguments = .ok request ↔
      ∃ rest, ReadsSide none [] none arguments request.before (some (request.verb, rest)) ∧
        ∃ next, ReadsSide (some request.verb) [] none rest request.behind next := by
  constructor
  · intro h
    unfold Request.read at h
    split at h
    · cases h
    · cases h
    · next before pending verb rest hfront =>
      split at h
      · cases h
      · next side hback =>
        cases hbehind : side.given.settle side.pending with
        | error stop =>
          rw [hbehind] at h
          cases h
        | ok behind =>
          cases hbefore : Given.settle before pending with
          | error stop =>
            rw [hbehind, hbefore] at h
            cases h
          | ok settled =>
            rw [hbehind, hbefore] at h
            cases h
            exact ⟨rest, ⟨_, hfront, hbefore, rfl⟩, side.verb, side, hback, hbehind, rfl⟩
  · rintro ⟨rest, ⟨front, hfront, hbefore, hverb⟩, next, back, hback, hbehind, -⟩
    obtain ⟨before, pending, verb⟩ := front
    cases hverb
    simp only [Request.read, hfront, hback, hbefore, hbehind]
    rfl

/-- **The grammar of the command line.** The requests that are read from some arguments are those
that the arguments write. -/
theorem read_eq_ok_iff : Request.read arguments = .ok request ↔ request.IsWritten arguments := by
  rw [read_eq_ok_iff_readsSide]
  constructor
  · rintro ⟨rest, ⟨front, hfront, hbefore, hverb⟩, next, back, hback, hbehind, -⟩
    obtain ⟨_, ⟨⟩, ⟨before, ending, hsum, hwritten, hending⟩, honce⟩ :=
      adds_of_readSide hfront hbefore
    obtain ⟨_, ⟨⟩, ⟨behind, ending', hsum', hwritten', hending'⟩, honce'⟩ :=
      adds_of_readSide hback hbehind
    rw [List.nil_append] at hsum hsum'
    rw [hverb] at hending
    obtain ⟨-, rfl⟩ := hending
    cases hback : back.verb with
    | some next =>
      rw [hback] at hending'
      cases hending'.1
    | none =>
      rw [hback] at hending'
      exact .intro hending' (hsum' ▸ hwritten') (hsum ▸ hwritten)
        ⟨honce List.nodup_nil, honce' List.nodup_nil⟩
  · rintro ⟨hending, hbehind, hbefore, hbeforeOnce, hbehindOnce⟩
    next ending behind =>
    refine ⟨behind, readsSide_of_isWritten hbefore ⟨rfl, rfl⟩ hbeforeOnce, none, ?_⟩
    exact readsSide_of_isWritten hbehind hending hbehindOnce

end

end BinarySize.CommandLine
