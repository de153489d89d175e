import BinarySize.Proofs.Tools.Calls

/-!
# Repeated calls

A tool whose answer and output depend on the content of its module alone does on a second call
what it did on the first. That, and no more, is what a run behind another one needs of its tools
(`DependsOnModule`).
-/

namespace BinarySize

open FileTree

namespace Toolset

/-- A call behind another one, on a module with the same content, gives the same answer and leaves
the same along the path of the output; and whatever a call leaves there is a file. -/
structure DependsOnModule (tools : Toolset) : Prop where
  file : ∀ tool module output session,
    let called := perform (tools.run tool module output) session
    called.2.files.find? output = session.files.find? output ∨
      called.2.files.isFile output = true
  again : ∀ tool module output session next,
    let called := perform (tools.run tool module output) session
    let repeated := perform (tools.run tool module output) next
    next.files.content? module = session.files.content? module →
    SameAlong output next.files called.2.files →
    repeated.1 = called.1 ∧ SameAlong output repeated.2.files called.2.files

section

variable {tools : Toolset} {tool : Tool} {module output : Path} {session after next : Session}
  {answer : Except RunError Unit}

theorem DependsOnModule.file_of_call (h : tools.DependsOnModule)
    (hcall : perform (tools.call tool module output) session = (answer, after)) :
    after.files.find? output = session.files.find? output ∨
      after.files.isFile output = true := by
  rw [perform_call] at hcall
  have hfile := h.file tool module output
    { session with calls := session.calls ++ [⟨tool, module, output⟩] }
  rw [hcall] at hfile
  exact hfile

theorem DependsOnModule.call_again (h : tools.DependsOnModule) (hconfined : tools.Confined)
    (hcall : perform (tools.call tool module output) session = (answer, after))
    (hcontent : next.files.content? module = session.files.content? module)
    (hsame : SameAlong output next.files after.files) :
    ∃ left, perform (tools.call tool module output) next = (answer, left) ∧
      Alike left.files next.files := by
  rw [perform_call] at hcall
  have hagain := h.again tool module output
    { session with calls := session.calls ++ [⟨tool, module, output⟩] }
    { next with calls := next.calls ++ [⟨tool, module, output⟩] } hcontent
  rw [hcall] at hagain
  obtain ⟨hanswer, hleft⟩ := hagain hsame
  refine ⟨(perform (tools.call tool module output) next).2, Prod.ext hanswer rfl, ?_⟩
  refine (hconfined.files tool module output _).alike fun place hp => ?_
  exact (hleft place hp).trans (hsame place hp).symm

end

/-- The tool set whose tools follow scripts that the contents of their modules choose. -/
def scriptedBy (script : Tool → Option Octets → Script) : Toolset where
  run tool module output := do
    let files ← Run.files
    (scripted fun tool => script tool (files.content? module)).run tool module output

theorem perform_scriptedBy (script : Tool → Option Octets → Script) (tool : Tool)
    (module output : Path) (session : Session) :
    perform ((scriptedBy script).run tool module output) session =
      perform ((scripted fun tool => script tool (session.files.content? module)).run tool module
        output) session := rfl

theorem confined_scriptedBy (script : Tool → Option Octets → Script) :
    (scriptedBy script).Confined := by
  constructor
  · intro tool module output session
    rw [perform_scriptedBy]
    exact (confined_scripted _).calls tool module output session
  · intro tool module output session
    rw [perform_scriptedBy]
    exact (confined_scripted _).files tool module output session

theorem dependsOnModule_scriptedBy (script : Tool → Option Octets → Script) :
    (scriptedBy script).DependsOnModule := by
  constructor
  · intro tool module output session
    rw [perform_scriptedBy]
    cases h : script tool (session.files.content? module) with
    | writing content =>
      simp only [scripted, h, Run.perform_onFiles]
      rcases FileAction.write_cases output content session.files with ⟨e, heq⟩ | ⟨heq, -, hfind⟩
      · rw [heq]
        exact .inl rfl
      · rw [heq]
        exact .inr (isFile_iff.mpr ⟨content, hfind⟩)
    | _ =>
      simp only [scripted, h]
      exact .inl rfl
  · intro tool module output session next called repeated hcontent
    have hcalled : called = _ := perform_scriptedBy script tool module output session
    have hrepeated : repeated = _ := perform_scriptedBy script tool module output next
    rw [hcontent] at hrepeated
    cases h : script tool (session.files.content? module) with
    | writing content =>
      simp only [scripted, h, Run.perform_onFiles] at hcalled hrepeated
      intro hsame
      rw [hcalled] at hsame ⊢
      rw [hrepeated]
      obtain ⟨hanswer, hleft⟩ := FileAction.write_again hsame
      exact ⟨congrArg (Except.mapError RunError.io) hanswer, hleft⟩
    | _ =>
      simp only [scripted, h] at hcalled hrepeated
      intro hsame
      rw [hcalled] at hsame ⊢
      rw [hrepeated]
      exact ⟨rfl, hsame⟩

end Toolset

end BinarySize
