import Lox.CommandLine.Program
import Lox.Proofs.Run.Outcome
import Lox.Proofs.Session.Records

/-!
# The program on a script

A script that can be read is processed in a session of its own. The journal of that session is not
fatal, so it comes back with all problems recorded, and the status of the program is that of the
first of them (`perform_eq`).
-/

namespace Lox

/-! ### Statuses -/

/-- The problems that scanning, parsing and execution report. -/
def Diagnostic.IsStaged (d : Diagnostic) : Prop :=
  d.category = .lexical ∨ d.category = .grammatical ∨ d.category = .runtime ∨ ∃ n, d = tooDeep n

theorem Analysis.isStaged_of_mem {limits : Limits} {source : String} {d : Diagnostic}
    (mem : d ∈ (ofSource limits source).problems) : d.IsStaged := by
  rcases kind_of_mem mem with lexical | grammatical | ⟨t, -, rfl⟩
  · exact .inl lexical
  · exact .inr (.inl grammatical)
  · exact .inr (.inr (.inr ⟨_, rfl⟩))

/-- What the status of a problem says about it. -/
theorem Diagnostic.IsStaged.exitStatus_iff {d : Diagnostic} (staged : d.IsStaged) :
    (d.category.exitStatus = 65 ↔ d.category = .lexical ∨ d.category = .grammatical)
      ∧ (d.category.exitStatus = 70 ↔ d.category = .runtime)
      ∧ (d.category.exitStatus = 1 ↔ ∃ n, d = tooDeep n) := by
  have not_deep (h : d.category ≠ .general) : ¬ ∃ n, d = tooDeep n := by
    rintro ⟨n, rfl⟩
    exact h rfl
  rcases staged with kind | kind | kind | ⟨n, rfl⟩
  · simp [kind, Category.exitStatus, not_deep]
  · simp [kind, Category.exitStatus, not_deep]
  · simp [kind, Category.exitStatus, not_deep]
  · simp [tooDeep, Category.exitStatus]

/-- A status other than zero is that of the first problem. -/
theorem Journal.exitStatus_eq_iff {j : Journal} {status : Nat} (ne_zero : status ≠ 0) :
    j.exitStatus = status ↔ ∃ d ∈ j.errors.head?, d.category.exitStatus = status := by
  rw [exitStatus]
  cases j.errors with
  | nil => simp [ne_zero.symm]
  | cons d ds => simp

/-! ### The session of a script -/

/-- The console of a session is the one that the session's actions start with. -/
theorem Session.within_self {α : Type} (s : Session) (action : Session.Action α) :
    s.within action s.workspace.console =
      match action s with
      | .ok a s => .ok a s.workspace.console
      | .error interrupt s => .error interrupt s.workspace.console := by
  obtain ⟨path, source, chain, console⟩ := s
  rfl

namespace CommandLine

/-- The script at this path can be read and has this text. -/
structure Readable (path : String) (contents : Option (List UInt8)) (text : String) : Prop where
  ne_commandLine : path ≠ commandLinePath
  no_null : path.contains '\x00' = false
  scriptText_eq : ∃ bytes, contents = some bytes ∧ Text.Utf8.scriptText bytes = .ok text

/-- The session of a script, which may report all its problems. -/
def opened (path text : String) (console : Console) : Session :=
  ⟨path, text, .global, { console with journal := { console.journal with fatal := false } }⟩

section Script

variable {limits : Limits} {r : Request} {path text input : String}
  {contents : Option (List UInt8)} {console : Console}

theorem script_eq (readable : Readable path contents text) (mode : Mode) :
    script limits mode path contents console = (opened path text console).within
      (process limits mode) (opened path text console).workspace.console := by
  obtain ⟨ne, no_null, bytes, rfl, eq⟩ := readable
  simp only [script, Session.openAt, Session.load, no_null, eq, if_pos ne, setFatal]
  rfl

theorem guarded_script (limits : Limits) (mode : Mode) (console : Console)
    (readable : Readable path contents text) :
    Interaction.guarded (script limits mode path contents) console =
      match process limits mode (opened path text console) with
      | .ok () s => .ok () s.workspace.console
      | .error interrupt s => Interaction.absorb interrupt s.workspace.console := by
  rw [Interaction.guarded, script_eq readable, Session.within_self]
  cases process limits mode (opened path text console) <;> rfl

/-- **The program on a script** is what its session does, with the status of what is recorded in the
end. An interrupt is absorbed before. -/
theorem perform_eq (file : r.file = some path) (readable : Readable path contents text) :
    perform limits (.request r) contents input console =
      match process limits r.mode (opened path text console) with
      | .ok () s => .ok s.journal.exitStatus s.workspace.console
      | .error interrupt s =>
        (do Interaction.absorb interrupt; return ((← get).journal.exitStatus : Int))
          s.workspace.console := by
  have session := guarded_script limits r.mode
    { console with journal := { console.journal with fatal := true } } readable
  show (Interaction.guarded _ >>= fun _ => do return ((← get).journal.exitStatus : Int)).run
      { console with journal := { console.journal with fatal := true } } = _
  rw [file, EStateM.run_bind, EStateM.run, session]
  have same : opened path text { console with journal := { console.journal with fatal := true } } =
    opened path text console := rfl
  rw [same]
  cases process limits r.mode (opened path text console) with
  | ok u s => rfl
  | error interrupt s => rfl

theorem perform_of_processed {s : Session} (file : r.file = some path)
    (readable : Readable path contents text)
    (processed : process limits r.mode (opened path text console) = .ok () s) :
    perform limits (.request r) contents input console =
      .ok s.journal.exitStatus s.workspace.console := by
  rw [perform_eq file readable, processed]

end Script

end CommandLine

end Lox
