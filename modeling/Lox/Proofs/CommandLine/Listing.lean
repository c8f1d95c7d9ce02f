import Lox.Proofs.CommandLine.Script
import Lox.Proofs.Session.Looking

/-!
# Showing a script

A script that is only shown is not run: the program prints a listing and leaves the scopes alone,
and the status tells whether the stages that it needed found a problem (`Listed`). Each stage adds
to what was printed and recorded before (`Session.Adds`), and the listing is cut at the first
statement that is too high (`printTrees_eq`).
-/

namespace Lox

namespace CommandLine

/-- The listing of statements, one a line, up to the first that is too high. -/
def listing (limits : Limits) (polish : Bool) : List Stmt → String
  | [] => ""
  | s :: ss => match listing? limits polish s with
    | none => ""
    | some line => line ++ "\n" ++ listing limits polish ss

/-- The listing is printed, and the first statement that is too high ends it. -/
theorem printTrees_eq (limits : Limits) (polish : Bool) (ss : List Stmt) (c : Console) :
    printTrees limits polish ss c =
      if ∀ s ∈ ss, listing? limits polish s ≠ none then
        .ok () { c with out := c.out ++ listing limits polish ss }
      else .error .tooDeep { c with out := c.out ++ listing limits polish ss } := by
  induction ss generalizing c with
  | nil => simp [printTrees, listing]; rfl
  | cons s ss ih =>
    rw [printTrees, listing]
    cases line : listing? limits polish s with
    | none =>
      rw [if_neg (by simp [line])]
      simp
      rfl
    | some line' =>
      show printTrees limits polish ss { c with out := c.out ++ (line' ++ "\n") } = _
      rw [ih]
      simp [line, String.append_assoc]

/-- What a mode shows of a script. -/
def Mode.shown (limits : Limits) (text : String) : Mode → String
  | .run => ""
  | .tokens => String.join ((Lexer.tokens text).map fun t => t.text ++ "\n")
  | .trees => listing limits false (Analysis.ofSource limits text).statements
  | .polish => listing limits true (Analysis.ofSource limits text).statements

/-- The problems found in the stages that a mode goes through. -/
def Mode.problems (limits : Limits) (text : String) : Mode → List Diagnostic
  | .tokens => Lexer.diagnostics text
  | _ => (Analysis.ofSource limits text).problems

/-- Nothing that a mode goes through nests too deep. -/
def Mode.Fits (limits : Limits) (text : String) (mode : Mode) : Prop :=
  mode = .tokens ∨ (Parsed.ofTokens limits.nesting (Lexer.tokens text)).overflow = none
    ∧ ∀ s ∈ (Analysis.ofSource limits text).statements,
      listing? limits (mode = .polish) s ≠ none

/-- A statement that is too high to be listed does not fit. -/
theorem Mode.not_fits {limits : Limits} {text : String} {mode : Mode} (lists : mode ≠ .tokens)
    (high : ¬ ∀ s ∈ (Analysis.ofSource limits text).statements,
      listing? limits (mode = .polish) s ≠ none) : ¬ mode.Fits limits text := by
  rintro (tokens | ⟨-, fits⟩)
  · exact lists tokens
  · exact high fits

section Shown

variable {limits : Limits} {s : Session}

theorem listing_adds (limits : Limits) (polish : Bool) (nonfatal : s.journal.fatal = false) :
    let ss := (Analysis.ofSource limits s.source).statements
    let action : Session.Action Unit := do
      let ss ← Session.statements limits
      Session.onConsole (printTrees limits polish ss)
    ∃ s', s.Adds (listing limits polish ss) (Analysis.ofSource limits s.source).problems s' ∧
      (action s = .ok () s' ∨
        action s = .error .tooDeep s' ∧ ¬ ∀ s ∈ ss, listing? limits polish s ≠ none) := by
  intro ss action
  obtain ⟨s₁, parsed, adds₁⟩ := Session.statements_adds limits none nonfatal
  let s₂ : Session := { s₁ with workspace := { s₁.workspace with console :=
    { s₁.workspace.console with out := s₁.workspace.console.out ++ listing limits polish ss } } }
  have adds₂ : s₁.Adds (listing limits polish ss) [] s₂ :=
    ⟨rfl, rfl, rfl, (List.append_nil _).symm, rfl⟩
  have adds := adds₁.trans adds₂
  rw [String.empty_append, List.append_nil] at adds
  have result : action s = Session.onConsole (printTrees limits polish ss) s₁ := by
    show (Session.statements limits none >>= fun ss =>
      Session.onConsole (printTrees limits polish ss)).run s = _
    rw [EStateM.run_bind, EStateM.run, parsed]
    rfl
  refine ⟨s₂, adds, ?_⟩
  rw [result, Session.onConsole, Session.onWorkspace, Workspace.liftConsole, printTrees_eq]
  by_cases fits : ∀ s ∈ ss, listing? limits polish s ≠ none
  · rw [if_pos fits]
    exact .inl rfl
  · rw [if_neg fits]
    exact .inr ⟨rfl, fits⟩

/-- **Showing a script** prints its listing and records its problems, and touches no scope. -/
theorem process_adds (limits : Limits) {mode : Mode} (shows : mode ≠ .run)
    (nonfatal : s.journal.fatal = false) :
    ∃ s', s.Adds (mode.shown limits s.source) (mode.problems limits s.source) s' ∧
      (process limits mode s = .ok () s' ∨
        process limits mode s = .error .tooDeep s' ∧ ¬ mode.Fits limits s.source) := by
  cases mode with
  | run => exact absurd rfl shows
  | tokens =>
    obtain ⟨s₁, scanned, adds₁⟩ := Session.tokens_adds none nonfatal
    obtain ⟨s₂, printed, adds₂⟩ := Session.onConsole_print (s := s₁)
      (String.join ((Lexer.tokens s.source).map fun t => t.text ++ "\n"))
    have adds := adds₁.trans adds₂
    rw [String.empty_append, List.append_nil] at adds
    refine ⟨s₂, adds, .inl ?_⟩
    show (Session.tokens none >>= fun ts => Session.onConsole (Interaction.print
      (String.join (ts.map fun t => t.text ++ "\n")))).run s = _
    rw [EStateM.run_bind, EStateM.run, scanned]
    exact printed
  | trees =>
    obtain ⟨s', adds, result⟩ := listing_adds limits false nonfatal
    exact ⟨s', adds, result.imp_right fun ⟨eq, high⟩ => ⟨eq, Mode.not_fits (by decide) high⟩⟩
  | polish =>
    obtain ⟨s', adds, result⟩ := listing_adds limits true nonfatal
    exact ⟨s', adds, result.imp_right fun ⟨eq, high⟩ => ⟨eq, Mode.not_fits (by decide) high⟩⟩

end Shown

/-- How the program ends on a script that it only shows. -/
structure Listed (limits : Limits) (mode : Mode) (path text : String) (console console' : Console)
    (status : Nat) : Prop where
  out_eq : console'.out = console.out ++ mode.shown limits text
  /-- Nothing is executed. -/
  chain_eq : (finalState (process limits mode (opened path text console))).workspace.chain = .global
  eq_65_iff : mode.Fits limits text → (status = 65 ↔ mode.problems limits text ≠ [])
  eq_zero_iff : mode.Fits limits text → (status = 0 ↔ mode.problems limits text = [])

/-- Without nesting over the limit, all problems of a mode are those of scanning and parsing. -/
theorem Mode.category_of_fits {limits : Limits} {text : String} {mode : Mode}
    (fits : mode.Fits limits text) {d : Diagnostic} (mem : d ∈ mode.problems limits text) :
    d.category = .lexical ∨ d.category = .grammatical := by
  have lexical (mem : d ∈ Lexer.diagnostics text) : d.category = .lexical := by
    obtain ⟨fault, -, rfl⟩ := List.mem_map.1 mem
    rfl
  rcases fits with rfl | ⟨fits, -⟩
  · exact .inl (lexical mem)
  have found : d ∈ (Analysis.ofSource limits text).problems := by
    cases mode with
    | tokens => exact List.mem_append_left _ mem
    | _ => exact mem
  rcases Analysis.kind_of_mem found with kind | kind | ⟨t, exceeded, -⟩
  · exact .inl kind
  · exact .inr kind
  · rw [fits] at exceeded
    cases exceeded

section Script

variable {limits : Limits} {r : Request} {path text input : String}
  {contents : Option (List UInt8)} {console : Console}

/-- **Showing a script.** -/
theorem perform_listed (file : r.file = some path) (readable : Readable path contents text)
    (fresh : console.journal.errors = []) (shows : r.mode ≠ .run) :
    ∃ (status : Nat) (console' : Console),
      perform limits (.request r) contents input console = .ok status console' ∧
        Listed limits r.mode path text console console' status := by
  have nonfatal : (opened path text console).journal.fatal = false := rfl
  obtain ⟨s', adds, result⟩ := process_adds limits shows nonfatal
  have errors : s'.journal.errors = r.mode.problems limits text := by
    rw [adds.errors_eq]
    exact congrArg (· ++ _) fresh
  have chain : (finalState (process limits r.mode (opened path text console))).workspace.chain =
      .global := by
    rcases result with eq | ⟨eq, -⟩ <;> rw [eq] <;> exact adds.chain_eq
  rw [perform_eq file readable]
  rcases result with eq | ⟨eq, high⟩
  · rw [eq]
    refine ⟨_, _, rfl, adds.out_eq, chain, fun fits => ?_, fun _ => ?_⟩
    · cases problems : r.mode.problems limits text with
      | nil => simp [Journal.exitStatus, errors, problems]
      | cons d ds =>
        have kind := Mode.category_of_fits fits (problems ▸ List.mem_cons_self)
        rcases kind with kind | kind <;>
          simp [Journal.exitStatus, errors, problems, kind, Category.exitStatus]
    · rw [Journal.exitStatus_eq_zero_iff, errors]
  · have reported : Interaction.absorb .tooDeep s'.workspace.console =
        .ok () (s'.workspace.console.reported (Diagnostic.tooDeep none)) := by
      rw [Interaction.absorb, Interaction.report_eq, adds.fatal_eq]
      rfl
    rw [eq]
    show ∃ (status : Nat) (console' : Console), (Interaction.absorb .tooDeep >>= fun _ => do
      return ((← get).journal.exitStatus : Int)).run s'.workspace.console = _ ∧ _
    rw [EStateM.run_bind, EStateM.run, reported]
    exact ⟨_, _, rfl, adds.out_eq, chain, fun fits => absurd fits high,
      fun fits => absurd fits high⟩

end Script

end CommandLine

end Lox
