import Lox.Proofs.Run.Summary
import Lox.Session

/-!
# What is recorded

However an action ends, all that it has done to the journal is to record problems: none of those
recorded before is lost, and the settings and the registered source are as they were. `Records`
says this together with a property of the problems recorded. It composes along the way in which
actions are put together, from a single report to a run. The actions of a session first register
their source, and a run also forgets the problems of the run before; the equations at the end say
so and leave actions that only record.
-/

namespace Lox

/-- The journal after more problems. -/
def Journal.recordAll (j : Journal) (ds : List Diagnostic) : Journal :=
  { j with errors := j.errors ++ ds }

theorem Journal.recordAll_nil (j : Journal) : j.recordAll [] = j := by
  rw [recordAll, List.append_nil]

theorem Journal.recordAll_append (j : Journal) (ds es : List Diagnostic) :
    (j.recordAll ds).recordAll es = j.recordAll (ds ++ es) := by
  simp only [recordAll, List.append_assoc]

/-- The state in which an action ends, whether it is cut short or not. -/
def finalState {ε σ α : Type} : EStateM.Result ε σ α → σ
  | .ok _ s | .error _ s => s

/-- Whether an action succeeds with an answer and a state of a kind can be computed. -/
instance decidableSucceeds {ε σ α : Type} {P : α → σ → Prop} [∀ a s, Decidable (P a s)] :
    (result : EStateM.Result ε σ α) → Decidable (∃ a s, result = .ok a s ∧ P a s)
  | .ok a s => decidable_of_iff (P a s)
      ⟨fun h => ⟨a, s, rfl, h⟩, by rintro ⟨_, _, ⟨⟩, h⟩; exact h⟩
  | .error _ _ => isFalse (by rintro ⟨_, _, ⟨⟩, _⟩)

/-- All that an action does to the journal in its state is to record problems of a kind. -/
def Records {ε σ α : Type} (journal : σ → Journal) (P : Diagnostic → Prop)
    (action : EStateM ε σ α) : Prop :=
  ∀ s, ∃ recorded, journal (finalState (action s)) = (journal s).recordAll recorded
    ∧ ∀ d ∈ recorded, P d

namespace Records

variable {ε σ α β : Type} {journal : σ → Journal} {P : Diagnostic → Prop}

/-- An action that leaves the journal alone. -/
theorem still {action : EStateM ε σ α} (h : ∀ s, journal (finalState (action s)) = journal s) :
    Records journal P action :=
  fun s => ⟨[], by rw [h, Journal.recordAll_nil], List.forall_mem_nil _⟩

theorem pure (a : α) : Records journal P (Pure.pure a : EStateM ε σ α) := still fun _ => rfl

theorem throw (e : ε) : Records journal P (MonadExcept.throw e : EStateM ε σ α) :=
  still fun _ => rfl

theorem bind {action : EStateM ε σ α} {next : α → EStateM ε σ β} (h : Records journal P action)
    (hnext : ∀ a, Records journal P (next a)) : Records journal P (action >>= next) := by
  intro s
  obtain ⟨first, journal_first, all_first⟩ := h s
  show ∃ recorded, journal (finalState (EStateM.bind action next s)) = _ ∧ _
  rw [EStateM.bind]
  cases result : action s with
  | error e s' =>
    rw [result] at journal_first
    exact ⟨first, journal_first, all_first⟩
  | ok a s' =>
    rw [result] at journal_first
    obtain ⟨second, journal_second, all_second⟩ := hnext a s'
    refine ⟨first ++ second, ?_, List.forall_mem_append.2 ⟨all_first, all_second⟩⟩
    rw [← Journal.recordAll_append, ← (journal_first : journal s' = _)]
    exact journal_second

end Records

variable {P : Diagnostic → Prop}

/-! ### Reports -/

namespace Interaction

/-- A report records its problem, also if it is the last thing that the program does. -/
theorem report_records {d : Diagnostic} (h : P d) : Records Console.journal P (report d) := by
  intro c
  refine ⟨[d], ?_, List.forall_mem_singleton.2 h⟩
  rw [report_eq]
  split <;> rfl

theorem reportAll_records {ds : List Diagnostic} (h : ∀ d ∈ ds, P d) :
    Records Console.journal P (reportAll ds) := by
  induction ds with
  | nil => exact .pure ()
  | cons d ds ih =>
    obtain ⟨first, others⟩ := List.forall_mem_cons.1 h
    exact (report_records first).bind fun _ => ih others

end Interaction

/-! ### Runs -/

/-- Concluding a halt records it, if it is one that the program is to blame for. -/
theorem Halt.conclude_records {halt : Halt} (deep : P (Diagnostic.tooDeep none))
    (failed : ∀ cause, halt = .failure cause → P cause.diagnostic) :
    Records Console.journal P halt.conclude := by
  cases halt with
  | failure cause =>
    rw [conclude]
    split
    · exact (Interaction.report_records (failed cause rfl)).bind fun _ => .pure false
    · exact .throw _
  | tooDeep => exact (Interaction.report_records deep).bind fun _ => .pure false
  | outOfFuel => exact .throw _

/-- The journal of a workspace. -/
abbrev Workspace.journal (w : Workspace) : Journal := w.console.journal

theorem Workspace.liftConsole_records {α : Type} {action : Interaction α}
    (h : Records Console.journal P action) : Records journal P (liftConsole action) := by
  intro w
  obtain ⟨recorded, eq, all⟩ := h w.console
  refine ⟨recorded, ?_, all⟩
  rw [← eq, liftConsole]
  cases action w.console <;> rfl

theorem execute_records {limits : Limits} {statements : List Stmt}
    (deep : P (Diagnostic.tooDeep none))
    (failed : ∀ m cause m', Stmt.executeAll limits.rounds statements limits.nesting m =
      .error (.failure cause) m' → P cause.diagnostic) :
    Records Workspace.journal P (execute limits statements) := by
  intro w
  rw [execute]
  cases result : Stmt.executeAll limits.rounds statements limits.nesting
      ⟨w.chain, w.console.out⟩ with
  | ok u m => exact ⟨[], (Journal.recordAll_nil _).symm, List.forall_mem_nil _⟩
  | error halt m =>
    have conclusion : Records Console.journal P halt.conclude :=
      Halt.conclude_records deep fun cause eq => failed _ cause m (eq ▸ result)
    exact Workspace.liftConsole_records conclusion ⟨m.chain, { w.console with out := m.output }⟩

/-- **What a run records**: problems of the source, or a failure of its statements. -/
theorem run_records {limits : Limits} {source : String}
    (problems : ∀ d ∈ (Analysis.ofSource limits source).problems, P d)
    (deep : P (Diagnostic.tooDeep none))
    (failed : ∀ m cause m', Stmt.executeAll limits.rounds
      (Analysis.ofSource limits source).statements limits.nesting m =
        .error (.failure cause) m' → P cause.diagnostic) :
    Records Workspace.journal P (run limits source) := by
  refine (Workspace.liftConsole_records (Interaction.reportAll_records problems)).bind fun _ => ?_
  split
  · exact execute_records deep failed
  · exact .pure false

/-! ### Sessions -/

namespace Session

/-- The journal of a session. -/
abbrev journal (s : Session) : Journal := s.workspace.journal

/-- The session with another journal. -/
def withJournal (s : Session) (j : Journal) : Session :=
  { s with workspace := { s.workspace with console := { s.workspace.console with journal := j } } }

theorem onWorkspace_records {α : Type} {action : EStateM Interrupt Workspace α}
    (h : Records Workspace.journal P action) : Records journal P (onWorkspace action) := by
  intro s
  obtain ⟨recorded, eq, all⟩ := h s.workspace
  refine ⟨recorded, ?_, all⟩
  rw [← eq, onWorkspace]
  cases action s.workspace <;> rfl

theorem onConsole_records {α : Type} {action : Interaction α}
    (h : Records Console.journal P action) : Records journal P (onConsole action) :=
  onWorkspace_records (Workspace.liftConsole_records h)

variable (limits : Limits) (given : Option String) (s : Session)

/-- A run starts with a journal without problems in which its source is registered, and keeps the
source. -/
theorem run_eq : let text := given.getD s.source
    run limits given s = onWorkspace (Lox.run limits text)
      { s.withJournal (s.journal.reset.register s.path text) with source := text } := by
  cases given <;> rfl

/-- Looking at the tokens registers their source and reports its lexical problems. -/
theorem tokens_eq : let text := given.getD s.source
    tokens given s =
      (do
        onConsole (Interaction.reportAll (Lexer.diagnostics text))
        return Lexer.tokens text : Action (List Token))
      (s.withJournal (s.journal.register s.path text)) := rfl

/-- Looking at the statements reports the problems of parsing as well. -/
theorem statements_eq : let text := given.getD s.source
    let parsed := Parsed.ofTokens limits.nesting (Lexer.tokens text)
    statements limits given s =
      (do
        onConsole (Interaction.reportAll (Lexer.diagnostics text))
        onConsole (Interaction.reportAll parsed.diagnostics)
        return parsed.statements : Action (List Stmt))
      (s.withJournal (s.journal.register s.path text)) := by
  intro text parsed
  have reported := tokens_eq given s
  cases result : onConsole (Interaction.reportAll (Lexer.diagnostics text))
      (s.withJournal (s.journal.register s.path text)) with
  | ok u s' =>
    simp only [statements, bind, EStateM.bind, reported, text, result]
    rfl
  | error interrupt s' =>
    simp only [statements, bind, EStateM.bind, reported, text, result]

end Session

end Lox
