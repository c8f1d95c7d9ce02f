import Lox.Proofs.Session.Records

/-!
# Looking at a source

Looking at the tokens or at the statements of a source adds the problems found to those recorded
before (`Session.tokens_adds`, `Session.statements_adds`). Nothing else that is seen of the session
changes: the scopes, the output, and the source that it runs by default.
-/

namespace Lox

namespace Session

/-- The second session is the first after something was printed and problems were recorded. -/
structure Adds (s : Session) (printed : String) (recorded : List Diagnostic) (s' : Session) :
    Prop where
  source_eq : s'.source = s.source
  chain_eq : s'.workspace.chain = s.workspace.chain
  out_eq : s'.workspace.console.out = s.workspace.console.out ++ printed
  errors_eq : s'.journal.errors = s.journal.errors ++ recorded
  fatal_eq : s'.journal.fatal = s.journal.fatal

namespace Adds

variable {s s' s'' : Session} {printed printed' : String} {recorded recorded' : List Diagnostic}

theorem trans (first : Adds s printed recorded s') (second : Adds s' printed' recorded' s'') :
    Adds s (printed ++ printed') (recorded ++ recorded') s'' where
  source_eq := second.source_eq.trans first.source_eq
  chain_eq := second.chain_eq.trans first.chain_eq
  out_eq := by rw [second.out_eq, first.out_eq, String.append_assoc]
  errors_eq := by rw [second.errors_eq, first.errors_eq, List.append_assoc]
  fatal_eq := second.fatal_eq.trans first.fatal_eq

end Adds

variable {limits : Limits} {s : Session}

theorem onConsole_reportAll (nonfatal : s.journal.fatal = false) (ds : List Diagnostic) :
    ∃ s', onConsole (Interaction.reportAll ds) s = .ok () s' ∧ Adds s "" ds s' := by
  refine ⟨{ s with workspace := { s.workspace with
    console := ds.foldl Console.reported s.workspace.console } }, ?_, rfl, rfl, ?_, ?_, ?_⟩
  · rw [onConsole, onWorkspace, Workspace.liftConsole, Interaction.reportAll_of_nonfatal nonfatal]
  · rw [String.append_empty]
    exact Interaction.out_reportedAll ds _
  · exact Interaction.errors_reportedAll ds _
  · exact Interaction.fatal_reportedAll ds _

theorem onConsole_print (printed : String) :
    ∃ s', onConsole (Interaction.print printed) s = .ok () s' ∧ Adds s printed [] s' :=
  ⟨_, rfl, rfl, rfl, rfl, (List.append_nil _).symm, rfl⟩

theorem withJournal_adds (s : Session) (path text : String) :
    Adds s "" [] (s.withJournal (s.journal.register path text)) :=
  ⟨rfl, rfl, String.append_empty.symm, (List.append_nil _).symm, rfl⟩

/-- Looking at the tokens. -/
theorem tokens_adds (given : Option String) (nonfatal : s.journal.fatal = false) :
    let text := given.getD s.source
    ∃ s', tokens given s = .ok (Lexer.tokens text) s' ∧ Adds s "" (Lexer.diagnostics text) s' := by
  intro text
  have registered := withJournal_adds s s.path text
  obtain ⟨s', eq, adds⟩ := onConsole_reportAll (registered.fatal_eq.trans nonfatal)
    (Lexer.diagnostics text)
  refine ⟨s', ?_, registered.trans adds⟩
  rw [tokens_eq]
  show (onConsole _ >>= fun _ => _).run _ = _
  rw [EStateM.run_bind, EStateM.run, eq]
  rfl

/-- Looking at the statements. -/
theorem statements_adds (limits : Limits) (given : Option String)
    (nonfatal : s.journal.fatal = false) :
    let analysis := Analysis.ofSource limits (given.getD s.source)
    ∃ s', statements limits given s = .ok analysis.statements s' ∧
      Adds s "" analysis.problems s' := by
  intro analysis
  obtain ⟨s₁, scanned, adds₁⟩ := tokens_adds given nonfatal
  obtain ⟨s₂, parsed, adds₂⟩ := onConsole_reportAll (adds₁.fatal_eq.trans nonfatal)
    (Parsed.ofTokens limits.nesting (Lexer.tokens (given.getD s.source))).diagnostics
  refine ⟨s₂, ?_, adds₁.trans adds₂⟩
  show (tokens given >>= fun ts => do
    onConsole (Interaction.reportAll (Parsed.ofTokens limits.nesting ts).diagnostics)
    return (Parsed.ofTokens limits.nesting ts).statements).run s = _
  rw [EStateM.run_bind, EStateM.run, scanned]
  show (onConsole _ >>= fun _ => _).run s₁ = _
  rw [EStateM.run_bind, EStateM.run, parsed]
  rfl

end Session

end Lox
