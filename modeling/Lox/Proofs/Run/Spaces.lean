import Lox.Proofs.Grammar.Braces
import Lox.Proofs.Lexer.Spaces
import Lox.Proofs.Run.Layout

/-!
# Running a source without some of its blanks

Leaving out blanks that can be left out changes nothing of what a source without problems does
(`Executes.of_reduces`): the statements differ at most in their lines. A source that consists of
two, with a line break at the end of the first, does what the first does and then what the second
does (`executes_append`).
-/

namespace Lox

/-! ### Tokens and faults -/

theorem Token.SameButLine.of_unlined {t u : Token} (h : t.unlined = u.unlined) :
    t.SameButLine u where
  kind := (congrArg Token.kind h :)
  lexeme := (congrArg Token.lexeme h :)
  literal := (congrArg Token.literal h :)

namespace Lexer

/-- Braces are counted alike on all lines. -/
theorem braceBalance_map_unlined (ts : List Token) :
    braceBalance (ts.map Token.unlined) = braceBalance ts := by
  rw [braceBalance_eq, braceBalance_eq, List.map_map]
  rfl

end Lexer

/-! ### Sources that reduce -/

namespace Lexer.Reduces

variable {a b : String} (reduces : Reduces (pieces a.toList) (pieces b.toList))

include reduces

theorem map_unlined_eq : (tokens a).map Token.unlined = (tokens b).map Token.unlined := by
  rw [tokens, tokens, map_unlined_tokensFrom, map_unlined_tokensFrom, reduces.tokens_eq]

theorem sameButLine : List.Forall₂ Token.SameButLine (tokens a) (tokens b) := by
  have equal : List.Forall₂ (· = ·) ((tokens a).map Token.unlined)
      ((tokens b).map Token.unlined) := by
    rw [List.forall₂_eq_eq_eq]
    exact reduces.map_unlined_eq
  rw [List.forall₂_map_left_iff, List.forall₂_map_right_iff] at equal
  exact equal.imp fun _ _ => Token.SameButLine.of_unlined

theorem faults_eq_nil (clean : faults a = []) : faults b = [] :=
  faultsFrom_eq_nil_iff.2 (reduces.no_fault (faultsFrom_eq_nil_iff.1 clean))

theorem openBraces_eq : openBraces a = openBraces b := by
  rw [openBraces, openBraces, ← braceBalance_map_unlined, reduces.map_unlined_eq,
    braceBalance_map_unlined]

theorem problems_eq_nil {limits : Limits} (clean : (Analysis.ofSource limits a).problems = []) :
    (Analysis.ofSource limits b).problems = [] := by
  obtain ⟨faults_a, -⟩ := Analysis.clean_iff.1 ⟨clean, rfl⟩
  have same := Analysis.problems_sameButLine limits faults_a (reduces.faults_eq_nil faults_a)
    reduces.sameButLine
  rw [clean] at same
  exact List.forall₂_nil_left_iff.1 same

end Lexer.Reduces

/-! ### Execution -/

/-- A moved action succeeds as before. -/
theorem Halt.relocating_eq_ok_iff {σ α : Type} {g : Int → Int} {action : EStateM Halt σ α}
    {s s' : σ} {a : α} : relocating g action s = .ok a s' ↔ action s = .ok a s' := by
  rw [relocating_apply]
  cases action s <;> simp

/-- Statements that differ at most in their lines succeed alike. -/
theorem Stmt.executeAll_eq_ok_of_unlined {ss rs : List Stmt} {fuel depth : Nat} {m m' : Machine}
    (same : mapAll Token.unlined ss = mapAll Token.unlined rs)
    (success : executeAll fuel ss depth m = .ok () m') : executeAll fuel rs depth m = .ok () m' := by
  rw [← Halt.relocating_eq_ok_iff (g := fun _ => 0), ← executeAll_relocate] at success ⊢
  rwa [← same]

/-- The source has no problems, and executing it turns the one machine into the other. -/
structure Executes (limits : Limits) (source : String) (m m' : Machine) : Prop where
  clean : (Analysis.ofSource limits source).problems = []
  success : Stmt.executeAll limits.rounds (Analysis.ofSource limits source).statements
    limits.nesting m = .ok () m'

/-- **Execution is what a run with success does.** -/
theorem run_eq_ok_iff {limits : Limits} {source : String} {w w' : Workspace} :
    run limits source w = .ok true w' ↔
      ∃ m, Executes limits source ⟨w.chain, w.console.out⟩ m ∧
        w' = ⟨m.chain, { w.console with out := m.output }⟩ := by
  constructor
  · intro success
    obtain ⟨clean, m, executed, eq⟩ := executed_of_run success
    exact ⟨m, ⟨clean, executed⟩, eq⟩
  · rintro ⟨m, ⟨clean, executed⟩, rfl⟩
    rw [run_of_clean clean, execute, executed]

variable {limits : Limits} {a b : String} {m m' : Machine}

/-- **Leaving out blanks** changes nothing of what a source does. -/
theorem Executes.of_reduces
    (reduces : Lexer.Reduces (Lexer.pieces a.toList) (Lexer.pieces b.toList))
    (h : Executes limits a m m') : Executes limits b m m' where
  clean := reduces.problems_eq_nil h.clean
  success := Stmt.executeAll_eq_ok_of_unlined
    (Analysis.statements_unlined limits reduces.sameButLine) h.success

/-- The last line break of a source can be left out. -/
theorem Lexer.reduces_last_newline (clean : faults (a ++ "\n") = []) :
    Reduces (pieces (a ++ "\n").toList) (pieces a.toList) := by
  have none : ∀ f ∈ faults (a ++ "\n"), f.cause ≠ .unterminated := by
    rw [clean]
    exact fun f mem => nomatch mem
  rw [faults, String.toList_append] at none
  have closed := closed_of_append_newline (cause_ne_iff.1 none)
  rw [String.toList_append]
  show Reduces (pieces (a.toList ++ '\n' :: [])) _
  rw [pieces_append_newline closed]
  constructor
  · simp [List.filterMap_append, Piece.token?]
  · exact fun none => (List.forall_mem_append.1 none).1

/-- Two sources without problems, the first of them ended by a line break, are one without. -/
theorem Analysis.clean_append (clean_a : (ofSource limits (a ++ "\n")).problems = [])
    (clean_b : (ofSource limits b).problems = []) :
    (ofSource limits (a ++ "\n" ++ b)).problems = [] := by
  have reduces := Lexer.reduces_last_newline (clean_iff.1 ⟨clean_a, rfl⟩).1
  exact (ofSource_append (reduces.problems_eq_nil clean_a) clean_b).1

/-- A source without faults and tokens is one without statements. -/
theorem Analysis.ofSource_of_no_tokens (limits : Limits) (no_faults : Lexer.faults a = [])
    (no_tokens : (Lexer.tokens a).dropLast = []) :
    (ofSource limits a).problems = [] ∧ (ofSource limits a).statements = [] :=
  clean_iff.2 ⟨no_faults, by rw [no_tokens]; exact .nil, trivial, Nat.zero_le limits.nesting⟩

theorem Analysis.clean_empty (limits : Limits) : (ofSource limits "").problems = [] :=
  (ofSource_of_no_tokens limits (by decide +kernel) (by decide +kernel)).1

/-- Such a source does nothing. -/
theorem Executes.eq_of_no_tokens (no_tokens : (Lexer.tokens a).dropLast = [])
    (h : Executes limits a m m') : m' = m := by
  obtain ⟨no_faults, -⟩ := Analysis.clean_iff.1 ⟨h.clean, rfl⟩
  obtain ⟨-, statements⟩ := Analysis.ofSource_of_no_tokens limits no_faults no_tokens
  have success := h.success
  rw [statements] at success
  cases success
  rfl

/-- **A source of two** does what the first does and then what the second does. -/
theorem executes_append (clean_a : (Analysis.ofSource limits (a ++ "\n")).problems = [])
    (clean_b : (Analysis.ofSource limits b).problems = [])
    (h : Executes limits (a ++ "\n" ++ b) m m') :
    ∃ m₁, Executes limits (a ++ "\n") m m₁ ∧ Executes limits b m₁ m' := by
  have reduces := Lexer.reduces_last_newline (Analysis.clean_iff.1 ⟨clean_a, rfl⟩).1
  obtain ⟨-, statements⟩ := Analysis.ofSource_append (reduces.problems_eq_nil clean_a) clean_b
  have success := h.success
  rw [statements, Stmt.executeAll_append, Stmt.executeAll_relocate] at success
  change EStateM.run (_ >>= _) _ = _ at success
  rw [EStateM.run_bind, EStateM.run] at success
  cases first : Stmt.executeAll limits.rounds (Analysis.ofSource limits a).statements
      limits.nesting m with
  | error halt m₁ =>
    rw [first] at success
    cases success
  | ok u m₁ =>
    rw [first] at success
    have second := Halt.relocating_eq_ok_iff.1 success
    refine ⟨m₁, ⟨clean_a, ?_⟩, clean_b, second⟩
    exact Stmt.executeAll_eq_ok_of_unlined
      (Analysis.statements_unlined limits reduces.sameButLine).symm first

end Lox
