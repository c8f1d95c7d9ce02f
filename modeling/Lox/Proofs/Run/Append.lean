import Lox.Proofs.Eval.Relocate
import Lox.Proofs.Run.Outcome

/-!
# Running sources one after another

Two sources without problems make one, with a line break between them. Running it is running the
one and then the other in the scopes that the first left behind (`summary_append`): no token
reaches over the line break, no statement of the first source goes on in the second, and execution
goes through the statements in order. Only the lines of the second source's failure are further
down.
-/

namespace Lox

open Lexer (lineBreaks)

/-! ### Scanning and parsing -/

/-- The parser sees all tokens of a source but the end. -/
theorem Parsed.body_tokens (source : String) :
    body (Lexer.tokens source) = (Lexer.tokens source).dropLast := by
  obtain ⟨ts, ne, eq⟩ := Lexer.tokens_eq_append_eof source
  rw [eq, body_append_eof ne rfl, List.dropLast_concat]

theorem Stmt.allWellFormed_append {ss rs : List Stmt} (hss : AllWellFormed ss)
    (hrs : AllWellFormed rs) : AllWellFormed (ss ++ rs) := by
  rw [allWellFormed_iff] at *
  exact List.forall_mem_append.2 ⟨hss, hrs⟩

namespace Analysis

variable {limits : Limits} {a b : String}

/-- A source has no problems exactly if scanning finds no fault and its tokens are a writing of its
statements, which the grammar derives within the limit. -/
theorem clean_iff {source : String} {ss : List Stmt} :
    (ofSource limits source).problems = [] ∧ (ofSource limits source).statements = ss ↔
      Lexer.faults source = []
        ∧ List.Forall₂ Symbol.Fits (Stmt.flattenAll ss) (Lexer.tokens source).dropLast
        ∧ Stmt.AllWellFormed ss ∧ Stmt.nestingAll ss ≤ limits.nesting := by
  rw [← Parsed.body_tokens, ← Parsed.ofTokens_eq_iff]
  simp [ofSource, Lexer.diagnostics, and_assoc]

/-- **Sources without problems glued at a line break** have no problem either, and the statements
of both in order, those of the second on later lines. -/
theorem ofSource_append (ha : (ofSource limits a).problems = [])
    (hb : (ofSource limits b).problems = []) :
    (ofSource limits (a ++ "\n" ++ b)).problems = [] ∧
      (ofSource limits (a ++ "\n" ++ b)).statements =
        (ofSource limits a).statements
          ++ Stmt.mapAll (Token.relocate (· + (1 + lineBreaks a)))
            (ofSource limits b).statements := by
  obtain ⟨faults_a, fits_a, wellFormed_a, within_a⟩ := clean_iff.1 ⟨ha, rfl⟩
  obtain ⟨faults_b, fits_b, wellFormed_b, within_b⟩ := clean_iff.1 ⟨hb, rfl⟩
  have closed : ∀ f ∈ Lexer.faults a, f.cause ≠ .unterminated := by
    rw [faults_a]
    exact fun f mem => nomatch mem
  have keeps (t : Token) := Token.kind_relocate (· + (1 + (lineBreaks a : Int))) t
  refine clean_iff.2 ⟨?_, ?_, ?_, ?_⟩
  · rw [Lexer.faults_append_newline closed, faults_a, faults_b]
    rfl
  · have tail_ne : (Lexer.tokens b).map (Token.relocate (· + (1 + (lineBreaks a : Int)))) ≠ [] := by
      rw [ne_eq, List.map_eq_nil_iff]
      exact Lexer.tokens_ne_nil b
    rw [Lexer.tokens_append_newline closed, List.dropLast_append_of_ne_nil tail_ne,
      ← List.map_dropLast, Stmt.flattenAll_append, Stmt.flattenAll_map]
    exact List.rel_append fits_a (forall₂_fits_map keeps fits_b)
  · exact Stmt.allWellFormed_append wellFormed_a (wellFormed_b.map keeps)
  · rw [Stmt.nestingAll_append, Stmt.nestingAll_map]
    exact Nat.max_le.2 ⟨within_a, within_b⟩

end Analysis

/-! ### Execution -/

/-- Executing statements and then others is executing the one list after the other. -/
theorem Stmt.executeAll_append (fuel : Nat) (ss rs : List Stmt) (depth : Nat) :
    executeAll fuel (ss ++ rs) depth =
      (executeAll fuel ss depth >>= fun _ => executeAll fuel rs depth) := by
  induction ss with
  | nil => rfl
  | cons s ss ih => rw [List.cons_append, executeAll, executeAll, ih, bind_assoc]

/-- A run that succeeds found no problem and executed all its statements. -/
theorem executed_of_run {limits : Limits} {source : String} {w w' : Workspace}
    (success : run limits source w = .ok true w') :
    (Analysis.ofSource limits source).problems = [] ∧
      ∃ m, Stmt.executeAll limits.rounds (Analysis.ofSource limits source).statements
          limits.nesting ⟨w.chain, w.console.out⟩ = .ok () m
        ∧ w' = ⟨m.chain, { w.console with out := m.output }⟩ := by
  have answer : (summary limits source w).ending = .ok true := by rw [summary, success]; rfl
  have clean : (Analysis.ofSource limits source).problems = [] := by
    cases found : (Analysis.ofSource limits source).problems with
    | nil => rfl
    | cons d ds =>
      rw [summary_of_problems found] at answer
      exact absurd answer (Summary.ending_stopped_ne _ _ _)
  refine ⟨clean, ?_⟩
  rw [summary_of_clean clean] at answer
  rw [run_of_clean clean, execute] at success
  cases result : Stmt.executeAll limits.rounds (Analysis.ofSource limits source).statements
      limits.nesting ⟨w.chain, w.console.out⟩ with
  | ok u m =>
    rw [result] at success
    cases success
    exact ⟨m, rfl, rfl⟩
  | error halt m =>
    rw [result] at answer
    exact absurd answer (Summary.ending_ofExecution_error_ne _ _ _ _)

/-! ### Summaries -/

theorem Journal.exitStatus_relocate (g : Int → Int) (errors : List Diagnostic) (d : Diagnostic) :
    exitStatus { errors := errors ++ [d.relocate g] } = exitStatus { errors := errors ++ [d] } := by
  cases errors <;> rfl

/-- What is seen of a moved execution: the problem that it recorded, if any, is on its new line. -/
theorem Summary.ofExecution_relocating (g : Int → Int) (fatal : Bool) (errors : List Diagnostic)
    {action : EStateM Halt Machine Unit} {m : Machine}
    (own : ∀ cause m', action m = .error (.failure cause) m' →
      cause.diagnostic.category = .runtime) :
    ∃ recorded, (ofExecution fatal errors (action m)).errors = errors ++ recorded ∧
      ofExecution fatal errors (Halt.relocating g action m) =
        { ofExecution fatal errors (action m) with
          errors := errors ++ recorded.map (Diagnostic.relocate g) } := by
  rw [Halt.relocating_apply]
  cases result : action m with
  | ok u m' => exact ⟨[], (List.append_nil _).symm, by simp [ofExecution]⟩
  | error halt m' =>
    cases halt with
    | failure cause =>
      have runtime := own cause m' result
      have moved : (cause.relocate g).diagnostic = cause.diagnostic.relocate g :=
        cause.diagnostic_relocate
      refine ⟨[cause.diagnostic], ?_, ?_⟩
      · rw [ofExecution, if_pos runtime]
        rfl
      · simp only [Halt.relocate, ofExecution, moved, Diagnostic.category_relocate, if_pos runtime,
          stopped, Journal.exitStatus_relocate, List.map_cons, List.map_nil]
    | tooDeep => exact ⟨[Diagnostic.tooDeep none], rfl, rfl⟩
    | outOfFuel => exact ⟨[], (List.append_nil _).symm, by simp [ofExecution, Halt.relocate]⟩

/-- **Running one after another is running at once.** If the first source succeeds and the second
has no problem of scanning or parsing, then running the two with a line break between them ends as
the second does in the workspace that the first leaves behind, with the same scopes and the same
output. The problem that it records, if there is one, is the same but for its line. -/
theorem summary_append (limits : Limits) (a b : String) (w w₁ : Workspace)
    (first : run limits a w = .ok true w₁)
    (clean : (Analysis.ofSource limits b).problems = []) :
    ∃ recorded, (summary limits b w₁).errors = w.console.journal.errors ++ recorded ∧
      summary limits (a ++ "\n" ++ b) w =
        { summary limits b w₁ with
          errors := w.console.journal.errors
            ++ recorded.map (Diagnostic.relocate (· + (1 + lineBreaks a))) } := by
  obtain ⟨clean_a, m, executed, rfl⟩ := executed_of_run first
  obtain ⟨clean_both, statements⟩ := Analysis.ofSource_append clean_a clean
  -- the statements of the first source leave the machine `m`, where those of the second start
  have both : Stmt.executeAll limits.rounds (Analysis.ofSource limits (a ++ "\n" ++ b)).statements
      limits.nesting ⟨w.chain, w.console.out⟩ =
      Halt.relocating (· + (1 + (lineBreaks a : Int))) (Stmt.executeAll limits.rounds
        (Analysis.ofSource limits b).statements limits.nesting) m := by
    rw [statements, Stmt.executeAll_append]
    show EStateM.run (_ >>= _) _ = _
    rw [EStateM.run_bind, EStateM.run, executed]
    exact congrFun (Stmt.executeAll_relocate _ _ _) m
  rw [summary_of_clean clean_both, summary_of_clean clean, both]
  exact Summary.ofExecution_relocating _ _ _ fun cause m' => category_eq_runtime_of_clean clean

/-- The second source assigns what the first declared, on its second line, and then fails. -/
theorem summary_append_assignment :
    let a := "var a;\nif (a) print a;"
    let b := "\na = \"s\"; print a; -a;"
    let w : Workspace := ⟨.global, { journal := {} }⟩
    let w₁ : Workspace := ⟨Chain.global.define "a" .nil, { journal := {} }⟩
    run ⟨9, 9⟩ a w = .ok true w₁ ∧ (Analysis.ofSource ⟨9, 9⟩ b).problems = [] ∧
      ∃ recorded, (summary ⟨9, 9⟩ b w₁).errors = w.console.journal.errors ++ recorded ∧
        summary ⟨9, 9⟩ (a ++ "\n" ++ b) w =
          { summary ⟨9, 9⟩ b w₁ with
            errors := w.console.journal.errors
              ++ recorded.map (Diagnostic.relocate (· + (1 + lineBreaks a))) } := by
  intro a b w w₁
  have first : run ⟨9, 9⟩ a w = .ok true w₁ := by
    have computed : (match run ⟨9, 9⟩ a w with
      | .ok true w' => decide (w' = w₁)
      | _ => false) = true := by
      decide +kernel
    split at computed
    next result => rw [result, of_decide_eq_true computed]
    next => cases computed
  have clean : (Analysis.ofSource ⟨9, 9⟩ b).problems = [] := by decide +kernel
  exact ⟨first, clean, summary_append ⟨9, 9⟩ a b w w₁ first clean⟩

end Lox
