import Lox.Proofs.Eval.Failures
import Lox.Proofs.Parser.RoundTrip
import Lox.Proofs.Run.Summary

/-!
# The outcome of a run

A run with a journal that is not fatal comes back with an answer, if it ends at all: nothing cuts
it short. It answers yes exactly if it recorded no problem. The stages before execution and the
execution itself never both record problems, and what was recorded earlier has no influence
(`RunOutcome`, `run_outcome`).

That nothing escapes rests on the parser: the trees of a source without problems are those of the
grammar, and these can only fail for reasons that the program is to blame for.
-/

namespace Lox

namespace Analysis

/-- **What kind of problems are found without execution**: those of scanning and parsing, and
nesting over the limit. -/
theorem kind_of_mem {limits : Limits} {source : String} {d : Diagnostic}
    (mem : d ∈ (ofSource limits source).problems) :
    d.category = .lexical ∨ d.category = .grammatical ∨
      ∃ t ∈ (Parsed.ofTokens limits.nesting (Lexer.tokens source)).overflow,
        d = Diagnostic.tooDeep (some t.line) := by
  rcases List.mem_append.1 mem with lexical | found
  · obtain ⟨fault, -, rfl⟩ := List.mem_map.1 lexical
    exact .inl rfl
  rcases List.mem_append.1 found with grammatical | deep
  · obtain ⟨complaint, -, rfl⟩ := List.mem_map.1 grammatical
    exact .inr (.inl (Diagnostic.category_atToken _ _ _))
  · obtain ⟨t, exceeded, rfl⟩ := List.mem_map.1 deep
    exact .inr (.inr ⟨t, Option.mem_toList.1 exceeded, rfl⟩)

/-- No problem found without execution counts as one of execution. -/
theorem category_ne_runtime {limits : Limits} {source : String} :
    ∀ d ∈ (ofSource limits source).problems, d.category ≠ .runtime := by
  intro d mem runtime
  rcases kind_of_mem mem with lexical | grammatical | ⟨t, -, rfl⟩
  · cases lexical.symm.trans runtime
  · cases grammatical.symm.trans runtime
  · cases runtime

/-- A source without problems is a writing of its statements, and the grammar derives them. -/
theorem allWellFormed_of_clean {limits : Limits} {source : String}
    (clean : (ofSource limits source).problems = []) :
    Stmt.AllWellFormed (ofSource limits source).statements := by
  obtain ⟨-, parsed⟩ := List.append_eq_nil_iff.1 clean
  exact (Parsed.ofTokens_eq_iff.1 ⟨parsed, rfl⟩).2.1

end Analysis

/-- Replaces the recorded problems. -/
def Workspace.withErrors (w : Workspace) (errors : List Diagnostic) : Workspace :=
  { w with console := { w.console with journal := { w.console.journal with errors } } }

/-- A run of the source in the workspace answers, leaves scopes and output, and records problems
after those recorded before. -/
structure RunOutcome (limits : Limits) (source : String) (w : Workspace) (answer : Bool)
    (chain : Chain) (output : String) (recorded : List Diagnostic) : Prop where
  /-- The run comes back, whatever was recorded earlier; that stays in front and has no influence
  on the rest. -/
  summary_eq : ∀ earlier, summary limits source (w.withErrors earlier) =
    { ending := .ok answer, chain, output, errors := earlier ++ recorded }
  /-- The answer is yes exactly if no problem was recorded. -/
  answer_iff : answer = true ↔ recorded = []
  /-- Problems found by scanning and parsing are all recorded, and nothing is executed. -/
  of_problems : (Analysis.ofSource limits source).problems ≠ [] →
    answer = false ∧ chain = w.chain ∧ output = w.console.out
      ∧ recorded = (Analysis.ofSource limits source).problems
      ∧ ∀ d ∈ recorded, d.category ≠ .runtime
  /-- Otherwise execution records at most one problem. -/
  of_clean : (Analysis.ofSource limits source).problems = [] →
    recorded.length ≤ 1 ∧ ∀ d ∈ recorded, d.category = .runtime ∨ d = Diagnostic.tooDeep none

/-- A failure of a source without problems is one that the program is to blame for. -/
theorem category_eq_runtime_of_clean {limits : Limits} {source : String} {m m' : Machine}
    {cause : Failure} (clean : (Analysis.ofSource limits source).problems = [])
    (failed : Stmt.executeAll limits.rounds (Analysis.ofSource limits source).statements
      limits.nesting m = .error (.failure cause) m') :
    cause.diagnostic.category = .runtime := by
  have executable := (Analysis.allWellFormed_of_clean clean).executable
  exact (Stmt.executeAll_failsOnly limits.rounds executable limits.nesting failed).category_eq

theorem outcome_of_problems {limits : Limits} {source : String} {w : Workspace}
    (nonfatal : w.console.journal.fatal = false)
    (found : (Analysis.ofSource limits source).problems ≠ []) :
    RunOutcome limits source w false w.chain w.console.out
      (Analysis.ofSource limits source).problems where
  summary_eq earlier := by
    obtain ⟨d, ds, eq⟩ := List.exists_cons_of_ne_nil found
    have nonfatal_earlier : (w.withErrors earlier).console.journal.fatal = false := nonfatal
    rw [summary_of_problems eq, nonfatal_earlier, eq]
    rfl
  answer_iff := by simpa using found
  of_problems _ := ⟨rfl, rfl, rfl, rfl, Analysis.category_ne_runtime⟩
  of_clean clean := absurd clean found

theorem outcome_of_clean {limits : Limits} {source : String} {w : Workspace}
    (nonfatal : w.console.journal.fatal = false)
    (ends : (summary limits source w).ending ≠ .error .unfinished)
    (clean : (Analysis.ofSource limits source).problems = []) :
    ∃ answer chain output recorded, RunOutcome limits source w answer chain output recorded := by
  -- what was recorded earlier has no part in the execution
  have executed (earlier : List Diagnostic) : summary limits source (w.withErrors earlier) =
      .ofExecution false earlier (Stmt.executeAll limits.rounds
        (Analysis.ofSource limits source).statements limits.nesting ⟨w.chain, w.console.out⟩) := by
    have nonfatal_earlier : (w.withErrors earlier).console.journal.fatal = false := nonfatal
    rw [summary_of_clean clean, nonfatal_earlier]
    rfl
  cases result : Stmt.executeAll limits.rounds (Analysis.ofSource limits source).statements
      limits.nesting ⟨w.chain, w.console.out⟩ with
  | ok u m =>
    refine ⟨true, m.chain, m.output, [], ?_, by simp, fun found => absurd clean found, by simp⟩
    intro earlier
    rw [executed, result, List.append_nil]
    rfl
  | error halt m =>
    cases halt with
    | failure cause =>
      have runtime := category_eq_runtime_of_clean clean result
      refine ⟨false, m.chain, m.output, [cause.diagnostic], ?_, by simp,
        fun found => absurd clean found, by simp [runtime]⟩
      intro earlier
      rw [executed, result, Summary.ofExecution, if_pos runtime]
      rfl
    | tooDeep =>
      refine ⟨false, m.chain, m.output, [Diagnostic.tooDeep none], ?_, by simp,
        fun found => absurd clean found, by simp⟩
      intro earlier
      rw [executed, result]
      rfl
    | outOfFuel =>
      have unfinished := executed w.console.journal.errors
      rw [result] at unfinished
      exact absurd (congrArg Summary.ending unfinished) ends

/-- **The outcome of a run.** With a journal that is not fatal, every run that ends comes back with
an answer, which tells whether it recorded no problem. Problems recorded earlier stay in front and
do not matter; a source with problems is not executed; and execution stops at its first problem. -/
theorem run_outcome (limits : Limits) (source : String) (w : Workspace)
    (nonfatal : w.console.journal.fatal = false)
    (ends : (summary limits source w).ending ≠ .error .unfinished) :
    ∃ answer chain output recorded, RunOutcome limits source w answer chain output recorded := by
  by_cases clean : (Analysis.ofSource limits source).problems = []
  · exact outcome_of_clean nonfatal ends clean
  · exact ⟨_, _, _, _, outcome_of_problems nonfatal clean⟩

/-- An assignment in a block that then fails, after an earlier problem. -/
theorem run_outcome_block :
    let source := "var a; \x7b a = \"s\"; print a; -a; \x7d"
    let w : Workspace :=
      ⟨.global, { journal := { errors := [Diagnostic.tooDeep none] } }⟩
    w.console.journal.fatal = false
      ∧ (summary ⟨9, 9⟩ source w).ending ≠ .error .unfinished
      ∧ ∃ answer chain output recorded, RunOutcome ⟨9, 9⟩ source w answer chain output recorded := by
  intro source w
  have ends : (summary ⟨9, 9⟩ source w).ending ≠ .error .unfinished := by
    have answer : (summary ⟨9, 9⟩ source w).ending = .ok false := by decide +kernel
    rw [answer]
    exact fun h => nomatch h
  exact ⟨rfl, ends, run_outcome ⟨9, 9⟩ source w rfl ends⟩

end Lox
