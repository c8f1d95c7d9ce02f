import Lox.Proofs.Eval.Output
import Lox.Proofs.Run.Outcome
import Lox.Proofs.Session.Records

/-!
# Every run is a fresh run

With a journal that is not fatal, a run does not look at what has been printed and recorded before
it. It is the run of the same source on an unused console, with the earlier output and the earlier
problems in front (`summary_after`). A session forgets the problems before each run, so that there
only the output is left in front (`Session.run_fresh`): this says all that a run of a session does.
-/

namespace Lox

/-- What is seen of a run after some output and some problems. -/
def Summary.after (output : String) (errors : List Diagnostic) (s : Summary) : Summary :=
  { s with output := output ++ s.output, errors := errors ++ s.errors }

/-- The scopes with a console on which nothing has been printed or recorded. -/
def Workspace.unused (chain : Chain) : Workspace := ⟨chain, { journal := {} }⟩

theorem Summary.stopped_after (output : String) (errors ds : List Diagnostic) (m : Machine) :
    stopped false (m.after output) (errors ++ ds) = (stopped false m ds).after output errors := rfl

theorem Summary.ofExecution_after (output : String) (errors : List Diagnostic) :
    ∀ result : EStateM.Result Halt Machine Unit,
      ofExecution false errors (match result with
        | .ok () m => .ok () (m.after output)
        | .error halt m => .error halt (m.after output)) =
      (ofExecution false [] result).after output errors
  | .ok () _ => congrArg (Summary.mk _ _ _) (List.append_nil errors).symm
  | .error (.failure cause) m => by
    simp only [ofExecution]
    split
    · exact stopped_after output errors [cause.diagnostic] m
    · exact congrArg (Summary.mk _ _ _) (List.append_nil errors).symm
  | .error .tooDeep m => stopped_after output errors [Diagnostic.tooDeep none] m
  | .error .outOfFuel _ => congrArg (Summary.mk _ _ _) (List.append_nil errors).symm

/-- **A run is a fresh run after what was printed and recorded before.** -/
theorem summary_after (limits : Limits) (source : String) {w : Workspace}
    (nonfatal : w.console.journal.fatal = false) :
    summary limits source w =
      (summary limits source (.unused w.chain)).after w.console.out w.console.journal.errors := by
  have before : Machine.mk w.chain w.console.out = Machine.after w.console.out ⟨w.chain, ""⟩ := by
    rw [Machine.after, String.append_empty]
  cases problems : (Analysis.ofSource limits source).problems with
  | nil =>
    rw [summary_of_clean problems, summary_of_clean problems, nonfatal, before,
      Stmt.executeAll_after]
    exact Summary.ofExecution_after _ _ _
  | cons d ds =>
    rw [summary_of_problems problems, summary_of_problems problems, nonfatal, before]
    exact Summary.stopped_after _ _ (d :: ds) ⟨w.chain, ""⟩

/-- A run with a journal that is not fatal has an answer, if it ends. -/
theorem ending_of_nonfatal (limits : Limits) (source : String) {w : Workspace}
    (nonfatal : w.console.journal.fatal = false) :
    (∃ answer, (summary limits source w).ending = .ok answer) ∨
      (summary limits source w).ending = .error .unfinished := by
  by_cases ends : (summary limits source w).ending = .error .unfinished
  · exact .inr ends
  · obtain ⟨answer, chain, output, recorded, outcome⟩ := run_outcome limits source w nonfatal ends
    exact .inl ⟨answer, congrArg Summary.ending (outcome.summary_eq w.console.journal.errors)⟩

/-! ### Results -/

/-- The result of an action that ends like this, in this state. -/
def endedIn {ε σ α : Type} : Except ε α → σ → EStateM.Result ε σ α
  | .ok a, s => .ok a s
  | .error e, s => .error e s

@[simp] theorem finalState_endedIn {ε σ α : Type} (ending : Except ε α) (s : σ) :
    finalState (endedIn ending s) = s := by
  cases ending <;> rfl

/-- **All that a run does**: it ends, prints and records as on an unused console, and touches
nothing else but the scopes. -/
theorem run_fresh (limits : Limits) (source : String) {w : Workspace}
    (nonfatal : w.console.journal.fatal = false) :
    let fresh := summary limits source (.unused w.chain)
    ∃ err, run limits source w = endedIn fresh.ending ⟨fresh.chain,
      ⟨w.console.journal.recordAll fresh.errors, w.console.out ++ fresh.output, err⟩⟩ := by
  intro fresh
  have seen : summary limits source w = fresh.after w.console.out w.console.journal.errors :=
    summary_after limits source nonfatal
  obtain ⟨recorded, journal, -⟩ : ∃ recorded, (finalState (run limits source w)).journal =
      w.journal.recordAll recorded ∧ ∀ d ∈ recorded, True :=
    run_records (by simp) trivial (by simp) w
  rw [summary] at seen
  cases result : run limits source w with
  | ok answer w' =>
    obtain ⟨chain, journal', out, err⟩ := w'
    rw [result] at seen journal
    obtain rfl : recorded = fresh.errors := List.append_cancel_left
      ((congrArg Journal.errors journal).symm.trans (congrArg Summary.errors seen))
    obtain rfl : chain = fresh.chain := congrArg Summary.chain seen
    obtain rfl : out = w.console.out ++ fresh.output := congrArg Summary.output seen
    obtain rfl : journal' = w.journal.recordAll fresh.errors := journal
    have ending : fresh.ending = .ok answer := (congrArg Summary.ending seen).symm
    exact ⟨err, by rw [ending]; rfl⟩
  | error interrupt w' =>
    obtain ⟨chain, journal', out, err⟩ := w'
    rw [result] at seen journal
    obtain rfl : recorded = fresh.errors := List.append_cancel_left
      ((congrArg Journal.errors journal).symm.trans (congrArg Summary.errors seen))
    obtain rfl : chain = fresh.chain := congrArg Summary.chain seen
    obtain rfl : out = w.console.out ++ fresh.output := congrArg Summary.output seen
    obtain rfl : journal' = w.journal.recordAll fresh.errors := journal
    have ending : fresh.ending = .error interrupt := (congrArg Summary.ending seen).symm
    exact ⟨err, by rw [ending]; rfl⟩

/-- **All that a run of a session does**: it keeps the source, forgets the problems of the run
before, and is a fresh run after the output of all runs before. -/
theorem Session.run_fresh (limits : Limits) (given : Option String) {s : Session}
    (nonfatal : s.journal.fatal = false) :
    let text := given.getD s.source
    let fresh := summary limits text (.unused s.workspace.chain)
    ∃ err, run limits given s = endedIn fresh.ending { s with
      source := text
      workspace := ⟨fresh.chain, ⟨{ s.journal with
        errors := fresh.errors
        source := some (s.path, text) }, s.workspace.console.out ++ fresh.output, err⟩⟩ } := by
  intro text fresh
  obtain ⟨err, eq⟩ := Lox.run_fresh limits text
    (w := (s.withJournal (s.journal.reset.register s.path text)).workspace) nonfatal
  refine ⟨err, ?_⟩
  rw [run_eq]
  show onWorkspace _ _ = endedIn fresh.ending _
  rw [onWorkspace]
  change Lox.run limits text _ = endedIn fresh.ending _ at eq
  rw [eq]
  cases fresh.ending <;> rfl

end Lox
