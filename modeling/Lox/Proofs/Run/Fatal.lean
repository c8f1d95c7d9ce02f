import Lox.Proofs.Run.Outcome

/-!
# Fatal journals

With a fatal journal the first problem ends the program. Such a run is the run with a journal that
is not fatal, cut at its first problem (`Summary.CutAtFirst`), and the cut costs nothing: output
and scopes are those of the uncut run. For the problems of a source are all reported before anything
is executed, and execution stops at the first problem anyway.
-/

namespace Lox

/-- A fresh start from a workspace: no problem is recorded yet, and the first one is fatal or not. -/
def Workspace.fresh (w : Workspace) (fatal : Bool) : Workspace :=
  { w with console := { w.console with journal := { w.console.journal with fatal, errors := [] } } }

namespace Summary

/-- The second run is the first one, cut at its first problem. -/
structure CutAtFirst (tolerant fatal : Summary) : Prop where
  chain_eq : fatal.chain = tolerant.chain
  output_eq : fatal.output = tolerant.output
  /-- Without a problem there is no difference. -/
  of_no_errors : tolerant.errors = [] → fatal.errors = [] ∧ fatal.ending = tolerant.ending
  /-- The first problem is the only one, and the program exits with the status that goes with it. -/
  of_errors : ∀ d ds, tolerant.errors = d :: ds → tolerant.ending = .ok false ∧
    fatal.errors = [d] ∧ fatal.ending = .error (.exit (some d.category.exitStatus))

namespace CutAtFirst

variable {m : Machine}

/-- A run that reports nothing. -/
theorem same {ending : Except Interrupt Bool} :
    CutAtFirst ⟨ending, m.chain, m.output, []⟩ ⟨ending, m.chain, m.output, []⟩ where
  chain_eq := rfl
  output_eq := rfl
  of_no_errors _ := ⟨rfl, rfl⟩
  of_errors _ _ h := nomatch h

/-- A run that reports problems and then stops. -/
theorem stopped (d : Diagnostic) (ds : List Diagnostic) :
    CutAtFirst (.stopped false m (d :: ds)) (.stopped true m [d]) where
  chain_eq := rfl
  output_eq := rfl
  of_no_errors h := nomatch h
  of_errors e es h := by
    cases h
    exact ⟨rfl, rfl, rfl⟩

/-- An execution that fails only for reasons that the program is to blame for. -/
theorem ofExecution {result : EStateM.Result Halt Machine Unit}
    (blamed : ∀ cause m, result = .error (.failure cause) m →
      cause.diagnostic.category = .runtime) :
    CutAtFirst (.ofExecution false [] result) (.ofExecution true [] result) := by
  match result with
  | .ok () m => exact same
  | .error (.failure cause) m =>
    have runtime := blamed cause m rfl
    rw [Summary.ofExecution, Summary.ofExecution, if_pos runtime, if_pos runtime]
    exact stopped _ []
  | .error .tooDeep m => exact stopped _ []
  | .error .outOfFuel m => exact same

end CutAtFirst

end Summary

/-- **A fatal run is the run cut at its first problem.** -/
theorem summary_cutAtFirst (limits : Limits) (source : String) (w : Workspace) :
    Summary.CutAtFirst (summary limits source (w.fresh false))
      (summary limits source (w.fresh true)) := by
  cases problems : (Analysis.ofSource limits source).problems with
  | nil =>
    rw [summary_of_clean problems, summary_of_clean problems]
    exact .ofExecution fun cause m failed => category_eq_runtime_of_clean problems failed
  | cons d ds =>
    rw [summary_of_problems problems, summary_of_problems problems]
    exact .stopped (m := ⟨w.chain, w.console.out⟩) d ds

end Lox
