import Lox.Run

/-!
# What is seen of a run

The user of a run sees how it ended, the scopes, what was printed, and the recorded problems. A
`Summary` holds these four. The text of the reports on the error stream is left out.

The two laws below say what a summary is: if the source has problems, they are reported and nothing
else happens (`summary_of_problems`); if it has none, the summary is that of executing its
statements (`summary_of_clean`). They hold for every journal, also for a fatal one.
-/

namespace Lox

/-! ### Reporting -/

/-- The console after a report. -/
def Console.reported (c : Console) (d : Diagnostic) : Console :=
  { c with
    journal := c.journal.record d
    err := c.err ++ if c.journal.echo then c.journal.reportText d false else "" }

namespace Interaction

/-- **One report**: the problem is recorded and printed, and a fatal journal ends the program. -/
theorem report_eq (d : Diagnostic) (c : Console) :
    report d false c =
      if c.journal.fatal then .error (.exit (some (c.journal.record d).exitStatus)) (c.reported d)
      else .ok () (c.reported d) := by
  obtain ⟨⟨fatal, echo, styled, errors, source⟩, out, err⟩ := c
  cases echo with
  | true => cases fatal <;> rfl
  | false =>
    have silent : (Console.mk ⟨fatal, false, styled, errors, source⟩ out err).reported d =
        ⟨⟨fatal, false, styled, errors ++ [d], source⟩, out, err⟩ := by
      simp [Console.reported, Journal.record]
    rw [silent]
    cases fatal <;> rfl

/-- With a journal that is not fatal all problems are reported. -/
theorem reportAll_of_nonfatal {c : Console} (nonfatal : c.journal.fatal = false)
    (ds : List Diagnostic) : reportAll ds c = .ok () (ds.foldl Console.reported c) := by
  induction ds generalizing c with
  | nil => rfl
  | cons d ds ih =>
    have first : (report d).run c = .ok () (c.reported d) := by
      rw [EStateM.run, report_eq, nonfatal]
      rfl
    show (report d >>= fun _ => reportAll ds).run c = _
    rw [EStateM.run_bind, first]
    exact ih nonfatal

/-- With a fatal journal only the first problem is reported. -/
theorem reportAll_of_fatal {c : Console} (fatal : c.journal.fatal = true) (d : Diagnostic)
    (ds : List Diagnostic) :
    reportAll (d :: ds) c =
      .error (.exit (some (c.journal.record d).exitStatus)) (c.reported d) := by
  have first : (report d).run c =
      .error (.exit (some (c.journal.record d).exitStatus)) (c.reported d) := by
    rw [EStateM.run, report_eq, fatal]
    rfl
  show (report d >>= fun _ => reportAll ds).run c = _
  rw [EStateM.run_bind, first]

/-- Reports change nothing but the problems and the error stream. -/
theorem errors_reportedAll (ds : List Diagnostic) (c : Console) :
    (ds.foldl Console.reported c).journal.errors = c.journal.errors ++ ds := by
  induction ds generalizing c with
  | nil => simp
  | cons d ds ih => rw [List.foldl_cons, ih]; simp [Console.reported]

theorem out_reportedAll (ds : List Diagnostic) (c : Console) :
    (ds.foldl Console.reported c).out = c.out := by
  induction ds generalizing c with
  | nil => rfl
  | cons d ds ih => exact ih _

theorem fatal_reportedAll (ds : List Diagnostic) (c : Console) :
    (ds.foldl Console.reported c).journal.fatal = c.journal.fatal := by
  induction ds generalizing c with
  | nil => rfl
  | cons d ds ih => exact ih _

end Interaction

/-! ### Summaries -/

/-- How a run ended and what it left behind, but for the error stream. -/
structure Summary where
  /-- The answer, or what cut the run short. -/
  ending : Except Interrupt Bool
  chain : Chain
  output : String
  errors : List Diagnostic

namespace Summary

/-- What is seen of a result. -/
def ofResult : EStateM.Result Interrupt Workspace Bool → Summary
  | .ok answer w => ⟨.ok answer, w.chain, w.console.out, w.console.journal.errors⟩
  | .error interrupt w => ⟨.error interrupt, w.chain, w.console.out, w.console.journal.errors⟩

/-- A run that has just reported the last of its problems: it answers no, or leaves the program if
the journal is fatal. -/
def stopped (fatal : Bool) (m : Machine) (errors : List Diagnostic) : Summary :=
  ⟨if fatal then .error (.exit (some (Journal.exitStatus { errors }))) else .ok false,
    m.chain, m.output, errors⟩

/-- What is seen of an execution that began with these problems recorded. -/
def ofExecution (fatal : Bool) (errors : List Diagnostic) :
    EStateM.Result Halt Machine Unit → Summary
  | .ok () m => ⟨.ok true, m.chain, m.output, errors⟩
  | .error (.failure cause) m =>
    if cause.diagnostic.category = .runtime then stopped fatal m (errors ++ [cause.diagnostic])
    else ⟨.error (.error cause.diagnostic), m.chain, m.output, errors⟩
  | .error .tooDeep m => stopped fatal m (errors ++ [Diagnostic.tooDeep none])
  | .error .outOfFuel m => ⟨.error .unfinished, m.chain, m.output, errors⟩

theorem ending_stopped_ne (fatal : Bool) (m : Machine) (errors : List Diagnostic) :
    (stopped fatal m errors).ending ≠ .ok true := by
  cases fatal <;> exact fun h => nomatch h

/-- An execution that halts is not answered with yes. -/
theorem ending_ofExecution_error_ne (fatal : Bool) (errors : List Diagnostic) (halt : Halt)
    (m : Machine) : (ofExecution fatal errors (.error halt m)).ending ≠ .ok true := by
  cases halt with
  | failure cause =>
    rw [ofExecution]
    split
    · exact ending_stopped_ne _ _ _
    · exact fun h => nomatch h
  | tooDeep => exact ending_stopped_ne _ _ _
  | outOfFuel => exact fun h => nomatch h

end Summary

/-- What is seen of running a source. -/
def summary (limits : Limits) (source : String) (w : Workspace) : Summary :=
  .ofResult (run limits source w)

/-- Reporting one problem and answering no. -/
theorem ofResult_report (d : Diagnostic) (w : Workspace) :
    Summary.ofResult (Workspace.liftConsole (do Interaction.report d; return false) w) =
      .stopped w.console.journal.fatal ⟨w.chain, w.console.out⟩
        (w.console.journal.errors ++ [d]) := by
  have result : (do Interaction.report d; return false : Interaction Bool) w.console =
      if w.console.journal.fatal then
        .error (.exit (some (w.console.journal.record d).exitStatus)) (w.console.reported d)
      else .ok false (w.console.reported d) := by
    show (Interaction.report d >>= fun _ => pure false).run w.console = _
    rw [EStateM.run_bind, EStateM.run, Interaction.report_eq]
    cases w.console.journal.fatal <;> rfl
  rw [Workspace.liftConsole, result]
  unfold Summary.stopped
  cases w.console.journal.fatal <;> rfl

/-- **A source with problems** is not executed: all its problems are reported, or the first if the
journal is fatal. -/
theorem summary_of_problems {limits : Limits} {source : String} {d : Diagnostic}
    {ds : List Diagnostic} (h : (Analysis.ofSource limits source).problems = d :: ds)
    (w : Workspace) :
    summary limits source w =
      .stopped w.console.journal.fatal ⟨w.chain, w.console.out⟩ (w.console.journal.errors
        ++ if w.console.journal.fatal then [d] else d :: ds) := by
  rw [summary, run, h]
  show Summary.ofResult ((Workspace.liftConsole (Interaction.reportAll (d :: ds)) >>=
    fun _ => pure false).run w) = _
  rw [EStateM.run_bind, EStateM.run, Workspace.liftConsole]
  cases fatal : w.console.journal.fatal with
  | true =>
    rw [Interaction.reportAll_of_fatal fatal]
    rfl
  | false =>
    rw [Interaction.reportAll_of_nonfatal fatal]
    show Summary.mk _ _ _ _ = _
    rw [Interaction.errors_reportedAll, Interaction.out_reportedAll]
    rfl

theorem run_of_clean {limits : Limits} {source : String}
    (h : (Analysis.ofSource limits source).problems = []) :
    run limits source = execute limits (Analysis.ofSource limits source).statements := by
  funext w
  rw [run, h]
  rfl

/-- **A source without problems** is executed. -/
theorem summary_of_clean {limits : Limits} {source : String}
    (h : (Analysis.ofSource limits source).problems = []) (w : Workspace) :
    summary limits source w =
      .ofExecution w.console.journal.fatal w.console.journal.errors
        (Stmt.executeAll limits.rounds (Analysis.ofSource limits source).statements limits.nesting
          ⟨w.chain, w.console.out⟩) := by
  rw [summary, run_of_clean h, execute]
  cases result : Stmt.executeAll limits.rounds (Analysis.ofSource limits source).statements
      limits.nesting ⟨w.chain, w.console.out⟩ with
  | ok u m => rfl
  | error halt m =>
    cases halt with
    | failure cause =>
      rw [Summary.ofExecution]
      simp only [Halt.conclude]
      split
      · exact ofResult_report _ ⟨m.chain, { w.console with out := m.output }⟩
      · rfl
    | tooDeep => exact ofResult_report _ ⟨m.chain, { w.console with out := m.output }⟩
    | outOfFuel => rfl

end Lox
