import Lox.Proofs.CommandLine.Listing

/-!
# The exit status of a script

The status of the program tells how its script went. A script that is run prints what its
statements print, and the status names the first problem (`Ran`); one that is only shown is
`Listed`. Either way the program comes back with a status, unless the script does not end
(`perform_script`).
-/

namespace Lox

/-! ### Running a script -/

/-- A run whose summary has an answer comes back with it. -/
theorem run_eq_ok_of_summary {limits : Limits} {source : String} {w : Workspace} {answer : Bool}
    {m : Machine} {errors : List Diagnostic}
    (h : summary limits source w = ⟨.ok answer, m.chain, m.output, errors⟩) :
    ∃ w', run limits source w = .ok answer w' ∧ w'.chain = m.chain ∧ w'.console.out = m.output ∧
      w'.console.journal.errors = errors := by
  rw [summary] at h
  cases result : run limits source w with
  | error interrupt w' =>
    rw [result] at h
    cases congrArg Summary.ending h
  | ok answer' w' =>
    rw [result] at h
    cases congrArg Summary.ending h
    exact ⟨w', rfl, congrArg Summary.chain h, congrArg Summary.output h, congrArg Summary.errors h⟩

namespace CommandLine

/-- Executing the statements of a script, after some output. -/
def executed (limits : Limits) (text output : String) : EStateM.Result Halt Machine Unit :=
  Stmt.executeAll limits.rounds (Analysis.ofSource limits text).statements limits.nesting
    ⟨.global, output⟩

/-- The problem that an execution reports, if any. -/
def haltProblem? : EStateM.Result Halt Machine Unit → Option Diagnostic
  | .error (.failure cause) _ => some cause.diagnostic
  | .error .tooDeep _ => some (Diagnostic.tooDeep none)
  | _ => none

/-- What a run of a script reports: the problems of the source, or else that of its execution. -/
def reports (limits : Limits) (text output : String) : List Diagnostic :=
  if (Analysis.ofSource limits text).problems = [] then
    (haltProblem? (executed limits text output)).toList
  else (Analysis.ofSource limits text).problems

/-- How the program ends on a script that it runs. -/
structure Ran (limits : Limits) (path text : String) (console console' : Console) (status : Nat) :
    Prop where
  /-- What is printed is what the statements print, if they are executed at all. -/
  out_eq : console'.out = if (Analysis.ofSource limits text).problems = []
    then (finalState (executed limits text console.out)).output else console.out
  errors_eq : console'.journal.errors = reports limits text console.out
  eq_zero_iff : status = 0 ↔ console'.journal.errors = []
  eq_65_iff : status = 65 ↔
    ∃ d ∈ console'.journal.errors.head?, d.category = .lexical ∨ d.category = .grammatical
  /-- Then nothing was executed. -/
  of_eq_65 : status = 65 → console'.out = console.out ∧
    (finalState (process limits .run (opened path text console))).workspace.chain = .global
  eq_70_iff : status = 70 ↔ (Analysis.ofSource limits text).problems = [] ∧
    ∃ cause m, executed limits text console.out = .error (.failure cause) m
  eq_one_iff : status = 1 ↔ ∃ d ∈ console'.journal.errors.head?, ∃ n, d = Diagnostic.tooDeep n

section Run

variable {limits : Limits} {path text : String} {console : Console}

/-- The workspace in which a script is run. -/
def runWorkspace (path text : String) (console : Console) : Workspace :=
  ((opened path text console).withJournal
    ((opened path text console).journal.reset.register path text)).workspace

theorem process_run_eq :
    process limits .run (opened path text console) =
      match run limits text (runWorkspace path text console) with
      | .ok _ w => .ok () { opened path text console with workspace := w }
      | .error interrupt w => .error interrupt { opened path text console with workspace := w } := by
  have session : Session.run limits none (opened path text console) = Session.onWorkspace
      (Lox.run limits text) { opened path text console with
        workspace := runWorkspace path text console } :=
    Session.run_eq limits none _
  show (Session.run limits none >>= fun _ => pure ()).run (opened path text console) = _
  rw [EStateM.run_bind, EStateM.run, session, Session.onWorkspace]
  cases run limits text (runWorkspace path text console) <;> rfl

/-- The execution of a source without problems runs out of rounds, or it is summed up by its machine
and by the problem that it reports. -/
theorem ofExecution_executed (clean : (Analysis.ofSource limits text).problems = [])
    (output : String) :
    (∃ m, executed limits text output = .error .outOfFuel m) ∨
      ∃ answer, Summary.ofExecution false [] (executed limits text output) =
        ⟨.ok answer, (finalState (executed limits text output)).chain,
          (finalState (executed limits text output)).output,
          (haltProblem? (executed limits text output)).toList⟩ := by
  match result : executed limits text output with
  | .ok () m => exact .inr ⟨true, rfl⟩
  | .error (.failure cause) m =>
    refine .inr ⟨false, ?_⟩
    rw [Summary.ofExecution, if_pos (category_eq_runtime_of_clean clean result)]
    rfl
  | .error .tooDeep m => exact .inr ⟨false, rfl⟩
  | .error .outOfFuel m => exact .inl ⟨m, rfl⟩

/-- **Running a script**: either it does not end, or it comes back with what its statements print
and the problems of the source or else that of its execution. -/
theorem process_run
    (ends : ∀ s, process limits .run (opened path text console) ≠ .error .unfinished s) :
    ∃ s', process limits .run (opened path text console) = .ok () s' ∧
      (s'.workspace.console.out = if (Analysis.ofSource limits text).problems = []
        then (finalState (executed limits text console.out)).output else console.out) ∧
      s'.journal.errors = reports limits text console.out ∧
      ((Analysis.ofSource limits text).problems ≠ [] → s'.workspace.chain = .global) := by
  -- the state of the session after a run that answers
  have answered {answer : Bool} {m : Machine} {errors : List Diagnostic}
      (seen : summary limits text (runWorkspace path text console) =
        ⟨.ok answer, m.chain, m.output, errors⟩) :
      ∃ s', process limits .run (opened path text console) = .ok () s' ∧
        s'.workspace.console.out = m.output ∧ s'.journal.errors = errors ∧
        s'.workspace.chain = m.chain := by
    obtain ⟨w', result, chain, out, recorded⟩ := run_eq_ok_of_summary seen
    exact ⟨_, by rw [process_run_eq, result], out, recorded, chain⟩
  rw [reports]
  cases problems : (Analysis.ofSource limits text).problems with
  | cons d ds =>
    obtain ⟨s', result, out, errors, chain⟩ := answered (m := ⟨.global, console.out⟩)
      (summary_of_problems problems _)
    exact ⟨s', result, out, errors, fun _ => chain⟩
  | nil =>
    have seen := summary_of_clean problems (runWorkspace path text console)
    change summary limits text (runWorkspace path text console) =
      .ofExecution false [] (executed limits text console.out) at seen
    rw [if_pos rfl, if_pos rfl]
    rcases ofExecution_executed problems console.out with ⟨m, result⟩ | ⟨answer, result⟩
    · rw [result, summary] at seen
      refine absurd ?_ (ends { opened path text console with
        workspace := finalState (run limits text (runWorkspace path text console)) })
      rw [process_run_eq]
      cases ran : run limits text (runWorkspace path text console) with
      | ok answer w =>
        rw [ran] at seen
        cases congrArg Summary.ending seen
      | error interrupt w =>
        rw [ran] at seen
        cases congrArg Summary.ending seen
        rfl
    · obtain ⟨s', result, out, errors, -⟩ := answered (seen.trans result)
      exact ⟨s', result, out, errors, fun found => absurd rfl found⟩

/-- **The first report** is a problem of the source, or it is a failure of the execution of a source
without problems, or such an execution nests too deep. -/
theorem head_reports {output : String} {d : Diagnostic}
    (head : d ∈ (reports limits text output).head?) :
    d ∈ (Analysis.ofSource limits text).problems ∨
      (Analysis.ofSource limits text).problems = [] ∧
        (d.category = .runtime ∧
          (∃ cause m, executed limits text output = .error (.failure cause) m) ∨
        d = Diagnostic.tooDeep none) := by
  have mem := List.mem_of_mem_head? head
  rw [reports] at mem
  split at mem
  next clean =>
    refine .inr ⟨clean, ?_⟩
    match result : executed limits text output with
    | .ok () m | .error .outOfFuel m =>
      rw [result] at mem
      cases mem
    | .error .tooDeep m =>
      rw [result] at mem
      exact .inr (List.mem_singleton.1 mem)
    | .error (.failure cause) m =>
      rw [result] at mem
      refine .inl ⟨?_, cause, m, rfl⟩
      rw [List.mem_singleton.1 mem]
      exact category_eq_runtime_of_clean clean result
  next => exact .inl mem

theorem isStaged_of_head_reports {output : String} {d : Diagnostic}
    (head : d ∈ (reports limits text output).head?) : d.IsStaged := by
  rcases head_reports head with mem | ⟨-, ⟨runtime, -⟩ | rfl⟩
  · exact Analysis.isStaged_of_mem mem
  · exact .inr (.inr (.inl runtime))
  · exact .inr (.inr (.inr ⟨none, rfl⟩))

/-- Problems of scanning or parsing are reported only where nothing is executed. -/
theorem problems_ne_nil_of_head_reports {output : String} {d : Diagnostic}
    (head : d ∈ (reports limits text output).head?)
    (kind : d.category = .lexical ∨ d.category = .grammatical) :
    (Analysis.ofSource limits text).problems ≠ [] := by
  rcases head_reports head with mem | ⟨-, ⟨runtime, -⟩ | rfl⟩
  · exact List.ne_nil_of_mem mem
  · rcases kind with kind | kind <;> cases kind.symm.trans runtime
  · rcases kind with kind | kind <;> cases kind

/-- Failures are reported only by the execution of a source without problems. -/
theorem exists_runtime_head_reports {output : String} :
    (∃ d ∈ (reports limits text output).head?, d.category = .runtime) ↔
      (Analysis.ofSource limits text).problems = [] ∧
        ∃ cause m, executed limits text output = .error (.failure cause) m := by
  constructor
  · rintro ⟨d, head, runtime⟩
    rcases head_reports head with mem | ⟨clean, ⟨-, failed⟩ | rfl⟩
    · exact absurd runtime (Analysis.category_ne_runtime d mem)
    · exact ⟨clean, failed⟩
    · cases runtime
  · rintro ⟨clean, cause, m, failed⟩
    refine ⟨cause.diagnostic, ?_, category_eq_runtime_of_clean clean failed⟩
    rw [reports, if_pos clean, failed]
    rfl

end Run

section Script

variable {limits : Limits} {r : Request} {path text input : String}
  {contents : Option (List UInt8)} {console : Console}

theorem perform_ran (file : r.file = some path) (readable : Readable path contents text)
    (runs : r.mode = .run)
    (ends : ∀ c, perform limits (.request r) contents input console ≠ .error .unfinished c) :
    ∃ (status : Nat) (console' : Console),
      perform limits (.request r) contents input console = .ok status console' ∧
        Ran limits path text console console' status := by
  have ends' (s) : process limits .run (opened path text console) ≠ .error .unfinished s := by
    intro result
    refine ends s.workspace.console ?_
    rw [perform_eq file readable, runs, result]
    rfl
  obtain ⟨s', result, out, errors, chain⟩ := process_run ends'
  refine ⟨_, _, perform_of_processed file readable (runs ▸ result), ?_⟩
  -- the status is that of the first report, and tells its kind
  have status_iff {status : Nat} (ne_zero : status ≠ 0) {P : Diagnostic → Prop}
      (kind : ∀ d : Diagnostic, d.IsStaged → (d.category.exitStatus = status ↔ P d)) :
      s'.journal.exitStatus = status ↔ ∃ d ∈ s'.journal.errors.head?, P d := by
    rw [Journal.exitStatus_eq_iff ne_zero, errors]
    exact exists_congr fun d => and_congr_right fun head => kind d (isStaged_of_head_reports head)
  have status_65 := status_iff (by decide) fun d staged => staged.exitStatus_iff.1
  have status_70 := status_iff (by decide) fun d staged => staged.exitStatus_iff.2.1
  have status_1 := status_iff (by decide) fun d staged => staged.exitStatus_iff.2.2
  refine ⟨out, errors, Journal.exitStatus_eq_zero_iff, status_65, fun eq_65 => ?_, ?_, status_1⟩
  · obtain ⟨d, head, kind⟩ := status_65.1 eq_65
    rw [errors] at head
    have found := problems_ne_nil_of_head_reports head kind
    rw [out, if_neg found, result]
    exact ⟨rfl, chain found⟩
  · rw [status_70, errors]
    exact exists_runtime_head_reports

/-- **The exit status of a script.** On a script that can be read, the program comes back with a
status, unless the script is run and does not end. -/
theorem perform_script {arguments : List String}
    (asked : Invocation.ofArguments arguments = .request r) (file : r.file = some path)
    (readable : Readable path contents text) (fresh : console.journal.errors = [])
    (ends : ∀ c, perform limits (.ofArguments arguments) contents input console ≠
      .error .unfinished c) :
    ∃ (status : Nat) (console' : Console),
      perform limits (.ofArguments arguments) contents input console = .ok status console' ∧
        (r.mode = .run → Ran limits path text console console' status) ∧
        (r.mode ≠ .run → Listed limits r.mode path text console console' status) := by
  rw [asked] at ends ⊢
  by_cases runs : r.mode = .run
  · obtain ⟨status, console', performed, ran⟩ := perform_ran file readable runs ends
    exact ⟨status, console', performed, fun _ => ran, fun shows => absurd runs shows⟩
  · obtain ⟨status, console', performed, listed⟩ := perform_listed file readable fresh runs
    exact ⟨status, console', performed, fun run => absurd run runs, fun _ => listed⟩

end Script

/-- A script that prints a number and then negates a string. -/
theorem perform_script_negation :
    let text := "print 1;\n-\"a\";"
    let contents : Option (List UInt8) :=
      some [112, 114, 105, 110, 116, 32, 49, 59, 13, 10, 45, 34, 97, 34, 59]
    let ended := perform ⟨9, 9⟩ (.ofArguments ["a.lox"]) contents "" { journal := {} }
    Readable "a.lox" contents text ∧
      ∃ (status : Nat) (console' : Console), ended = .ok status console' ∧ status = 70 ∧
        console'.out = "1\n" ∧ Ran ⟨9, 9⟩ "a.lox" text { journal := {} } console' status := by
  intro text contents ended
  have readable : Readable "a.lox" contents text :=
    ⟨by decide, by simp, _, rfl, by decide +kernel⟩
  have asked : Invocation.ofArguments ["a.lox"] = .request { file := some "a.lox" } := by
    decide +kernel
  obtain ⟨u, s, result, eq_70, out⟩ : ∃ u s,
      process ⟨9, 9⟩ .run (opened "a.lox" text { journal := {} }) = .ok u s ∧
        s.journal.exitStatus = 70 ∧ s.workspace.console.out = "1\n" := by decide +kernel
  have performed : ended = .ok (s.journal.exitStatus : Int) s.workspace.console := by
    show perform ⟨9, 9⟩ (.ofArguments ["a.lox"]) contents "" { journal := {} } = _
    rw [asked]
    exact perform_of_processed rfl readable result
  have ends (c : Console) : ended ≠ .error .unfinished c := by
    rw [performed]
    exact fun h => nomatch h
  obtain ⟨status, console', same, ran, -⟩ := perform_script asked rfl readable rfl ends
  obtain ⟨eq_status, rfl⟩ : (s.journal.exitStatus : Int) = status ∧
      s.workspace.console = console' := by simpa using performed.symm.trans same
  exact ⟨readable, status, _, same, by omega, out, ran rfl⟩

end CommandLine

end Lox
