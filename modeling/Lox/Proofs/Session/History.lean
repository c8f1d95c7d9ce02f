import Lox.Proofs.Session.Fresh
import Lox.Proofs.Session.Looking

/-!
# The history of a session

The calls to a session share a chain of scopes, a journal and the source that is run by default.
Still a call depends on little of what came before it: on the scopes, which only runs change, and,
if it is not given a source, on the source of the latest run that was given one. Problems of earlier
calls have no influence, and a look at the tokens or the statements of a source leaves nothing
behind but the problems found in it.

The main result is `history_of_openAt`, for any calls in any order. What one call does is in
`perform_returns` and `run_matches`; both are carried through a list of calls by induction.
-/

namespace Lox

namespace Session

/-! ### Calls -/

/-- What a session is asked for: of a given source, or of its own if none is given. -/
inductive Call where
  | run (given : Option String)
  | tokens (given : Option String)
  | statements (given : Option String)
  deriving DecidableEq

/-- What comes back from a call. -/
inductive Response where
  | ran (answer : Bool)
  | tokens (ts : List Token)
  | statements (ss : List Stmt)
  deriving DecidableEq

/-- The answer of a run. -/
def Response.answer? : Response → Option Bool
  | ran answer => some answer
  | tokens _ | statements _ => none

namespace Call

/-- Carries out a call. -/
def perform (limits : Limits) : Call → Action Response
  | run given => Response.ran <$> Session.run limits given
  | tokens given => Response.tokens <$> Session.tokens given
  | statements given => Response.statements <$> Session.statements limits given

/-- Whether a call is a run. -/
def isRun : Call → Bool
  | run _ => true
  | tokens _ | statements _ => false

/-- The source that is run by default from this call on, if the call changes it. -/
def kept? : Call → Option String
  | run given => given
  | tokens _ | statements _ => none

end Call

/-- Carries out calls in order. -/
def performAll (limits : Limits) (calls : List Call) : Action (List Response) :=
  calls.mapM (Call.perform limits)

/-- The source of the latest run that was given one, or the initial source if there is none. -/
def latest (initial : String) (calls : List Call) : String :=
  (calls.filterMap Call.kept?).getLast?.getD initial

/-- What is seen of the runs among some calls: their answers or what cut the calls short, the
scopes, and what was printed. -/
def seenOfRuns : EStateM.Result Interrupt Session (List Response) →
    Except Interrupt (List Bool) × Chain × String
  | .ok responses s =>
    (.ok (responses.filterMap Response.answer?), s.workspace.chain, s.workspace.console.out)
  | .error interrupt s => (.error interrupt, s.workspace.chain, s.workspace.console.out)

/-- What is seen of a run of a session. -/
def seen : EStateM.Result Interrupt Session Bool → Summary
  | .ok answer s => .ofResult (.ok answer s.workspace)
  | .error interrupt s => .ofResult (.error interrupt s.workspace)

variable {limits : Limits} {s s' t : Session} {c : Call} {calls : List Call} {given : Option String}

theorem seen_endedIn (ending : Except Interrupt Bool) (s : Session) :
    seen (endedIn ending s) =
      ⟨ending, s.workspace.chain, s.workspace.console.out, s.journal.errors⟩ := by
  cases ending <;> rfl

theorem latest_cons (initial : String) (c : Call) (calls : List Call) :
    latest initial (c :: calls) = latest (c.kept?.getD initial) calls := by
  unfold latest
  cases kept : c.kept? with
  | none => rw [List.filterMap_cons_none kept, Option.getD_none]
  | some text =>
    rw [List.filterMap_cons_some kept, List.getLast?_cons, Option.getD_some, Option.getD_some]

/-! ### What one call does -/

theorem map_of_ok {α β : Type} {action : Action α} {a : α} (f : α → β)
    (done : action s = .ok a s') : (f <$> action) s = .ok (f a) s' := by
  show EStateM.map f action s = _
  rw [EStateM.map, done]

theorem map_of_error {α β : Type} {action : Action α} {interrupt : Interrupt} (f : α → β)
    (cut : action s = .error interrupt s') : (f <$> action) s = .error interrupt s' := by
  show EStateM.map f action s = _
  rw [EStateM.map, cut]

theorem Call.exists_eq_run (run : c.isRun = true) : ∃ given, c = .run given := by
  cases c with
  | run given => exact ⟨given, rfl⟩
  | tokens given => cases run
  | statements given => cases run

/-- A call that is not a run only adds problems to those recorded before. -/
theorem perform_look (limits : Limits) (look : c.isRun = false)
    (nonfatal : s.journal.fatal = false) :
    ∃ response s' ds, c.perform limits s = .ok response s' ∧ response.answer? = none ∧
      c.kept? = none ∧ Adds s "" ds s' := by
  cases c with
  | run given => cases look
  | tokens given =>
    obtain ⟨s', looked, adds⟩ := tokens_adds given nonfatal
    exact ⟨_, s', _, map_of_ok Response.tokens looked, rfl, rfl, adds⟩
  | statements given =>
    obtain ⟨s', looked, adds⟩ := statements_adds limits given nonfatal
    exact ⟨_, s', _, map_of_ok Response.statements looked, rfl, rfl, adds⟩

/-- A call comes back, if it is not a run that does not end. -/
theorem perform_returns (limits : Limits) (c : Call) (nonfatal : s.journal.fatal = false) :
    (∃ response s', c.perform limits s = .ok response s' ∧ s'.journal.fatal = false ∧
        s'.source = c.kept?.getD s.source) ∨
      ∃ s', c.perform limits s = .error .unfinished s' := by
  cases run : c.isRun with
  | true =>
    obtain ⟨given, rfl⟩ := Call.exists_eq_run run
    obtain ⟨err, ran⟩ := run_fresh limits given nonfatal
    rcases ending_of_nonfatal limits (given.getD s.source) (w := .unused s.workspace.chain) rfl
      with ⟨answer, ending⟩ | ending <;> rw [ending] at ran
    · exact .inl ⟨_, _, map_of_ok Response.ran ran, nonfatal, rfl⟩
    · exact .inr ⟨_, map_of_error Response.ran ran⟩
  | false =>
    obtain ⟨response, s', ds, looked, -, kept, adds⟩ := perform_look limits run nonfatal
    rw [kept]
    exact .inl ⟨response, s', looked, adds.fatal_eq.trans nonfatal, adds.source_eq⟩

/-- Two sessions that differ at most in their path, their problems and their error streams. -/
structure Matches (s t : Session) : Prop where
  source_eq : s.source = t.source
  chain_eq : s.workspace.chain = t.workspace.chain
  out_eq : s.workspace.console.out = t.workspace.console.out
  nonfatal_left : s.journal.fatal = false
  nonfatal_right : t.journal.fatal = false

theorem Matches.adds {ds : List Diagnostic} (alike : Matches s t) (adds : Adds s "" ds s') :
    Matches s' t where
  source_eq := adds.source_eq.trans alike.source_eq
  chain_eq := adds.chain_eq.trans alike.chain_eq
  out_eq := by rw [adds.out_eq, String.append_empty, alike.out_eq]
  nonfatal_left := adds.fatal_eq.trans alike.nonfatal_left
  nonfatal_right := alike.nonfatal_right

/-- A run does the same in sessions that match. -/
theorem run_matches (limits : Limits) (given : Option String) (alike : Matches s t) :
    ∃ ending s' t', run limits given s = endedIn ending s' ∧ run limits given t = endedIn ending t'
      ∧ Matches s' t' := by
  obtain ⟨err, ran⟩ := run_fresh limits given alike.nonfatal_left
  obtain ⟨err', ran'⟩ := run_fresh limits given alike.nonfatal_right
  rw [← alike.source_eq, ← alike.chain_eq, ← alike.out_eq] at ran'
  exact ⟨_, _, _, ran, ran', rfl, rfl, rfl, alike.nonfatal_left, alike.nonfatal_right⟩

/-! ### Calls in order -/

theorem performAll_of_ok {response : Response} (first : c.perform limits s = .ok response s') :
    performAll limits (c :: calls) s = (List.cons response <$> performAll limits calls) s' := by
  rw [performAll, List.mapM_cons]
  show (c.perform limits >>= fun _ => _).run s = _
  rw [EStateM.run_bind, EStateM.run, first]
  rfl

theorem performAll_of_error {interrupt : Interrupt}
    (first : c.perform limits s = .error interrupt s') :
    performAll limits (c :: calls) s = .error interrupt s' := by
  rw [performAll, List.mapM_cons]
  show (c.perform limits >>= fun _ => _).run s = _
  rw [EStateM.run_bind, EStateM.run, first]

/-- Calls come back, if none of them is a run that does not end. The source that is then run by
default is the latest that a run was given. -/
theorem performAll_returns (limits : Limits) (calls : List Call)
    (nonfatal : s.journal.fatal = false) :
    (∃ responses s', performAll limits calls s = .ok responses s' ∧ s'.journal.fatal = false ∧
        s'.source = latest s.source calls) ∨
      ∃ s', performAll limits calls s = .error .unfinished s' := by
  induction calls generalizing s with
  | nil => exact .inl ⟨[], s, rfl, nonfatal, rfl⟩
  | cons c calls ih =>
    rcases perform_returns limits c nonfatal with ⟨response, s₁, first, nonfatal₁, kept⟩ | ⟨s₁, cut⟩
    · rw [performAll_of_ok first, latest_cons, ← kept]
      rcases ih nonfatal₁ with ⟨responses, s₂, others, nonfatal₂, kept₂⟩ | ⟨s₂, cut⟩
      · exact .inl ⟨_, s₂, map_of_ok _ others, nonfatal₂, kept₂⟩
      · exact .inr ⟨s₂, map_of_error _ cut⟩
    · exact .inr ⟨s₁, performAll_of_error cut⟩

theorem seenOfRuns_cons (response : Response) (others : Action (List Response)) (s : Session) :
    seenOfRuns ((List.cons response <$> others) s) =
      ((seenOfRuns (others s)).1.map (response.answer?.toList ++ ·), (seenOfRuns (others s)).2) := by
  cases result : others s with
  | ok responses s' =>
    rw [map_of_ok _ result]
    cases response <;> rfl
  | error interrupt s' =>
    rw [map_of_error _ result]
    rfl

/-- **Calls that are not runs leave nothing behind that a later run sees.** -/
theorem seenOfRuns_filter (limits : Limits) (calls : List Call) (alike : Matches s t) :
    seenOfRuns (performAll limits calls s) =
      seenOfRuns (performAll limits (calls.filter Call.isRun) t) := by
  induction calls generalizing s t with
  | nil =>
    show (Except.ok [], s.workspace.chain, s.workspace.console.out) = (Except.ok [], _, _)
    rw [alike.chain_eq, alike.out_eq]
  | cons c calls ih =>
    cases run : c.isRun with
    | true =>
      obtain ⟨given, rfl⟩ := Call.exists_eq_run run
      obtain ⟨ending, s₁, t₁, ran, ran', alike₁⟩ := run_matches limits given alike
      rw [List.filter_cons_of_pos run]
      cases ending with
      | ok answer =>
        rw [performAll_of_ok (c := .run given) (map_of_ok Response.ran ran), seenOfRuns_cons,
          performAll_of_ok (c := .run given) (map_of_ok Response.ran ran'), seenOfRuns_cons,
          ih alike₁]
      | error interrupt =>
        rw [performAll_of_error (c := .run given) (map_of_error Response.ran ran),
          performAll_of_error (c := .run given) (map_of_error Response.ran ran')]
        show (Except.error interrupt, _, _) = (Except.error interrupt, _, _)
        rw [alike₁.chain_eq, alike₁.out_eq]
    | false =>
      -- only one of the two sessions looks, and then they differ in their problems
      obtain ⟨response, s₁, ds, looked, unseen, -, adds⟩ :=
        perform_look limits run alike.nonfatal_left
      rw [List.filter_cons_of_neg (by rw [run]; decide), performAll_of_ok looked, seenOfRuns_cons,
        ih (alike.adds adds), unseen]
      exact Prod.ext (congrFun Except.map_id _) rfl

/-! ### The history -/

/-- What the next call to a session does if this is the source of the latest run that was given
one. -/
structure Continues (limits : Limits) (source : String) (s : Session) : Prop where
  /-- A run is a run on an unused console in the same scopes, after what was printed before. Its
  journal holds its own problems only, whatever was recorded before. -/
  run (given : Option String) :
    let fresh := Lox.run limits (given.getD source) (.unused s.workspace.chain)
    let ran := run limits given s
    seen ran = (Summary.ofResult fresh).after s.workspace.console.out [] ∧
      (finalState ran).journal.exitStatus = (finalState fresh).journal.exitStatus
  /-- A look at tokens adds the lexical problems to those recorded before. -/
  tokens (given : Option String) :
    let text := given.getD source
    ∃ s', tokens given s = .ok (Lexer.tokens text) s' ∧ s.Adds "" (Lexer.diagnostics text) s'
  /-- A look at statements adds the problems of scanning and parsing. -/
  statements (given : Option String) :
    let analysis := Analysis.ofSource limits (given.getD source)
    ∃ s', statements limits given s = .ok analysis.statements s' ∧ s.Adds "" analysis.problems s'

/-- What calls to a session come to. -/
structure History (limits : Limits) (start : Session) (calls : List Call) : Prop where
  /-- The scopes, the output and the answers of the runs are those of the runs alone. -/
  runs_alone : seenOfRuns (performAll limits calls start) =
    seenOfRuns (performAll limits (calls.filter Call.isRun) start)
  /-- Nothing but a run that does not end keeps the calls from coming back. -/
  returns : ∀ interrupt s, performAll limits calls start = .error interrupt s →
    interrupt = .unfinished
  /-- After the calls, the next one depends on the scopes and on the source that was kept. -/
  continues : ∀ responses s, performAll limits calls start = .ok responses s →
    Continues limits (latest start.source calls) s

theorem continues_of_nonfatal (limits : Limits) (nonfatal : s.journal.fatal = false) :
    Continues limits s.source s where
  run given := by
    intro fresh ran
    obtain ⟨err, eq⟩ := run_fresh limits given nonfatal
    obtain ⟨err', eq'⟩ := Lox.run_fresh limits (given.getD s.source)
      (w := .unused s.workspace.chain) rfl
    have same : seen ran = (Summary.ofResult fresh).after s.workspace.console.out [] := by
      show seen (Session.run limits given s) = _
      rw [eq, seen_endedIn]
      rfl
    refine ⟨same, ?_⟩
    show (finalState (Session.run limits given s)).journal.exitStatus =
      (finalState (Lox.run limits _ _)).journal.exitStatus
    rw [eq, eq', finalState_endedIn, finalState_endedIn]
    rfl
  tokens given := tokens_adds given nonfatal
  statements given := statements_adds limits given nonfatal

theorem history_of_nonfatal (limits : Limits) (calls : List Call)
    (nonfatal : s.journal.fatal = false) : History limits s calls where
  runs_alone := seenOfRuns_filter limits calls ⟨rfl, rfl, rfl, nonfatal, nonfatal⟩
  returns interrupt s' cut := by
    rcases performAll_returns limits calls nonfatal with ⟨_, _, done, -⟩ | ⟨_, unfinished⟩
    · cases done.symm.trans cut
    · cases unfinished.symm.trans cut
      rfl
  continues responses s' done := by
    rcases performAll_returns limits calls nonfatal with ⟨_, _, done', nonfatal', kept⟩ | ⟨_, cut⟩
    · cases done'.symm.trans done
      rw [← kept]
      exact continues_of_nonfatal limits nonfatal'
    · cases cut.symm.trans done

/-! ### Opening -/

section Opening

variable {path text : String} {onCommandLine : Bool} {contents : Option (List UInt8)}
  {console console' : Console}

/-- What is loaded is the text of the script. -/
theorem exists_bytes_of_load (loaded : load path contents console = .ok text console') :
    ∃ bytes, contents = some bytes ∧ Text.Utf8.scriptText bytes = .ok text := by
  unfold load at loaded
  split at loaded
  · cases loaded
  · cases contents with
    | none => cases loaded
    | some bytes =>
      refine ⟨bytes, rfl, ?_⟩
      cases decoded : Text.Utf8.scriptText bytes with
      | ok text' =>
        simp only [decoded] at loaded
        cases loaded
        rfl
      | error fault =>
        simp only [decoded] at loaded
        cases loaded

theorem exists_of_bind_ok {α β : Type} {action : Interaction α} {next : α → Interaction β} {b : β}
    (done : (action >>= next) console = .ok b console') :
    ∃ a console₁, action console = .ok a console₁ ∧ next a console₁ = .ok b console' := by
  change EStateM.bind action next console = _ at done
  rw [EStateM.bind] at done
  cases first : action console with
  | ok a console₁ =>
    rw [first] at done
    exact ⟨a, console₁, rfl, done⟩
  | error interrupt console₁ =>
    rw [first] at done
    cases done

/-- **The source of a new session** is the text of its script. On the command line it is empty. -/
theorem source_of_openAt (opened : openAt path onCommandLine contents console = .ok s console') :
    (path = commandLinePath → s.source = "") ∧ (path ≠ commandLinePath →
      ∃ bytes, contents = some bytes ∧ Text.Utf8.scriptText bytes = .ok s.source) := by
  refine ⟨?_, fun file => ?_⟩
  · rintro rfl
    cases onCommandLine with
    | true =>
      cases opened
      rfl
    | false => cases opened
  · have loaded : ∃ c c', load path contents c = .ok s.source c' := by
      simp only [openAt, if_pos file] at opened
      cases onCommandLine with
      | true =>
        obtain ⟨_, c, -, opened⟩ := exists_of_bind_ok opened
        obtain ⟨text, c', loaded, opened⟩ := exists_of_bind_ok opened
        cases opened
        exact ⟨c, _, loaded⟩
      | false =>
        obtain ⟨text, c', loaded, opened⟩ := exists_of_bind_ok opened
        cases opened
        exact ⟨_, _, loaded⟩
    obtain ⟨c, c', loaded⟩ := loaded
    exact exists_bytes_of_load loaded

/-- **The history of a session.** Calls to a new session whose journal is not fatal, in any order,
come to what the runs among them come to. The next run is a fresh run in the scopes that they left,
of the source that it is given, or of the source of the latest run that was given one, or else of
the script's text; the next look at a source adds what it finds to the problems recorded. -/
theorem history_of_openAt (limits : Limits)
    (opened : openAt path onCommandLine contents console = .ok s console')
    (nonfatal : s.journal.fatal = false) (calls : List Call) :
    ((path = commandLinePath → s.source = "") ∧ (path ≠ commandLinePath →
      ∃ bytes, contents = some bytes ∧ Text.Utf8.scriptText bytes = .ok s.source)) ∧
      History limits s calls :=
  ⟨source_of_openAt opened, history_of_nonfatal limits calls nonfatal⟩

/-- A script with the text `print a;` whose variable is only defined later, with looks at sources
that have problems in between. -/
theorem history_of_openAt_script :
    let contents : Option (List UInt8) := some [112, 114, 105, 110, 116, 32, 97, 59]
    let calls : List Call := [.tokens (some "\""), .run none, .statements (some "print"),
      .run (some "var a = 1;"), .tokens none, .run (some "print a;"), .statements (some "+"),
      .run none]
    ∃ s console', openAt "a.lox" false contents { journal := {} } = .ok s console' ∧
      s.journal.fatal = false ∧
      (("a.lox" = commandLinePath → s.source = "") ∧ ("a.lox" ≠ commandLinePath →
        ∃ bytes, contents = some bytes ∧ Text.Utf8.scriptText bytes = .ok s.source)) ∧
        History ⟨9, 9⟩ s calls := by
  intro contents calls
  have no_null : "a.lox".contains '\x00' = false := by simp
  have decoded : Text.Utf8.scriptText [112, 114, 105, 110, 116, 32, 97, 59] = .ok "print a;" := by
    decide +kernel
  have opened : openAt "a.lox" false contents { journal := {} } =
      .ok ⟨"a.lox", "print a;", .global, { journal := {} }⟩ { journal := {} } := by
    simp only [openAt, load, no_null, contents, decoded]
    rfl
  exact ⟨_, _, opened, rfl, history_of_openAt ⟨9, 9⟩ opened rfl calls⟩

end Opening

end Session

end Lox
