import Mathlib.Data.List.Induction
import Lox.Console

/-!
# Histories of a journal

A journal is written to in several ways: problems are reported by line and words or thrown as they
are, and a guarded block turns what interrupts it into a problem. Blocks may stand within one
another, and with a fatal journal each problem ends what is being done. What comes of a history of
such operations is told here without the journal, by the resets and the problems thrown
(`Operation.accounts`); neither what is printed nor a source has a part in it. Then the operations
are followed one by one: what they do to a console is what the account says (`Tells`), hence the
journal is append-only between resets (`performEach_appendOnly`).
-/

namespace Lox.Console

/-- What can be done with a journal. -/
inductive Operation where
  | register (path text : String)
  | reset
  | warn (message : String) (line : Option Int)
  /-- Reports a problem that is located by line and words. -/
  | report (category : Category) (line : Option Int) (place message : String)
  | throw (d : Diagnostic) (isInternal : Bool)
  /-- Does the operations of a block and leaves it by an interrupt, if there is one. -/
  | guarded (body : List Operation) (leaving : Option Interrupt)

/-! ### On a console -/

/-- Does an action, and tells what cut it short. -/
def attempt (action : Interaction Unit) (c : Console) : Option Interrupt × Console :=
  match action c with
  | .ok () c => (none, c)
  | .error interrupt c => (some interrupt, c)

namespace Operation

mutual

/-- Does an operation. -/
def perform : Operation → Interaction Unit
  | register path text => Interaction.onJournal (·.register path text)
  | reset => Interaction.onJournal (·.reset)
  | warn message line => Interaction.warn message line
  | report category line place message =>
    Interaction.report (Diagnostic.atPlace category line place message)
  | throw d isInternal => Interaction.report d isInternal
  | guarded body none => Interaction.guarded (performAll body)
  | guarded body (some interrupt) => Interaction.guarded do
    performAll body
    MonadExcept.throw interrupt

/-- Does operations in order, until one is cut short. -/
def performAll : List Operation → Interaction Unit
  | [] => pure ()
  | o :: os => do
    o.perform
    performAll os

end

/-- Does operations in order, each also after one that was cut short. -/
def performEach : List Operation → Console → List (Option Interrupt) × Console
  | [], c => ([], c)
  | o :: os, c =>
    let (ending, c) := attempt o.perform c
    let (endings, c) := performEach os c
    (ending :: endings, c)

end Operation

/-! ### What a history tells -/

/-- What matters to the problems in a journal. -/
inductive Event where
  | reset
  | thrown (d : Diagnostic)
  deriving DecidableEq

namespace Event

/-- The problem that was thrown, if any. -/
def problem? : Event → Option Diagnostic
  | reset => none
  | thrown d => some d

/-- The problems thrown since the last reset, in order. -/
def sinceReset (es : List Event) : List Diagnostic :=
  (es.reverse.takeWhile (· ≠ reset)).reverse.filterMap problem?

theorem sinceReset_reset (es : List Event) : sinceReset (es ++ [reset]) = [] := by
  simp [sinceReset]

theorem sinceReset_thrown (es : List Event) (d : Diagnostic) :
    sinceReset (es ++ [thrown d]) = sinceReset es ++ [d] := by
  simp [sinceReset, problem?]

theorem sinceReset_map_thrown (ds : List Diagnostic) : sinceReset (ds.map thrown) = ds := by
  induction ds using List.reverseRecOn with
  | nil => rfl
  | append_singleton ds d ih => rw [List.map_append, List.map_singleton, sinceReset_thrown, ih]

/-- Without a reset in between, problems are only added. -/
theorem sinceReset_append {es later : List Event} (steady : reset ∉ later) :
    sinceReset (es ++ later) = sinceReset es ++ later.filterMap problem? := by
  induction later using List.reverseRecOn with
  | nil => simp
  | append_singleton later e ih =>
    have others : reset ∉ later := fun mem => steady (List.mem_append_left _ mem)
    cases e with
    | reset => exact absurd (List.mem_append_right _ (List.mem_singleton_self _)) steady
    | thrown d =>
      rw [← List.append_assoc, sinceReset_thrown, ih others]
      simp [problem?]

end Event

/-- The exit status that problems have: the first decides. -/
def statusOf : List Diagnostic → Nat
  | [] => 0
  | d :: _ => d.category.exitStatus

theorem exitStatus_eq (j : Journal) : j.exitStatus = statusOf j.errors := by
  unfold Journal.exitStatus statusOf
  split <;> simp [*]

theorem statusOf_append {ds : List Diagnostic} (some_before : ds ≠ []) (es : List Diagnostic) :
    statusOf (ds ++ es) = statusOf ds := by
  cases ds with
  | nil => exact absurd rfl some_before
  | cons d ds => rfl

/-- What is told of an operation: what happened, and what cut it short. -/
structure Account where
  events : List Event
  ending : Option Interrupt

namespace Account

/-- Nothing happened. -/
def nothing : Account := ⟨[], none⟩

/-- A problem was thrown after these events, which ends the program if the journal is fatal. -/
def ofThrown (fatal : Bool) (past : List Event) (d : Diagnostic) (isInternal : Bool) : Account :=
  let status : Int := if isInternal then 1 else statusOf (Event.sinceReset (past ++ [.thrown d]))
  ⟨[.thrown d], if fatal then some (.exit (some status)) else none⟩

/-- What an interrupt leads to at the end of a guarded block. All but a request to exit, and a
result that is not known, leave one problem; that of a failure from outside is internal, and the
failure goes on its way. -/
def ofInterrupt (fatal : Bool) (past : List Event) : Interrupt → Account
  | .error d => ofThrown fatal past d false
  | .keyboard => ofThrown fatal past { message := "keyboard interrupt" } false
  | .tooDeep => ofThrown fatal past (Diagnostic.tooDeep none) false
  | .crash name message =>
    let told := ofThrown fatal past
      { message := "unknown error: '" ++ name ++ ": " ++ message ++ "'" } true
    ⟨told.events, told.ending.or (some (.crash name message))⟩
  | .exit status => ⟨[], some (.exit status)⟩
  | .unfinished => ⟨[], some .unfinished⟩

/-- What happened first, and what happened then unless the first was cut short. -/
def andThen (first next : Account) : Account :=
  match first.ending with
  | none => ⟨first.events ++ next.events, next.ending⟩
  | some _ => first

/-- What happened in a guarded block, and what its interrupt led to. -/
def guarded (fatal : Bool) (past : List Event) (body : Account) : Account :=
  match body.ending with
  | none => body
  | some interrupt =>
    let led := ofInterrupt fatal (past ++ body.events) interrupt
    ⟨body.events ++ led.events, led.ending⟩

end Account

namespace Operation

mutual

/-- What is told of an operation, after these events. -/
def account (fatal : Bool) : Operation → (past : List Event) → Account
  | register _ _, _ => .nothing
  | warn _ _, _ => .nothing
  | reset, _ => ⟨[.reset], none⟩
  | report category line place message, past =>
    .ofThrown fatal past (Diagnostic.atPlace category line place message) false
  | throw d isInternal, past => .ofThrown fatal past d isInternal
  | guarded body leaving, past =>
    .guarded fatal past ((accountAll fatal body past).andThen ⟨[], leaving⟩)

/-- What is told of operations until one is cut short. -/
def accountAll (fatal : Bool) : List Operation → (past : List Event) → Account
  | [], _ => .nothing
  | o :: os, past =>
    let first := account fatal o past
    first.andThen (accountAll fatal os (past ++ first.events))

end

/-- What happens in operations of which each is done, and what cuts them short. -/
def accounts (fatal : Bool) : List Operation → (past : List Event) →
    List Event × List (Option Interrupt)
  | [], _ => ([], [])
  | o :: os, past =>
    let first := o.account fatal past
    let others := accounts fatal os (past ++ first.events)
    (first.events ++ others.1, first.ending :: others.2)

end Operation

/-! ### Following the operations -/

/-- An attempt that ended as the account says. The problems are then those thrown since the last
reset. -/
structure Account.Describes (a : Account) (fatal : Bool) (past : List Event)
    (attempted : Option Interrupt × Console) : Prop where
  ending : attempted.1 = a.ending
  errors : attempted.2.journal.errors = Event.sinceReset (past ++ a.events)
  fatal : attempted.2.journal.fatal = fatal

/-- The action does what the account says, wherever the problems are those thrown since the last
reset. -/
def Tells (action : Interaction Unit) (account : Bool → List Event → Account) : Prop :=
  ∀ (c : Console) (past : List Event), c.journal.errors = Event.sinceReset past →
    (account c.journal.fatal past).Describes c.journal.fatal past (attempt action c)

theorem attempt_bind (action next : Interaction Unit) (c : Console) :
    attempt (action >>= fun _ => next) c =
      match attempt action c with
      | (none, c) => attempt next c
      | (some interrupt, c) => (some interrupt, c) := by
  unfold attempt
  show (match EStateM.bind action (fun _ => next) c with | .ok () c => _ | .error i c => _) = _
  rw [EStateM.bind]
  cases action c <;> rfl

theorem attempt_guarded (action : Interaction Unit) (c : Console) :
    attempt (Interaction.guarded action) c =
      match attempt action c with
      | (none, c) => (none, c)
      | (some interrupt, c) => attempt (Interaction.absorb interrupt) c := by
  unfold attempt Interaction.guarded
  cases action c <;> rfl

namespace Tells

variable {action next : Interaction Unit} {account account' : Bool → List Event → Account}

/-- An action that leaves the problems alone. -/
theorem still (h : ∀ c, ∃ c', action c = .ok () c' ∧
      c'.journal.errors = c.journal.errors ∧ c'.journal.fatal = c.journal.fatal) :
    Tells action fun _ _ => .nothing := by
  intro c past same
  obtain ⟨c', done, errors, fatal⟩ := h c
  rw [attempt, done]
  exact ⟨rfl, by simpa [Account.nothing] using errors.trans same, fatal⟩

/-- An action that is cut short at once. -/
theorem throw (interrupt : Interrupt) :
    Tells (MonadExcept.throw interrupt) fun _ _ => ⟨[], some interrupt⟩ := by
  intro c past same
  refine ⟨rfl, ?_, rfl⟩
  show c.journal.errors = Event.sinceReset (past ++ [])
  rwa [List.append_nil]

theorem reset : Tells (Interaction.onJournal (·.reset)) fun _ _ => ⟨[.reset], none⟩ := by
  intro c past _
  refine ⟨rfl, ?_, rfl⟩
  rw [Event.sinceReset_reset]
  rfl

theorem warn (message : String) (line : Option Int) :
    Tells (Interaction.warn message line) fun _ _ => .nothing := by
  apply still
  rintro ⟨⟨fatal, echo, styled, errors, source⟩, out, err⟩
  cases echo <;> exact ⟨_, rfl, rfl, rfl⟩

/-- **A report** records its problem first, and then ends the program if the journal is fatal. -/
theorem report (d : Diagnostic) (isInternal : Bool) :
    Tells (Interaction.report d isInternal) fun fatal past =>
      .ofThrown fatal past d isInternal := by
  rintro ⟨⟨fatal, echo, styled, errors, source⟩, out, err⟩ past (rfl : errors = _)
  have recorded : Event.sinceReset (past ++ [.thrown d]) =
      (Journal.record ⟨fatal, echo, styled, Event.sinceReset past, source⟩ d).errors := by
    rw [Event.sinceReset_thrown]
    rfl
  show (Account.ofThrown fatal _ d isInternal).Describes fatal _ _
  rw [Account.ofThrown, recorded, ← exitStatus_eq]
  -- printing changes neither the problems nor the status
  cases echo <;> cases fatal <;> exact ⟨rfl, recorded.symm, rfl⟩

theorem bind (h : Tells action account) (hnext : Tells next account') :
    Tells (action >>= fun _ => next) fun fatal past =>
      (account fatal past).andThen (account' fatal (past ++ (account fatal past).events)) := by
  intro c past same
  have first := h c past same
  show (Account.andThen _ _).Describes _ past _
  rw [attempt_bind, Account.andThen]
  generalize attempt action c = attempted at first ⊢
  obtain ⟨_, c₁⟩ := attempted
  obtain ⟨rfl, errors, fatal⟩ := first
  cases ended : (account c.journal.fatal past).ending with
  | some interrupt => exact ⟨ended.symm, errors, fatal⟩
  | none =>
    obtain ⟨ending₂, errors₂, fatal₂⟩ := hnext c₁ _ errors
    simp only at fatal
    rw [fatal] at ending₂ errors₂ fatal₂
    exact ⟨ending₂, by rw [errors₂, List.append_assoc], fatal₂⟩

/-- Absorbing an interrupt. -/
theorem absorb (interrupt : Interrupt) :
    Tells (Interaction.absorb interrupt) fun fatal past =>
      .ofInterrupt fatal past interrupt := by
  cases interrupt with
  | error d => exact report d false
  | keyboard => exact report _ false
  | tooDeep => exact report _ false
  | exit status => exact throw _
  | unfinished => exact throw _
  | crash name message =>
    have both := (report { message := "unknown error: '" ++ name ++ ": " ++ message ++ "'" }
      true).bind (throw (.crash name message))
    intro c past same
    obtain ⟨ending, errors, fatal⟩ := both c past same
    refine ⟨ending.trans ?_, errors.trans ?_, fatal⟩
    all_goals
      simp only [Account.ofInterrupt, Account.andThen, Account.ofThrown]
      cases c.journal.fatal <;> rfl

theorem guarded (h : Tells action account) :
    Tells (Interaction.guarded action) fun fatal past =>
      .guarded fatal past (account fatal past) := by
  intro c past same
  have body := h c past same
  show (Account.guarded _ past _).Describes _ past _
  rw [attempt_guarded, Account.guarded]
  generalize attempt action c = attempted at body ⊢
  obtain ⟨_, c₁⟩ := attempted
  obtain ⟨rfl, errors, fatal⟩ := body
  cases ended : (account c.journal.fatal past).ending with
  | none => exact ⟨ended.symm, errors, fatal⟩
  | some interrupt =>
    obtain ⟨ending₂, errors₂, fatal₂⟩ := absorb interrupt c₁ _ errors
    simp only at fatal
    rw [fatal] at ending₂ errors₂ fatal₂
    exact ⟨ending₂, by rw [errors₂, List.append_assoc], fatal₂⟩

end Tells

namespace Operation

mutual

/-- **Every operation does what its account tells.** -/
theorem perform_tells : ∀ o : Operation, Tells o.perform fun fatal => o.account fatal
  | register path text => .still fun c => ⟨_, rfl, rfl, rfl⟩
  | reset => .reset
  | warn message line => .warn message line
  | report category line place message => .report _ false
  | throw d isInternal => .report d isInternal
  | guarded body none => by
    have quiet : Tells (pure () : Interaction Unit) fun _ _ => ⟨[], none⟩ :=
      .still fun c => ⟨c, rfl, rfl, rfl⟩
    have block := ((performAll_tells body).bind quiet).guarded
    rwa [show (performAll body >>= fun _ => pure ()) = performAll body from bind_pure_unit]
      at block
  | guarded body (some interrupt) => ((performAll_tells body).bind (.throw interrupt)).guarded

/-- Operations in order do what their account tells. -/
theorem performAll_tells : ∀ os : List Operation, Tells (performAll os) fun fatal =>
    accountAll fatal os
  | [] => .still fun c => ⟨c, rfl, rfl, rfl⟩
  | o :: os => (perform_tells o).bind (performAll_tells os)

end

/-- **A history does what its accounts tell**: every operation is cut short as told, and the
problems at the end are those thrown since the last reset. -/
theorem performEach_tells (os : List Operation) {c : Console} {past : List Event}
    (same : c.journal.errors = Event.sinceReset past) :
    (performEach os c).1 = (accounts c.journal.fatal os past).2 ∧
      (performEach os c).2.journal.errors =
        Event.sinceReset (past ++ (accounts c.journal.fatal os past).1) ∧
      (performEach os c).2.journal.fatal = c.journal.fatal := by
  induction os generalizing c past with
  | nil => exact ⟨rfl, by simpa [accounts, performEach] using same, rfl⟩
  | cons o os ih =>
    obtain ⟨ending, errors₁, fatal₁⟩ := perform_tells o c past same
    obtain ⟨endings, errors, fatal⟩ := ih errors₁
    rw [fatal₁] at endings errors fatal
    simp only [performEach, accounts, ending, endings, fatal]
    exact ⟨trivial, by rw [errors, List.append_assoc], trivial⟩

end Operation

/-! ### What a journal keeps -/

namespace Operation

/-- What a journal keeps of a history that starts with the console `c`. The problems that are
there at the start count as thrown. -/
structure AppendOnly (os : List Operation) (c : Console) : Prop where
  /-- The problems are those thrown since the last reset. -/
  errors : (performEach os c).2.journal.errors =
    Event.sinceReset (c.journal.errors.map .thrown ++
      (accounts c.journal.fatal os (c.journal.errors.map .thrown)).1)
  /-- Every operation ends as the history tells. -/
  endings : (performEach os c).1 =
    (accounts c.journal.fatal os (c.journal.errors.map .thrown)).2
  hadError : (performEach os c).2.journal.hadError = true ↔
    (performEach os c).2.journal.errors ≠ []
  succeeds : (performEach os c).2.journal.exitStatus = 0 ↔
    (performEach os c).2.journal.errors = []
  first_decides : ∀ d ds, (performEach os c).2.journal.errors = d :: ds →
    (performEach os c).2.journal.exitStatus = d.category.exitStatus
  /-- Once there is a problem, the status stays as it is until the next reset. -/
  steady : ∀ later : List Operation, (performEach os c).2.journal.hadError = true →
    Event.reset ∉ (accounts c.journal.fatal later
      ((performEach os c).2.journal.errors.map .thrown)).1 →
    (performEach later (performEach os c).2).2.journal.exitStatus =
      (performEach os c).2.journal.exitStatus
  /-- With a fatal journal a problem is recorded before the program exits. -/
  records_first : c.journal.fatal = true → ∀ d isInternal, ∃ last,
    attempt (throw d isInternal).perform (performEach os c).2 =
        (some (.exit (some (if isInternal then 1 else last.journal.exitStatus))), last) ∧
      last.journal.errors = (performEach os c).2.journal.errors ++ [d]
  /-- What is printed, in which style, and the source that is shown change nothing. -/
  blind : ∀ c' : Console, c'.journal.fatal = c.journal.fatal →
    c'.journal.errors = c.journal.errors →
    (performEach os c').1 = (performEach os c).1 ∧
      (performEach os c').2.journal.errors = (performEach os c).2.journal.errors ∧
      (performEach os c').2.journal.exitStatus = (performEach os c).2.journal.exitStatus

variable {os : List Operation} {c : Console}

theorem exitStatus_steady (later : List Operation) (failed : c.journal.hadError = true)
    (steady : Event.reset ∉ (accounts c.journal.fatal later (c.journal.errors.map .thrown)).1) :
    (performEach later c).2.journal.exitStatus = c.journal.exitStatus := by
  have told := (performEach_tells later (Event.sinceReset_map_thrown c.journal.errors).symm).2.1
  rw [Event.sinceReset_append steady, Event.sinceReset_map_thrown] at told
  rw [exitStatus_eq, exitStatus_eq, told, statusOf_append (Journal.hadError_iff.1 failed)]

theorem throw_of_fatal (fatal : c.journal.fatal = true) (d : Diagnostic) (isInternal : Bool) :
    ∃ last, attempt (throw d isInternal).perform c =
        (some (.exit (some (if isInternal then 1 else last.journal.exitStatus))), last) ∧
      last.journal.errors = c.journal.errors ++ [d] := by
  have told := perform_tells (throw d isInternal) c _
    (Event.sinceReset_map_thrown c.journal.errors).symm
  have recorded : (attempt (throw d isInternal).perform c).2.journal.errors =
      c.journal.errors ++ [d] := by
    refine told.errors.trans ?_
    show Event.sinceReset (_ ++ [.thrown d]) = _
    rw [Event.sinceReset_thrown, Event.sinceReset_map_thrown]
  refine ⟨_, Prod.ext ?_ rfl, recorded⟩
  rw [told.ending, exitStatus_eq, recorded]
  simp [account, Account.ofThrown, fatal, Event.sinceReset_thrown, Event.sinceReset_map_thrown]

/-- **A journal is append-only between resets**, whatever is done with it. -/
theorem performEach_appendOnly (os : List Operation) (c : Console) : AppendOnly os c := by
  have start := (Event.sinceReset_map_thrown c.journal.errors).symm
  obtain ⟨endings, errors, fatal⟩ := performEach_tells os start
  refine
    { errors, endings
      hadError := Journal.hadError_iff
      succeeds := Journal.exitStatus_eq_zero_iff
      first_decides := fun d ds first => by rw [exitStatus_eq, first]; rfl
      steady := fun later failed steady =>
        exitStatus_steady later failed (by rwa [fatal])
      records_first := fun isFatal => throw_of_fatal (fatal.trans isFatal)
      blind := ?_ }
  intro c' fatal' errors'
  obtain ⟨endings₂, errors₂, -⟩ := performEach_tells os (errors'.trans start)
  rw [fatal'] at endings₂ errors₂
  have same := errors₂.trans errors.symm
  exact ⟨endings₂.trans endings.symm, same, by rw [exitStatus_eq, exitStatus_eq, same]⟩

/-- A failure from outside is recorded once by each block it leaves; what came before the reset is
forgotten. -/
example (d : Diagnostic) :
    accounts false [throw d false, reset, guarded [guarded [] (some (.crash "E" "m"))] none] [] =
      let told := Event.thrown { message := "unknown error: 'E: m'" }
      ([.thrown d, .reset, told, told], [none, none, some (.crash "E" "m")]) := rfl

end Operation

end Lox.Console
