import Lox.Lexer
import Lox.Proofs.Eval.Computed
import Lox.Proofs.Eval.Height
import Mathlib.Order.Filter.AtTopBot.Basic

/-!
# Execution is what the semantics says

Executing a program of the parser ends as the rules of the semantics derive, and if they derive
nothing it does not end: it runs out of rounds, however many there are.

`Ends` says that an action ends with a value or with a problem that is reported, and `Reaches` that
it does so unless it nests too deep. What ends is derived (`Executes.of_ends`), by induction on the
tree and, for a loop, on the rounds. What is derived is reached with all but few rounds
(`Executes.reaches`), by induction on the derivation. A block needs the discipline of scopes: what
its body leaves behind still has the scopes around it.
-/

namespace Lox.Semantics

open Filter

variable {σ α β : Type}

/-! ### How an action ends -/

/-- The action ended in this state with a value, or with a failure that is reported as a problem. -/
def Ends (result : EStateM.Result Halt σ α) (o : Except Diagnostic α) (s : σ) : Prop :=
  match o with
  | .ok a => result = .ok a s
  | .error d => ∃ cause, result = .error (.failure cause) s ∧ cause.diagnostic = d

/-- The action ended in this state with a value or a problem, unless it nests too deep. -/
def Reaches (result : EStateM.Result Halt σ α) (o : Except Diagnostic α) (s : σ) : Prop :=
  Ends result o s ∨ ∃ t, result = .error .tooDeep t

theorem Ends.final {result : EStateM.Result Halt σ α} {o : Except Diagnostic α} {s : σ}
    (h : Ends result o s) : Halt.final result = s := by
  cases o with
  | ok a =>
    rw [show result = .ok a s from h]
    rfl
  | error d =>
    obtain ⟨cause, rfl, -⟩ := h
    rfl

/-- An action ends after a bind if the first part ends with a problem, or both parts end. -/
theorem ends_bind {action : EStateM Halt σ α} {next : α → EStateM Halt σ β}
    {o : Except Diagnostic β} {s s' : σ} :
    Ends ((action >>= next) s) o s' ↔
      (∃ a t, Ends (action s) (.ok a) t ∧ Ends (next a t) o s') ∨
      ∃ d, Ends (action s) (.error d) s' ∧ o = .error d := by
  change Ends (EStateM.bind action next s) o s' ↔ _
  rw [EStateM.bind]
  cases result : action s with
  | ok a t => simp [Ends]
  | error halt t => cases o <;> simp [Ends]

theorem ends_ok {a : α} {o : Except Diagnostic α} {s s' : σ} :
    Ends (.ok a s) o s' ↔ o = .ok a ∧ s = s' := by
  cases o <;> simp [Ends, eq_comm]

theorem ends_error {halt : Halt} {o : Except Diagnostic α} {s s' : σ} :
    Ends (.error halt s) o s' ↔
      (∃ cause, halt = .failure cause ∧ o = .error cause.diagnostic) ∧ s = s' := by
  cases o with
  | ok a => simp [Ends]
  | error d =>
    constructor
    · rintro ⟨cause, ended, rfl⟩
      cases ended
      exact ⟨⟨cause, rfl, rfl⟩, rfl⟩
    · rintro ⟨⟨cause, rfl, same⟩, rfl⟩
      cases same
      exact ⟨cause, rfl, rfl⟩

/-- How an action ended can be computed. -/
instance decidableEnds [DecidableEq α] [DecidableEq σ] (o : Except Diagnostic α) (s : σ) :
    (result : EStateM.Result Halt σ α) → Decidable (Ends result o s)
  | .ok _ _ => decidable_of_iff' _ ends_ok
  | .error (.failure cause) t =>
    decidable_of_iff (o = .error cause.diagnostic ∧ t = s) (by simp [ends_error])
  | .error .tooDeep _ | .error .outOfFuel _ => isFalse (by simp [ends_error])

theorem ends_ofExcept {r : Except Failure α} {o : Except Diagnostic α} {s s' : σ} :
    Ends ((Halt.ofExcept r : EStateM Halt σ α) s) o s' ↔
      s = s' ∧ ((∃ a, r = .ok a ∧ o = .ok a) ∨
        ∃ cause, r = .error cause ∧ o = .error cause.diagnostic) := by
  cases r with
  | ok a => exact ends_ok.trans (by simp [and_comm])
  | error cause => exact ends_error.trans (by simp [and_comm])

theorem not_ends_tooDeep {o : Except Diagnostic α} {s s' : σ} :
    ¬ Ends (.error .tooDeep s) o s' := by
  simp [ends_error]

namespace Reaches

theorem tooDeep (o : Except Diagnostic α) (s s' : σ) : Reaches (.error .tooDeep s) o s' :=
  .inr ⟨s, rfl⟩

/-- Going on after a value. -/
theorem bind {action : EStateM Halt σ α} {next : α → EStateM Halt σ β} {a : α}
    {o : Except Diagnostic β} {s t u : σ} (h : Reaches (action s) (.ok a) t)
    (hnext : Reaches (next a t) o u) : Reaches ((action >>= next) s) o u := by
  rcases h with ended | ⟨t', deep⟩
  · rcases hnext with ended' | ⟨u', deep⟩
    · exact .inl (ends_bind.2 (.inl ⟨a, t, ended, ended'⟩))
    · refine .inr ⟨u', ?_⟩
      change EStateM.bind action next s = _
      rw [EStateM.bind, show action s = .ok a t from ended]
      exact deep
  · refine .inr ⟨t', ?_⟩
    change EStateM.bind action next s = _
    rw [EStateM.bind, deep]

/-- Not going on after a problem. -/
theorem bind_fails {action : EStateM Halt σ α} {next : α → EStateM Halt σ β} {d : Diagnostic}
    {s t : σ} (h : Reaches (action s) (.error d) t) :
    Reaches ((action >>= next) s) (.error d) t := by
  rcases h with ended | ⟨t', deep⟩
  · exact .inl (ends_bind.2 (.inr ⟨d, ended, rfl⟩))
  · refine .inr ⟨t', ?_⟩
    change EStateM.bind action next s = _
    rw [EStateM.bind, deep]

end Reaches

/-! ### Expressions -/

theorem undefined_diagnostic (name : Token) :
    (Failure.undefined name.lexeme (some name.line)).diagnostic = undefined name := rfl

/-- Reading a variable. -/
theorem evaluate_ident (name : Token) (depth : Nat) (c : Chain) :
    (Expr.ident name).evaluate (depth + 1) c = match c.get? name.lexeme with
      | some v => .ok v c
      | none => .error (.failure (.undefined name.lexeme (some name.line))) c := by
  rw [Expr.evaluate]
  change (match c.get? name.lexeme with | some v => _ | none => _ : EStateM Halt Chain Value) c = _
  cases c.get? name.lexeme <;> rfl

theorem ends_ident {name : Token} {depth : Nat} {o : Except Diagnostic Value} {c c' : Chain} :
    Ends ((Expr.ident name).evaluate (depth + 1) c) o c' ↔
      c = c' ∧ ((∃ v, c.get? name.lexeme = some v ∧ o = .ok v) ∨
        c.get? name.lexeme = none ∧ o = .error (undefined name)) := by
  rw [evaluate_ident]
  cases c.get? name.lexeme with
  | some v => exact ends_ok.trans (by simp [and_comm])
  | none => exact ends_error.trans (by simp [and_comm, undefined_diagnostic])

/-- What an assignment does with the value. -/
theorem ends_assign {name : Token} {v : Value} {o : Except Diagnostic Value} {c c' : Chain} :
    Ends ((do
      match (← get).assign? name.lexeme v with
      | some chain =>
        set chain
        return v
      | none => throw (.failure (.undefined name.lexeme (some name.line))) :
      EStateM Halt Chain Value) c) o c' ↔
      c.assign? name.lexeme v = some c' ∧ o = .ok v ∨
        c.assign? name.lexeme v = none ∧ c = c' ∧ o = .error (undefined name) := by
  change Ends ((match c.assign? name.lexeme v with | some chain => _ | none => _ :
    EStateM Halt Chain Value) c) o c' ↔ _
  cases c.assign? name.lexeme v with
  | some chain => exact ends_ok.trans (by simp [and_comm])
  | none => exact ends_error.trans (by simp [and_comm, undefined_diagnostic])

/-- **Evaluation is sound**: how it ends is derived. -/
theorem Evaluates.of_ends : ∀ {e : Expr}, e.Executable → ∀ {depth : Nat} {c c' : Chain}
    {o : Except Diagnostic Value}, Ends (e.evaluate depth c) o c' → Evaluates c e o c'
  | e, _, 0, c, c', o, run => by
    rw [Expr.evaluate] at run
    exact (not_ends_tooDeep run).elim
  | .literal token, h, depth + 1, c, c', o, run => by
    rw [Expr.evaluate] at run
    obtain ⟨rfl, ⟨v, done, rfl⟩ | ⟨cause, failed, -⟩⟩ := ends_ofExcept.1 run
    · exact .literal (denotes_iff.2 done)
    · exact (Operator.literal_failsOnly (P := fun _ => False) h cause failed).elim
  | .grouping inner, h, depth + 1, c, c', o, run => by
    rw [Expr.evaluate] at run
    exact .grouping (of_ends (show inner.Executable from h) run)
  | .ident name, _, depth + 1, c, c', o, run => by
    obtain ⟨rfl, ⟨v, bound, rfl⟩ | ⟨unbound, rfl⟩⟩ := ends_ident.1 run
    · exact .ident (bound_iff.2 bound)
    · exact .identUnbound (unbound_iff.2 unbound)
  | .assign name value, h, depth + 1, c, c', o, run => by
    rw [Expr.evaluate] at run
    obtain ⟨v, mid, ran, rest⟩ | ⟨d, ran, rfl⟩ := ends_bind.1 run
    · obtain ⟨assigned, rfl⟩ | ⟨unbound, rfl, rfl⟩ := ends_assign.1 rest
      · exact .assign (of_ends h.2 ran) (assigned_iff.2 assigned)
      · exact .assignUnbound (of_ends h.2 ran) (unbound_iff_assign?.2 unbound)
    · exact .assignFails (of_ends h.2 ran)
  | .unary operator right, h, depth + 1, c, c', o, run => by
    obtain ⟨known, hright⟩ := h
    rw [Expr.evaluate] at run
    obtain ⟨v, mid, ran, rest⟩ | ⟨d, ran, rfl⟩ := ends_bind.1 run
    · obtain ⟨rfl, ⟨w, done, rfl⟩ | ⟨cause, failed, rfl⟩⟩ := ends_ofExcept.1 rest
      · exact .unary (of_ends hright ran) (negates_iff.2 done)
      · exact .unaryRefused (of_ends hright ran) (refusesOne_of_error known failed)
    · exact .unaryFails (of_ends hright ran)
  | .binary left operator right, h, depth + 1, c, c', o, run => by
    obtain ⟨known, hleft, hright⟩ := h
    rw [Expr.evaluate] at run
    obtain ⟨v, mid, ran, rest⟩ | ⟨d, ran, rfl⟩ := ends_bind.1 run
    · obtain ⟨w, mid', ran', rest⟩ | ⟨d, ran', rfl⟩ := ends_bind.1 rest
      · obtain ⟨rfl, ⟨u, done, rfl⟩ | ⟨cause, failed, rfl⟩⟩ := ends_ofExcept.1 rest
        · exact .binary (of_ends hleft ran) (of_ends hright ran') (combines_iff.2 done)
        · exact .binaryRefused (of_ends hleft ran) (of_ends hright ran')
            (refusesTwo_of_error known failed)
      · exact .binaryRightFails (of_ends hleft ran) (of_ends hright ran')
    · exact .binaryLeftFails (of_ends hleft ran)
  | .foreign _, h, _ + 1, _, _, _, _ => h.elim

/-- What is reached at every depth but none is reached at every depth. -/
theorem evaluate_reaches {e : Expr} {o : Except Diagnostic Value} {c c' : Chain}
    (h : ∀ depth, Reaches (e.evaluate (depth + 1) c) o c') (depth : Nat) :
    Reaches (e.evaluate depth c) o c' := by
  cases depth with
  | zero =>
    rw [Expr.evaluate]
    exact .tooDeep o c c'
  | succ depth => exact h depth

/-- **Evaluation is complete**: what is derived is reached, at any depth that suffices. -/
theorem Evaluates.reaches {c c' : Chain} {e : Expr} {o : Except Diagnostic Value}
    (h : Evaluates c e o c') : ∀ depth, Reaches (e.evaluate depth c) o c' := by
  induction h with
  | literal denotes =>
    refine evaluate_reaches fun depth => ?_
    rw [Expr.evaluate]
    exact .inl (ends_ofExcept.2 ⟨rfl, .inl ⟨_, denotes_iff.1 denotes, rfl⟩⟩)
  | grouping _ ih =>
    refine evaluate_reaches fun depth => ?_
    rw [Expr.evaluate]
    exact ih depth
  | ident bound =>
    refine evaluate_reaches fun depth => ?_
    exact .inl (ends_ident.2 ⟨rfl, .inl ⟨_, bound_iff.1 bound, rfl⟩⟩)
  | identUnbound unbound =>
    refine evaluate_reaches fun depth => ?_
    exact .inl (ends_ident.2 ⟨rfl, .inr ⟨unbound_iff.1 unbound, rfl⟩⟩)
  | assign _ assigned ih =>
    refine evaluate_reaches fun depth => ?_
    rw [Expr.evaluate]
    exact (ih depth).bind (.inl (ends_assign.2 (.inl ⟨assigned_iff.1 assigned, rfl⟩)))
  | assignUnbound _ unbound ih =>
    refine evaluate_reaches fun depth => ?_
    rw [Expr.evaluate]
    exact (ih depth).bind
      (.inl (ends_assign.2 (.inr ⟨unbound_iff_assign?.1 unbound, rfl, rfl⟩)))
  | unary _ negates ih =>
    refine evaluate_reaches fun depth => ?_
    rw [Expr.evaluate]
    exact (ih depth).bind (.inl (ends_ofExcept.2 ⟨rfl, .inl ⟨_, negates_iff.1 negates, rfl⟩⟩))
  | unaryRefused _ refuses ih =>
    obtain ⟨cause, failed, rfl⟩ := refuses.exists_cause
    refine evaluate_reaches fun depth => ?_
    rw [Expr.evaluate]
    exact (ih depth).bind (.inl (ends_ofExcept.2 ⟨rfl, .inr ⟨cause, failed, rfl⟩⟩))
  | binary _ _ combines ihl ihr =>
    refine evaluate_reaches fun depth => ?_
    rw [Expr.evaluate]
    exact (ihl depth).bind ((ihr depth).bind
      (.inl (ends_ofExcept.2 ⟨rfl, .inl ⟨_, combines_iff.1 combines, rfl⟩⟩)))
  | binaryRefused _ _ refuses ihl ihr =>
    obtain ⟨cause, failed, rfl⟩ := refuses.exists_cause
    refine evaluate_reaches fun depth => ?_
    rw [Expr.evaluate]
    exact (ihl depth).bind ((ihr depth).bind
      (.inl (ends_ofExcept.2 ⟨rfl, .inr ⟨cause, failed, rfl⟩⟩)))
  | binaryRightFails _ _ ihl ihr =>
    refine evaluate_reaches fun depth => ?_
    rw [Expr.evaluate]
    exact (ihl depth).bind (ihr depth).bind_fails
  | assignFails _ ih | unaryFails _ ih | binaryLeftFails _ ih =>
    refine evaluate_reaches fun depth => ?_
    rw [Expr.evaluate]
    exact (ih depth).bind_fails

/-! ### Machines -/

/-- Evaluating in a machine ends as evaluating in its scopes. -/
theorem ends_evaluate {e : Expr} {depth : Nat} {o : Except Diagnostic Value} {m m' : Machine} :
    Ends (Machine.evaluate e depth m) o m' ↔
      ∃ c, Ends (e.evaluate depth m.chain) o c ∧ { m with chain := c } = m' := by
  rw [Machine.evaluate]
  cases e.evaluate depth m.chain with
  | ok v c => simp [ends_ok, and_assoc]
  | error halt c => simp [ends_error, and_assoc]

theorem EvaluatesIn.of_ends {e : Expr} (h : e.Executable) {depth : Nat} {m m' : Machine}
    {o : Except Diagnostic Value} (run : Ends (Machine.evaluate e depth m) o m') :
    EvaluatesIn m e o m' := by
  obtain ⟨c, ran, rfl⟩ := ends_evaluate.1 run
  exact .intro (.of_ends h ran)

theorem EvaluatesIn.reaches {e : Expr} {m m' : Machine} {o : Except Diagnostic Value}
    (h : EvaluatesIn m e o m') (depth : Nat) : Reaches (Machine.evaluate e depth m) o m' := by
  obtain ⟨evaluates⟩ := h
  rcases evaluates.reaches depth with ended | ⟨c, deep⟩
  · exact .inl (ends_evaluate.2 ⟨_, ended, rfl⟩)
  · refine .inr ⟨{ m with chain := c }, ?_⟩
    rw [Machine.evaluate, deep]

/-- A block ends as its body does, in a machine from which the scope of the block is dropped. -/
theorem ends_inBlock {body : EStateM Halt Machine Unit} {o : Except Diagnostic Unit}
    {m m' : Machine} : Ends (Machine.inBlock body m) o m' ↔
      ∃ t, Ends (body { m with chain := m.chain.push }) o t ∧
        { t with chain := t.chain.pop } = m' := by
  rw [Machine.inBlock]
  cases body { m with chain := m.chain.push } with
  | ok u t => simp [ends_ok, and_assoc]
  | error halt t => simp [ends_error, and_assoc]

/-- A block reaches what its body reaches, with the scopes that were around. -/
theorem reaches_inBlock {body : EStateM Halt Machine Unit} {o : Except Diagnostic Unit}
    {m m' : Machine} {c : Chain} (h : Reaches (body { m with chain := m.chain.push }) o m')
    (outer : m'.chain.outer = c.scopes) :
    Reaches (Machine.inBlock body m) o { m' with chain := c } := by
  rcases h with ended | ⟨t, deep⟩
  · have popped : m'.chain.pop = c := by
      rw [Chain.pop, outer]
      rfl
    exact .inl (ends_inBlock.2 ⟨m', ended, by rw [popped]⟩)
  · refine .inr ⟨{ t with chain := t.chain.pop }, ?_⟩
    rw [Machine.inBlock, deep]

/-- Behind the body of a block there are the scopes around the block. -/
theorem outer_of_keptOuter {except : List String} {c c' : Chain}
    (kept : c.push.KeptOuter except c') : c'.outer = c'.pop.scopes := by
  obtain ⟨inner, outer⟩ := c'
  cases kept
  rfl

/-- One round of a loop whose condition is an expression, and the rounds that are left. -/
theorem iterate_succ (c : Expr) (depth : Nat) (body : EStateM Halt Machine Unit) (fuel : Nat) :
    Machine.iterate (Value.isTruthy <$> Machine.evaluate c depth) body (fuel + 1) =
      Machine.evaluate c depth >>= fun v =>
        if v.isTruthy then
          body >>= fun _ =>
            Machine.iterate (Value.isTruthy <$> Machine.evaluate c depth) body fuel
        else pure () := by
  rw [Machine.iterate_succ, bind_map_left]

/-! ### Statements: what ends is derived -/

/-- A loop that ends repeats its body, by induction on the rounds. -/
theorem Repeats.of_ends {c : Expr} {body : Stmt} (hc : c.Executable) {rounds depth : Nat}
    (hbody : ∀ {m m' : Machine} {o : Except Diagnostic Unit},
      Ends (body.execute rounds depth m) o m' → Executes m body o m') (fuel : Nat)
    {m m' : Machine} {o : Except Diagnostic Unit}
    (run : Ends (Machine.iterate (Value.isTruthy <$> Machine.evaluate c depth)
      (body.execute rounds depth) fuel m) o m') : Repeats m c body o m' := by
  induction fuel generalizing m with
  | zero =>
    obtain ⟨⟨cause, impossible, -⟩, -⟩ := ends_error.1 run
    cases impossible
  | succ fuel ih =>
    rw [iterate_succ] at run
    obtain ⟨v, t, ran, rest⟩ | ⟨d, ran, rfl⟩ := ends_bind.1 run
    · have evaluates := EvaluatesIn.of_ends hc ran
      split at rest
      next truthy =>
        obtain ⟨_, u, ran', rest⟩ | ⟨d, ran', rfl⟩ := ends_bind.1 rest
        · exact .again evaluates (truthy_iff.2 truthy) (hbody ran') (ih rest)
        · exact .bodyFails evaluates (truthy_iff.2 truthy) (hbody ran')
      next falsy =>
        obtain ⟨rfl, rfl⟩ := ends_ok.1 rest
        exact .done evaluates (mt truthy_iff.1 falsy)
    · exact .conditionFails (.of_ends hc ran)

mutual

/-- **Execution is sound**: how a statement ends is derived. -/
theorem Executes.of_ends (rounds : Nat) : ∀ {s : Stmt}, s.WellFormed → ∀ {depth : Nat}
    {m m' : Machine} {o : Except Diagnostic Unit}, Ends (s.execute rounds depth m) o m' →
    Executes m s o m'
  | s, _, 0, m, m', o, run => by
    rw [Stmt.execute] at run
    exact (not_ends_tooDeep run).elim
  | .expression e, h, depth + 1, m, m', o, run => by
    rw [Stmt.execute] at run
    obtain ⟨v, t, ran, rest⟩ | ⟨d, ran, rfl⟩ := ends_bind.1 run
    · obtain ⟨rfl, rfl⟩ := ends_ok.1 rest
      exact .expression (.of_ends (Expr.Stratified.executable h) ran)
    · exact .expressionFails (.of_ends (Expr.Stratified.executable h) ran)
  | .print e, h, depth + 1, m, m', o, run => by
    rw [Stmt.execute] at run
    obtain ⟨v, t, ran, rest⟩ | ⟨d, ran, rfl⟩ := ends_bind.1 run
    · obtain ⟨rfl, rfl⟩ := ends_ok.1 rest
      exact .print (.of_ends (Expr.Stratified.executable h) ran)
    · exact .printFails (.of_ends (Expr.Stratified.executable h) ran)
  | .var name none, _, depth + 1, m, m', o, run => by
    rw [Stmt.execute] at run
    obtain ⟨rfl, rfl⟩ := ends_ok.1 run
    exact .var (written_iff.2 rfl)
  | .var name (some e), h, depth + 1, m, m', o, run => by
    rw [Stmt.execute] at run
    obtain ⟨v, t, ran, rest⟩ | ⟨d, ran, rfl⟩ := ends_bind.1 run
    · obtain ⟨rfl, rfl⟩ := ends_ok.1 rest
      exact .varInitialized (.of_ends h.2.executable ran) (written_iff.2 rfl)
    · exact .varFails (.of_ends h.2.executable ran)
  | .block body, h, depth + 1, m, m', o, run => by
    rw [Stmt.execute] at run
    obtain ⟨t, ran, rfl⟩ := ends_inBlock.1 run
    have kept := Stmt.executeAll_preserves rounds h depth { m with chain := m.chain.push }
    rw [ran.final] at kept
    exact .block (ExecutesAll.of_ends rounds h ran) (outer_of_keptOuter kept)
  | .ifThen c yes, h, depth + 1, m, m', o, run => by
    obtain ⟨hc, -, hyes⟩ := h
    rw [Stmt.execute] at run
    obtain ⟨v, t, ran, rest⟩ | ⟨d, ran, rfl⟩ := ends_bind.1 run
    · have evaluates := EvaluatesIn.of_ends hc.executable ran
      split at rest
      next truthy =>
        exact .ifThen evaluates (truthy_iff.2 truthy) (Executes.of_ends rounds hyes rest)
      next falsy =>
        obtain ⟨rfl, rfl⟩ := ends_ok.1 rest
        exact .ifThenSkips evaluates (mt truthy_iff.1 falsy)
    · exact .ifThenFails (.of_ends hc.executable ran)
  | .ifElse c yes no, h, depth + 1, m, m', o, run => by
    obtain ⟨hc, ⟨-, -, hyes⟩, -, hno⟩ := h
    rw [Stmt.execute] at run
    obtain ⟨v, t, ran, rest⟩ | ⟨d, ran, rfl⟩ := ends_bind.1 run
    · have evaluates := EvaluatesIn.of_ends hc.executable ran
      split at rest
      next truthy =>
        exact .ifElseYes evaluates (truthy_iff.2 truthy) (Executes.of_ends rounds hyes rest)
      next falsy =>
        exact .ifElseNo evaluates (mt truthy_iff.1 falsy) (Executes.of_ends rounds hno rest)
    · exact .ifElseFails (.of_ends hc.executable ran)
  | .loop c body, h, depth + 1, m, m', o, run => by
    obtain ⟨hc, -, hbody⟩ := h
    rw [Stmt.execute] at run
    exact .loop (.of_ends hc.executable (Executes.of_ends rounds hbody) rounds run)
  | .foreign _, h, _, _, _, _, _ => h.elim

/-- **Execution is sound**: how statements end is derived. -/
theorem ExecutesAll.of_ends (rounds : Nat) : ∀ {ss : List Stmt}, Stmt.AllWellFormed ss →
    ∀ {depth : Nat} {m m' : Machine} {o : Except Diagnostic Unit},
    Ends (Stmt.executeAll rounds ss depth m) o m' → ExecutesAll m ss o m'
  | [], _, depth, m, m', o, run => by
    rw [Stmt.executeAll] at run
    obtain ⟨rfl, rfl⟩ := ends_ok.1 run
    exact .nil
  | s :: ss, h, depth, m, m', o, run => by
    obtain ⟨hs, hss⟩ := h
    rw [Stmt.executeAll] at run
    obtain ⟨_, t, ran, rest⟩ | ⟨d, ran, rfl⟩ := ends_bind.1 run
    · exact .cons (Executes.of_ends rounds hs ran) (ExecutesAll.of_ends rounds hss rest)
    · exact .fails (Executes.of_ends rounds hs ran)

end

/-! ### Statements: what is derived is reached -/

/-- What is reached in time at every depth but none is reached in time at every depth. -/
theorem execute_reaches {s : Stmt} {m m' : Machine} {o : Except Diagnostic Unit}
    (h : ∀ depth, ∀ᶠ rounds in atTop, Reaches (s.execute rounds (depth + 1) m) o m')
    (depth : Nat) : ∀ᶠ rounds in atTop, Reaches (s.execute rounds depth m) o m' := by
  cases depth with
  | zero =>
    refine .of_forall fun rounds => ?_
    rw [Stmt.execute]
    exact .tooDeep o m m'
  | succ depth => exact h depth

/-- A statement that begins with an expression fails if the expression does. -/
theorem execute_fails {s : Stmt} {e : Expr} {d : Diagnostic} {m m' : Machine}
    {next : Nat → Nat → Value → EStateM Halt Machine Unit}
    (begins : ∀ rounds depth,
      s.execute rounds (depth + 1) = Machine.evaluate e depth >>= next rounds depth)
    (fails : EvaluatesIn m e (.error d) m') (depth : Nat) :
    ∀ᶠ rounds in atTop, Reaches (s.execute rounds depth m) (.error d) m' := by
  refine execute_reaches (fun depth => .of_forall fun rounds => ?_) depth
  rw [begins]
  exact (fails.reaches depth).bind_fails

mutual

/-- **Execution is complete**: what is derived is reached, at any depth that suffices and with all
but few rounds. -/
theorem Executes.reaches : ∀ {m m' : Machine} {s : Stmt} {o : Except Diagnostic Unit},
    Executes m s o m' → ∀ depth,
    ∀ᶠ rounds in atTop, Reaches (s.execute rounds depth m) o m'
  | _, _, _, _, .expression evaluates, depth | _, _, _, _, .print evaluates, depth => by
    refine execute_reaches (fun depth => .of_forall fun rounds => ?_) depth
    rw [Stmt.execute]
    exact (evaluates.reaches depth).bind (.inl rfl)
  | _, _, _, _, .var written, depth => by
    refine execute_reaches (fun depth => .of_forall fun rounds => ?_) depth
    rw [Stmt.execute, ← written_iff.1 written]
    exact .inl rfl
  | _, _, _, _, .varInitialized evaluates written, depth => by
    refine execute_reaches (fun depth => .of_forall fun rounds => ?_) depth
    rw [Stmt.execute, ← written_iff.1 written]
    exact (evaluates.reaches depth).bind (.inl rfl)
  | _, _, _, _, .block executes outer, depth => by
    refine execute_reaches (fun depth => ?_) depth
    filter_upwards [executes.reaches depth] with rounds reached
    rw [Stmt.execute]
    exact reaches_inBlock reached outer
  | _, _, _, _, .ifThen evaluates truthy executes, depth
  | _, _, _, _, .ifElseYes evaluates truthy executes, depth => by
    refine execute_reaches (fun depth => ?_) depth
    filter_upwards [executes.reaches depth] with rounds reached
    rw [Stmt.execute]
    refine (evaluates.reaches depth).bind ?_
    rwa [if_pos (truthy_iff.1 truthy)]
  | _, _, _, _, .ifThenSkips evaluates falsy, depth => by
    refine execute_reaches (fun depth => .of_forall fun rounds => ?_) depth
    rw [Stmt.execute]
    refine (evaluates.reaches depth).bind ?_
    rw [if_neg (mt truthy_iff.2 falsy)]
    exact .inl rfl
  | _, _, _, _, .ifElseNo evaluates falsy executes, depth => by
    refine execute_reaches (fun depth => ?_) depth
    filter_upwards [executes.reaches depth] with rounds reached
    rw [Stmt.execute]
    refine (evaluates.reaches depth).bind ?_
    rwa [if_neg (mt truthy_iff.2 falsy)]
  | _, _, _, _, .expressionFails evaluates, depth | _, _, _, _, .printFails evaluates, depth
  | _, _, _, _, .varFails evaluates, depth | _, _, _, _, .ifThenFails evaluates, depth
  | _, _, _, _, .ifElseFails evaluates, depth =>
    execute_fails (fun _ _ => by rw [Stmt.execute]) evaluates depth
  | _, _, _, _, .loop repeats, depth => by
    refine execute_reaches (fun depth => ?_) depth
    obtain ⟨enough, eventually⟩ := repeats.reaches depth
    filter_upwards [eventually, eventually_ge_atTop enough] with rounds reached le
    rw [Stmt.execute]
    exact reached rounds le

/-- **Execution is complete**: what is derived of statements is reached. -/
theorem ExecutesAll.reaches : ∀ {m m' : Machine} {ss : List Stmt} {o : Except Diagnostic Unit},
    ExecutesAll m ss o m' → ∀ depth,
    ∀ᶠ rounds in atTop, Reaches (Stmt.executeAll rounds ss depth m) o m'
  | _, _, _, _, .nil, depth => by
    refine .of_forall fun rounds => ?_
    rw [Stmt.executeAll]
    exact .inl rfl
  | _, _, _, _, .cons executes rest, depth => by
    filter_upwards [executes.reaches depth, rest.reaches depth] with rounds reached reached'
    rw [Stmt.executeAll]
    exact reached.bind reached'
  | _, _, _, _, .fails executes, depth => by
    filter_upwards [executes.reaches depth] with rounds reached
    rw [Stmt.executeAll]
    exact reached.bind_fails

/-- What is derived of a loop is reached with as many rounds of the loop itself as the derivation
has, and with all but few rounds of the loops in its body. -/
theorem Repeats.reaches : ∀ {m m' : Machine} {c : Expr} {body : Stmt}
    {o : Except Diagnostic Unit}, Repeats m c body o m' → ∀ depth,
    ∃ enough, ∀ᶠ rounds in atTop, ∀ fuel ≥ enough,
      Reaches (Machine.iterate (Value.isTruthy <$> Machine.evaluate c depth)
        (body.execute rounds depth) fuel m) o m'
  | _, _, _, _, _, .done evaluates falsy, depth => by
    refine ⟨1, .of_forall fun rounds fuel le => ?_⟩
    obtain ⟨fuel, rfl⟩ := Nat.exists_eq_succ_of_ne_zero (Nat.ne_zero_of_lt le)
    rw [iterate_succ]
    refine (evaluates.reaches depth).bind ?_
    rw [if_neg (mt truthy_iff.2 falsy)]
    exact .inl rfl
  | _, _, _, _, _, .again evaluates truthy executes repeats, depth => by
    obtain ⟨enough, eventually⟩ := repeats.reaches depth
    refine ⟨enough + 1, ?_⟩
    filter_upwards [executes.reaches depth, eventually] with rounds reached reached' fuel le
    obtain ⟨fuel, rfl⟩ := Nat.exists_eq_succ_of_ne_zero (Nat.ne_zero_of_lt le)
    rw [iterate_succ]
    refine (evaluates.reaches depth).bind ?_
    rw [if_pos (truthy_iff.1 truthy)]
    exact reached.bind (reached' fuel (Nat.le_of_succ_le_succ le))
  | _, _, _, _, _, .bodyFails evaluates truthy executes, depth => by
    refine ⟨1, ?_⟩
    filter_upwards [executes.reaches depth] with rounds reached fuel le
    obtain ⟨fuel, rfl⟩ := Nat.exists_eq_succ_of_ne_zero (Nat.ne_zero_of_lt le)
    rw [iterate_succ]
    refine (evaluates.reaches depth).bind ?_
    rw [if_pos (truthy_iff.1 truthy)]
    exact reached.bind_fails
  | _, _, _, _, _, .conditionFails evaluates, depth => by
    refine ⟨1, .of_forall fun rounds fuel le => ?_⟩
    obtain ⟨fuel, rfl⟩ := Nat.exists_eq_succ_of_ne_zero (Nat.ne_zero_of_lt le)
    rw [iterate_succ]
    exact (evaluates.reaches depth).bind_fails

end

/-! ### Programs -/

/-- **Execution is what the semantics says.** For the statements of any parse, in any machine and at
any depth that suffices: what the rules derive is how execution ends, once there are enough rounds;
however many rounds there are, execution ends only as the rules derive; and execution runs out of
rounds for ever exactly if the rules derive nothing. -/
theorem executeAll_adequate (limit : Nat) (tokens : List Token) (depth : Nat) (m : Machine)
    (within : ∀ rounds t, Stmt.executeAll rounds (Parsed.ofTokens limit tokens).statements depth m
      ≠ .error .tooDeep t) :
    let ss := (Parsed.ofTokens limit tokens).statements
    (∀ o m', ExecutesAll m ss o m' ↔
      ∃ enough, ∀ rounds ≥ enough, Ends (Stmt.executeAll rounds ss depth m) o m') ∧
    (∀ rounds o m', Ends (Stmt.executeAll rounds ss depth m) o m' → ExecutesAll m ss o m') ∧
    ((∀ rounds, ∃ t, Stmt.executeAll rounds ss depth m = .error .outOfFuel t) ↔
      ¬ ∃ o m', ExecutesAll m ss o m') := by
  intro ss
  have wellFormed : Stmt.AllWellFormed ss :=
    Stmt.allWellFormed_iff.2 fun s mem => Parsed.wellFormed_of_mem mem
  have sound (rounds : Nat) (o : Except Diagnostic Unit) (m' : Machine)
      (run : Ends (Stmt.executeAll rounds ss depth m) o m') : ExecutesAll m ss o m' :=
    .of_ends rounds wellFormed run
  have complete {o : Except Diagnostic Unit} {m' : Machine} (h : ExecutesAll m ss o m') :
      ∃ enough, ∀ rounds ≥ enough, Ends (Stmt.executeAll rounds ss depth m) o m' := by
    obtain ⟨enough, reached⟩ := eventually_atTop.1 (h.reaches depth)
    refine ⟨enough, fun rounds le => (reached rounds le).resolve_right ?_⟩
    rintro ⟨t, deep⟩
    exact within rounds t deep
  refine ⟨fun o m' => ⟨complete, fun ⟨enough, ended⟩ => ?_⟩, sound, fun out => ?_, fun none => ?_⟩
  · exact sound enough o m' (ended enough (Nat.le_refl _))
  · rintro ⟨o, m', h⟩
    obtain ⟨enough, ended⟩ := complete h
    obtain ⟨t, outOfFuel⟩ := out enough
    have ended := ended enough (Nat.le_refl _)
    rw [outOfFuel] at ended
    obtain ⟨⟨cause, impossible, -⟩, -⟩ := ends_error.1 ended
    cases impossible
  · -- whatever is not out of rounds has ended, and would be derived
    intro rounds
    cases result : Stmt.executeAll rounds ss depth m with
    | ok u t => exact (none ⟨.ok u, t, sound rounds (.ok u) t result⟩).elim
    | error halt t =>
      cases halt with
      | failure cause =>
        exact (none ⟨.error cause.diagnostic, t, sound rounds _ t ⟨cause, result, rfl⟩⟩).elim
      | tooDeep => exact (within rounds t result).elim
      | outOfFuel => exact ⟨t, rfl⟩

/-- A loop whose body prints and assigns, and a sum that is refused after it. -/
theorem executeAll_adequate_loop :
    let ss := (Parsed.ofTokens 9
      (Lexer.tokens "while (a) \x7b print a; a = nil; \x7d b = a + (b = true);")).statements
    let m : Machine := ⟨⟨Scope.ofList [("a", .bool true), ("b", .nil)], []⟩, "first\n"⟩
    (∀ rounds t, Stmt.executeAll rounds ss 9 m ≠ .error .tooDeep t) ∧
      ExecutesAll m ss
        (.error ⟨.runtime, "Operands must be two numbers or two strings.", some 1, " at '+'",
          some "+"⟩)
        ⟨⟨Scope.ofList [("a", .nil), ("b", .bool true)], []⟩, "first\ntrue\n"⟩ := by
  intro ss m
  have height_le : Stmt.heightAll ss ≤ 9 := by decide +kernel
  have within (rounds : Nat) (t : Machine) : Stmt.executeAll rounds ss 9 m ≠ .error .tooDeep t :=
    fun deep => Stmt.executeAll_shallow rounds ss height_le deep
  have ended : Ends (Stmt.executeAll 2 ss 9 m)
      (.error ⟨.runtime, "Operands must be two numbers or two strings.", some 1, " at '+'",
        some "+"⟩)
      ⟨⟨Scope.ofList [("a", .nil), ("b", .bool true)], []⟩, "first\ntrue\n"⟩ := by
    decide +kernel
  exact ⟨within, (executeAll_adequate 9 _ 9 m within).2.1 2 _ _ ended⟩

end Lox.Semantics
