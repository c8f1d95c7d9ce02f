import Lox.Eval.Statement
import Lox.Proofs.Grammar.Names

/-!
# Two executions side by side

Two actions simulate each other if from related states they end alike: both with the same value or
both with the same halt, and again in related states. Some halts may be excused, for comparisons of
programs that need not nest equally deep. The ways in which actions are put together keep this, so
for two programs it is enough to look at them constructor by constructor.

The same expression ends alike from two chains if none of its names tells them apart, in reading or
in writing (`Expr.evaluate_simulates`).
-/

namespace Lox

/-- The two runs ended with the same value or the same halt, in related states, or one of them with
a halt that is excused. -/
inductive Alike {σ τ α : Type} (excused : Halt → Prop) (R : σ → τ → Prop) :
    EStateM.Result Halt σ α → EStateM.Result Halt τ α → Prop
  | ok (a : α) {s : σ} {t : τ} (related : R s t) : Alike excused R (.ok a s) (.ok a t)
  | error (halt : Halt) {s : σ} {t : τ} (related : R s t) :
    Alike excused R (.error halt s) (.error halt t)
  | excuse_left {halt : Halt} {s : σ} {r : EStateM.Result Halt τ α} (h : excused halt) :
    Alike excused R (.error halt s) r
  | excuse_right {halt : Halt} {t : τ} {r : EStateM.Result Halt σ α} (h : excused halt) :
    Alike excused R r (.error halt t)

/-- From related states the two actions end alike. -/
def Simulates {σ τ α : Type} (excused : Halt → Prop) (R : σ → τ → Prop)
    (action : EStateM Halt σ α) (action' : EStateM Halt τ α) : Prop :=
  ∀ ⦃s t⦄, R s t → Alike excused R (action s) (action' t)

namespace Simulates

variable {σ τ α β : Type} {excused : Halt → Prop} {R : σ → τ → Prop}
  {action : EStateM Halt σ α} {action' : EStateM Halt τ α}

theorem pure (a : α) :
    Simulates excused R (Pure.pure a : EStateM Halt σ α) (Pure.pure a : EStateM Halt τ α) :=
  fun _ _ related => .ok a related

theorem throw (halt : Halt) :
    Simulates excused R (MonadExcept.throw halt : EStateM Halt σ α)
      (MonadExcept.throw halt : EStateM Halt τ α) :=
  fun _ _ related => .error halt related

theorem excuse_left {halt : Halt} (h : excused halt) :
    Simulates excused R (MonadExcept.throw halt : EStateM Halt σ α) action' :=
  fun _ _ _ => .excuse_left h

theorem excuse_right {halt : Halt} (h : excused halt) :
    Simulates excused R action (MonadExcept.throw halt : EStateM Halt τ α) :=
  fun _ _ _ => .excuse_right h

theorem ofExcept (result : Except Failure α) :
    Simulates excused R (Halt.ofExcept result : EStateM Halt σ α)
      (Halt.ofExcept result : EStateM Halt τ α) := by
  cases result with
  | ok a => exact pure a
  | error cause => exact throw (.failure cause)

/-- Actions that first look at their state. -/
theorem get {next : σ → EStateM Halt σ α} {next' : τ → EStateM Halt τ α}
    (h : ∀ ⦃s t⦄, R s t → Alike excused R (next s s) (next' t t)) :
    Simulates excused R (MonadState.get >>= next) (MonadState.get >>= next') :=
  fun _ _ related => h related

theorem bind {next : α → EStateM Halt σ β} {next' : α → EStateM Halt τ β}
    (h : Simulates excused R action action')
    (hnext : ∀ a, Simulates excused R (next a) (next' a)) :
    Simulates excused R (action >>= next) (action' >>= next') := by
  intro s t related
  have first := h related
  show Alike excused R (EStateM.bind action next s) (EStateM.bind action' next' t)
  unfold EStateM.bind
  generalize action s = result at first
  generalize action' t = result' at first
  cases first with
  | ok a related => exact hnext a related
  | error halt related => exact .error halt related
  | excuse_left h => exact .excuse_left h
  | excuse_right h => exact .excuse_right h

theorem map (f : α → β) (h : Simulates excused R action action') :
    Simulates excused R (f <$> action) (f <$> action') := by
  rw [map_eq_pure_bind, map_eq_pure_bind]
  exact h.bind fun a => pure (f a)

end Simulates

/-! ### Expressions -/

/-- No halt is excused. -/
def Halt.never (_ : Halt) : Prop := False

namespace Chain

/-- The name does not tell related chains apart: it has the same value in both, and they stay
related when it is assigned to. -/
structure Hides (C : Chain → Chain → Prop) (name : String) : Prop where
  get? : ∀ ⦃c c'⦄, C c c' → c.get? name = c'.get? name
  assign? : ∀ ⦃c c'⦄, C c c' → ∀ v, Option.Rel C (c.assign? name v) (c'.assign? name v)

/-- What assignments do to related lists of scopes they do to chains of these scopes. -/
theorem rel_assign? {S : List Scope → List Scope → Prop} {c c' : Chain} {name : String} {v : Value}
    (h : Option.Rel S (assignIn name v c.scopes) (assignIn name v c'.scopes)) :
    Option.Rel (fun d d' => S d.scopes d'.scopes) (c.assign? name v) (c'.assign? name v) := by
  rw [← map_scopes_assign?, ← map_scopes_assign?] at h
  generalize c.assign? name v = result at h
  generalize c'.assign? name v = result' at h
  cases result <;> cases result' <;> rcases h with related | -
  · exact .none
  · exact .some related

end Chain

/-- **An expression sees of the scopes what its names show**, and nothing else. -/
theorem Expr.evaluate_simulates {excused : Halt → Prop} {C : Chain → Chain → Prop} :
    ∀ e : Expr, (∀ n ∈ e.names, Chain.Hides C n) → ∀ depth,
      Simulates excused C (e.evaluate depth) (e.evaluate depth)
  | e, _, 0 => by
    rw [evaluate]
    exact .throw _
  | .literal token, _, _ + 1 => .ofExcept _
  | .grouping inner, hides, depth + 1 => by
    rw [evaluate]
    exact inner.evaluate_simulates hides depth
  | .ident name, hides, _ + 1 => by
    rw [evaluate]
    refine .get fun c c' related => ?_
    rw [(hides _ (List.mem_singleton_self _)).get? related]
    cases c'.get? name.lexeme with
    | some v => exact .ok v related
    | none => exact .error _ related
  | .assign name value, hides, depth + 1 => by
    obtain ⟨hname, hvalue⟩ := List.forall_mem_cons.1 hides
    rw [evaluate]
    refine (value.evaluate_simulates hvalue depth).bind fun v => .get fun c c' related => ?_
    have assigned := hname.assign? related v
    generalize c.assign? name.lexeme v = result at assigned
    generalize c'.assign? name.lexeme v = result' at assigned
    cases assigned with
    | some related => exact .ok v related
    | none => exact .error _ related
  | .unary operator right, hides, depth + 1 => by
    rw [evaluate]
    exact (right.evaluate_simulates hides depth).bind fun v => .ofExcept _
  | .binary left operator right, hides, depth + 1 => by
    obtain ⟨hleft, hright⟩ := List.forall_mem_append.1 hides
    rw [evaluate]
    exact (left.evaluate_simulates hleft depth).bind fun v =>
      (right.evaluate_simulates hright depth).bind fun w => .ofExcept _
  | .foreign label, _, _ + 1 => .throw _

/-! ### Statements -/

namespace Machine

variable {excused : Halt → Prop} {C D : Chain → Chain → Prop}

/-- Machines that have printed the same and whose chains are related. -/
structure Over (C : Chain → Chain → Prop) (m m' : Machine) : Prop where
  chain : C m.chain m'.chain
  output : m.output = m'.output

theorem evaluate_simulates {e e' : Expr} {depth depth' : Nat}
    (h : Simulates excused C (e.evaluate depth) (e'.evaluate depth')) :
    Simulates excused (Over C) (evaluate e depth) (evaluate e' depth') := by
  intro m m' related
  have first := h related.chain
  unfold evaluate
  generalize e.evaluate depth m.chain = result at first
  generalize e'.evaluate depth' m'.chain = result' at first
  cases first with
  | ok v chain => exact .ok v ⟨chain, related.output⟩
  | error halt chain => exact .error halt ⟨chain, related.output⟩
  | excuse_left h => exact .excuse_left h
  | excuse_right h => exact .excuse_right h

theorem print_simulates (line : String) :
    Simulates excused (Over C) (print line) (print line) := by
  intro m m' related
  refine .ok () ⟨related.chain, ?_⟩
  show m.output ++ line ++ "\n" = m'.output ++ line ++ "\n"
  rw [related.output]

theorem define_simulates {name : String} {v : Value}
    (h : ∀ ⦃c c'⦄, C c c' → C (c.define name v) (c'.define name v)) :
    Simulates excused (Over C) (define name v) (define name v) :=
  fun _ _ related => .ok () ⟨h related.chain, related.output⟩

/-- Blocks end alike if their bodies do, in whatever relation of the chains within. -/
theorem inBlock_simulates {body body' : EStateM Halt Machine Unit}
    (enter : ∀ ⦃c c'⦄, C c c' → D c.push c'.push) (leave : ∀ ⦃c c'⦄, D c c' → C c.pop c'.pop)
    (h : Simulates excused (Over D) body body') :
    Simulates excused (Over C) (inBlock body) (inBlock body') := by
  intro m m' related
  have within : Over D { m with chain := m.chain.push } { m' with chain := m'.chain.push } :=
    ⟨enter related.chain, related.output⟩
  have first := h within
  unfold inBlock
  generalize body { m with chain := m.chain.push } = result at first
  generalize body' { m' with chain := m'.chain.push } = result' at first
  cases first with
  | ok u related => exact .ok u ⟨leave related.chain, related.output⟩
  | error halt related => exact .error halt ⟨leave related.chain, related.output⟩
  | excuse_left h => exact .excuse_left h
  | excuse_right h => exact .excuse_right h

theorem iterate_simulates {R : Machine → Machine → Prop}
    {condition condition' : EStateM Halt Machine Bool} {body body' : EStateM Halt Machine Unit}
    (hcondition : Simulates excused R condition condition') (hbody : Simulates excused R body body')
    (rounds : Nat) :
    Simulates excused R (iterate condition body rounds) (iterate condition' body' rounds) := by
  induction rounds with
  | zero => exact Simulates.throw .outOfFuel
  | succ rounds ih =>
    rw [iterate_succ, iterate_succ]
    refine hcondition.bind fun holds => ?_
    split
    · exact hbody.bind fun _ => ih
    · exact .pure ()

end Machine

end Lox
