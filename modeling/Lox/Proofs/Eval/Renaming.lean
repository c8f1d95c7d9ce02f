import Lox.Proofs.Eval.Scopes
import Lox.Proofs.Grammar.Names
import Mathlib.Data.List.Nodup
import Mathlib.Logic.Embedding.Basic

/-!
# Names do not matter to execution

A program whose variables are renamed, started in scopes whose names are renamed in the same way,
does the same: it prints the same, leaves the renamed scopes behind, and fails with the same failure,
which blames the renamed variable if it is that a variable is undefined
(`Stmt.executeAll_rename`). All that is asked of the renaming is that different names stay different.

The second action `Mirrors` the first if from the renamed state it ends as the first, renamed. This
is kept by the ways in which actions are put together.
-/

namespace Lox

variable (r : String ↪ String)

/-! ### Renamed scopes -/

/-- The scope with its names renamed. -/
def Scope.rename (s : Scope) : Scope where
  bindings := s.bindings.map (Prod.map r id)
  nodup := by
    rw [List.map_map]
    have names : Prod.fst ∘ Prod.map r id = r ∘ (Prod.fst : String × Value → String) := rfl
    rw [names, ← List.map_map]
    exact s.nodup.map r.injective

/-- The chain with the names in all scopes renamed. -/
def Chain.rename (c : Chain) : Chain := ⟨c.inner.rename r, c.outer.map (Scope.rename r)⟩

/-- The machine with the names in all scopes renamed. -/
def Machine.rename (m : Machine) : Machine := { m with chain := m.chain.rename r }

namespace Scope

theorem lookup_rename (name : String) (bs : List (String × Value)) :
    (bs.map (Prod.map r id)).lookup (r name) = bs.lookup name := by
  induction bs with
  | nil => rfl
  | cons b bs ih =>
    obtain ⟨n, v⟩ := b
    have same : (r name == r n) = (name == n) := by simp [Bool.beq_eq_decide_eq]
    simp only [List.map_cons, Prod.map_apply, List.lookup_cons, same, ih, id]

@[simp] theorem get?_rename (s : Scope) (name : String) : (s.rename r).get? (r name) = s.get? name :=
  lookup_rename r name s.bindings

@[simp] theorem binds_rename (s : Scope) (name : String) :
    (s.rename r).binds (r name) = s.binds name := by
  rw [← isSome_get?, ← isSome_get?, get?_rename]

theorem putBinding_rename (name : String) (v : Value) (bs : List (String × Value)) :
    putBinding (r name) v (bs.map (Prod.map r id)) =
      (putBinding name v bs).map (Prod.map r id) := by
  induction bs with
  | nil => rfl
  | cons b bs ih =>
    obtain ⟨n, w⟩ := b
    simp only [List.map_cons, Prod.map_apply, putBinding, r.injective.eq_iff, ih]
    split <;> rfl

@[simp] theorem define_rename (s : Scope) (name : String) (v : Value) :
    (s.rename r).define (r name) v = (s.define name v).rename r :=
  ext_bindings (putBinding_rename r name v s.bindings)

end Scope

namespace Chain

variable (c : Chain) (name : String) (v : Value)

@[simp] theorem scopes_rename : (c.rename r).scopes = c.scopes.map (Scope.rename r) := rfl

@[simp] theorem get?_rename : (c.rename r).get? (r name) = c.get? name := by
  simp only [get?, scopes_rename, List.findSome?_map, Function.comp_def, Scope.get?_rename]

@[simp] theorem define_rename : (c.rename r).define (r name) v = (c.define name v).rename r := by
  simp only [define, rename, Scope.define_rename]

theorem assignIn_rename (ss : List Scope) :
    assignIn (r name) v (ss.map (Scope.rename r)) =
      (assignIn name v ss).map (List.map (Scope.rename r)) := by
  induction ss with
  | nil => rfl
  | cons s ss ih =>
    simp only [List.map_cons, assignIn, Scope.binds_rename, Scope.define_rename, ih]
    split
    · rfl
    · simp only [Option.map_map, Function.comp_def, List.map_cons]

@[simp] theorem assign?_rename :
    (c.rename r).assign? (r name) v = (c.assign? name v).map (rename r) := by
  have inner : (c.rename r).inner = c.inner.rename r := rfl
  have outer : (c.rename r).outer = c.outer.map (Scope.rename r) := rfl
  simp only [assign?, define_rename, inner, outer, Scope.binds_rename, assignIn_rename]
  split
  · rfl
  · simp only [Option.map_map, Function.comp_def, rename]

@[simp] theorem pop_rename : (c.rename r).pop = c.pop.rename r := by
  obtain ⟨inner, outer⟩ := c
  cases outer <;> rfl

end Chain

/-! ### Renamed failures -/

/-- The failure under another name, if it blames a variable. -/
def Failure.rename : Failure → Failure
  | undefined name line => undefined (r name) line
  | cause => cause

/-- The halt under another name. -/
def Halt.rename : Halt → Halt
  | failure cause => failure (cause.rename r)
  | tooDeep => tooDeep
  | outOfFuel => outOfFuel

namespace Operator

theorem literal_rename (t : Token) :
    (literal t).mapError (Failure.rename r) = literal t := by
  unfold literal
  split <;> rfl

theorem unary_rename (operator : Token) (v : Value) :
    (unary operator v).mapError (Failure.rename r) = unary operator v := by
  unfold unary
  split
  · cases v <;> rfl
  · rfl
  · rfl

theorem onNumbers_rename (operator : Token) (f : Float → Float → Value) (v w : Value) :
    (onNumbers operator f v w).mapError (Failure.rename r) = onNumbers operator f v w := by
  unfold onNumbers
  split <;> rfl

theorem binary_rename (operator : Token) (v w : Value) :
    (binary operator v w).mapError (Failure.rename r) = binary operator v w := by
  unfold binary
  split
  case h_1 => split <;> rfl
  case h_9 | h_10 | h_11 => rfl
  all_goals exact onNumbers_rename _ _ _ _ _

end Operator

/-! ### Mirrored actions -/

/-- The way an action ended, with another state and another halt in the place of each. -/
def Halt.mapResult {σ α : Type} (f : σ → σ) (g : Halt → Halt) :
    EStateM.Result Halt σ α → EStateM.Result Halt σ α
  | .ok a s => .ok a (f s)
  | .error halt s => .error (g halt) (f s)

/-- From the changed state the second action ends as the first does, with state and halt changed. -/
def Mirrors {σ α : Type} (f : σ → σ) (g : Halt → Halt) (action action' : EStateM Halt σ α) : Prop :=
  ∀ s, action' (f s) = Halt.mapResult f g (action s)

namespace Mirrors

variable {σ α β : Type} {f : σ → σ} {g : Halt → Halt} {action action' : EStateM Halt σ α}

theorem pure (a : α) : Mirrors f g (Pure.pure a : EStateM Halt σ α) (Pure.pure a) := fun _ => rfl

theorem throw (halt : Halt) :
    Mirrors f g (MonadExcept.throw halt : EStateM Halt σ α) (MonadExcept.throw (g halt)) :=
  fun _ => rfl

theorem modify {change change' : σ → σ} (h : ∀ s, change' (f s) = f (change s)) :
    Mirrors f g (modify change) (modify change') :=
  fun s => congrArg (EStateM.Result.ok ()) (h s)

/-- Actions that first look at their state. -/
theorem get {next next' : σ → EStateM Halt σ α}
    (h : ∀ s, next' (f s) (f s) = Halt.mapResult f g (next s s)) :
    Mirrors f g (MonadState.get >>= next) (MonadState.get >>= next') :=
  h

theorem bind {next next' : α → EStateM Halt σ β} (h : Mirrors f g action action')
    (hnext : ∀ a, Mirrors f g (next a) (next' a)) :
    Mirrors f g (action >>= next) (action' >>= next') := by
  intro s
  show EStateM.bind action' next' (f s) = Halt.mapResult f g (EStateM.bind action next s)
  rw [EStateM.bind, EStateM.bind, h s]
  cases action s with
  | ok a t => exact hnext a t
  | error halt t => rfl

theorem map (change : α → β) (h : Mirrors f g action action') :
    Mirrors f g (change <$> action) (change <$> action') := by
  rw [map_eq_pure_bind, map_eq_pure_bind]
  exact h.bind fun a => pure (change a)

end Mirrors

theorem Halt.mirrors_ofExcept {σ α : Type} {f : σ → σ} {result : Except Failure α}
    (fixed : result.mapError (Failure.rename r) = result) :
    Mirrors f (Halt.rename r) (Halt.ofExcept result) (Halt.ofExcept result) := by
  cases result with
  | ok a => exact .pure a
  | error cause =>
    -- a failure without a name in it is its own mirror image
    have fixed : cause.rename r = cause := Except.error.inj fixed
    have halt : Halt.failure cause = (Halt.failure cause).rename r := by rw [Halt.rename, fixed]
    intro s
    show EStateM.Result.error (Halt.failure cause) (f s) = _
    rw [halt]
    rfl

/-! ### Expressions -/

/-- **A renamed expression does the same** in a renamed chain. -/
theorem Expr.evaluate_rename : ∀ (e : Expr) (depth : Nat),
    Mirrors (Chain.rename r) (Halt.rename r) (e.evaluate depth) ((e.rename r).evaluate depth)
  | e, 0 => by
    rw [evaluate, evaluate]
    exact .throw .tooDeep
  | .literal token, _ + 1 => Halt.mirrors_ofExcept r (Operator.literal_rename r token)
  | .grouping inner, depth + 1 => by
    rw [Expr.rename, evaluate, evaluate]
    exact inner.evaluate_rename depth
  | .ident name, _ + 1 => by
    rw [Expr.rename, evaluate, evaluate]
    refine .get fun chain => ?_
    rw [Token.lexeme_rename, Chain.get?_rename]
    cases chain.get? name.lexeme <;> rfl
  | .assign name value, depth + 1 => by
    rw [Expr.rename, evaluate, evaluate]
    refine (value.evaluate_rename depth).bind fun v => .get fun chain => ?_
    rw [Token.lexeme_rename, Chain.assign?_rename]
    cases chain.assign? name.lexeme v <;> rfl
  | .unary operator right, depth + 1 => by
    rw [Expr.rename, evaluate, evaluate]
    exact (right.evaluate_rename depth).bind fun v =>
      Halt.mirrors_ofExcept r (Operator.unary_rename r operator v)
  | .binary left operator right, depth + 1 => by
    rw [Expr.rename, evaluate, evaluate]
    exact (left.evaluate_rename depth).bind fun v => (right.evaluate_rename depth).bind fun w =>
      Halt.mirrors_ofExcept r (Operator.binary_rename r operator v w)
  | .foreign label, _ + 1 => .throw (.failure (.foreignExpression label))

/-! ### Statements -/

namespace Machine

theorem evaluate_rename (e : Expr) (depth : Nat) :
    Mirrors (rename r) (Halt.rename r) (evaluate e depth) (evaluate (e.rename r) depth) := by
  intro m
  have mirrored : (e.rename r).evaluate depth (m.rename r).chain = _ :=
    e.evaluate_rename r depth m.chain
  rw [evaluate, evaluate, mirrored]
  cases e.evaluate depth m.chain <;> rfl

theorem define_rename (name : String) (v : Value) :
    Mirrors (rename r) (Halt.rename r) (define name v) (define (r name) v) := by
  refine .modify fun m => ?_
  simp only [rename, Chain.define_rename]

theorem inBlock_rename {body body' : EStateM Halt Machine Unit}
    (h : Mirrors (rename r) (Halt.rename r) body body') :
    Mirrors (rename r) (Halt.rename r) (inBlock body) (inBlock body') := by
  intro m
  have mirrored : body' { m.rename r with chain := (m.rename r).chain.push } = _ :=
    h { m with chain := m.chain.push }
  rw [inBlock, inBlock, mirrored]
  cases body { m with chain := m.chain.push } <;>
    simp only [Halt.mapResult, rename, Chain.pop_rename]

theorem iterate_mirrors {f : Machine → Machine} {g : Halt → Halt}
    {condition condition' : EStateM Halt Machine Bool} {body body' : EStateM Halt Machine Unit}
    (fixed : g .outOfFuel = .outOfFuel) (hcondition : Mirrors f g condition condition')
    (hbody : Mirrors f g body body') (rounds : Nat) :
    Mirrors f g (iterate condition body rounds) (iterate condition' body' rounds) := by
  induction rounds with
  | zero =>
    intro m
    rw [iterate, iterate, Halt.mapResult, fixed]
  | succ rounds ih =>
    rw [iterate_succ, iterate_succ]
    refine hcondition.bind fun holds => ?_
    split
    · exact hbody.bind fun _ => ih
    · exact .pure ()

end Machine

mutual

/-- A renamed statement does the same in a renamed chain. -/
theorem Stmt.execute_rename (rounds : Nat) : ∀ (s : Stmt) (depth : Nat),
    Mirrors (Machine.rename r) (Halt.rename r) (s.execute rounds depth)
      ((s.rename r).execute rounds depth)
  | s, 0 => by
    rw [Stmt.execute, Stmt.execute]
    exact .throw .tooDeep
  | .expression e, depth + 1 => by
    rw [Stmt.rename, Stmt.execute, Stmt.execute]
    exact (Machine.evaluate_rename r e depth).bind fun _ => .pure ()
  | .print e, depth + 1 => by
    rw [Stmt.rename, Stmt.execute, Stmt.execute]
    exact (Machine.evaluate_rename r e depth).bind fun _ => .modify fun _ => rfl
  | .var name none, depth + 1 => by
    rw [Stmt.rename, Stmt.execute, Stmt.execute]
    exact Machine.define_rename r name.lexeme .nil
  | .var name (some e), depth + 1 => by
    rw [Stmt.rename, Stmt.execute, Stmt.execute]
    exact (Machine.evaluate_rename r e depth).bind fun v => Machine.define_rename r name.lexeme v
  | .block body, depth + 1 => by
    rw [Stmt.rename, Stmt.execute, Stmt.execute]
    exact Machine.inBlock_rename r (Stmt.executeAll_renameAll rounds body depth)
  | .ifThen c yes, depth + 1 => by
    rw [Stmt.rename, Stmt.execute, Stmt.execute]
    refine (Machine.evaluate_rename r c depth).bind fun v => ?_
    split
    · exact Stmt.execute_rename rounds yes depth
    · exact .pure ()
  | .ifElse c yes no, depth + 1 => by
    rw [Stmt.rename, Stmt.execute, Stmt.execute]
    refine (Machine.evaluate_rename r c depth).bind fun v => ?_
    split
    · exact Stmt.execute_rename rounds yes depth
    · exact Stmt.execute_rename rounds no depth
  | .loop c body, depth + 1 => by
    rw [Stmt.rename, Stmt.execute, Stmt.execute]
    apply Machine.iterate_mirrors rfl
    · exact (Machine.evaluate_rename r c depth).map Value.isTruthy
    · exact Stmt.execute_rename rounds body depth
  | .foreign label, _ + 1 => .throw (.failure (.foreignStatement label))

/-- Renamed statements do the same in a renamed chain. -/
theorem Stmt.executeAll_renameAll (rounds : Nat) : ∀ (ss : List Stmt) (depth : Nat),
    Mirrors (Machine.rename r) (Halt.rename r) (Stmt.executeAll rounds ss depth)
      (Stmt.executeAll rounds (Stmt.renameAll r ss) depth)
  | [], _ => by
    rw [Stmt.renameAll, Stmt.executeAll]
    exact .pure ()
  | s :: ss, depth => by
    rw [Stmt.renameAll, Stmt.executeAll, Stmt.executeAll]
    exact (Stmt.execute_rename rounds s depth).bind fun _ =>
      Stmt.executeAll_renameAll rounds ss depth

end

/-- The report that a variable is not defined, about another variable. -/
def Diagnostic.blaming (name : String) (d : Diagnostic) : Diagnostic :=
  { d with
    message := "Undefined variable '" ++ name ++ "'."
    place := Diagnostic.placeOf name
    lexeme := some name }

/-- **Consistent renaming is harmless.** Rename the variables of statements and the names of scopes,
with different names for different names. Executed in the renamed scopes, the renamed statements end
as the statements do in the scopes as they were: they print the same, leave the renamed scopes
behind, and fail exactly if these fail. The failure is the same one, reported in the same words; if
it is that a variable is undefined, the report has the new name for the old in its message, place
and lexeme, and is otherwise the same. -/
theorem Stmt.executeAll_rename (ss : List Stmt) (rounds depth : Nat) (c : Chain) (output : String) :
    executeAll rounds (renameAll r ss) depth ⟨c.rename r, output⟩ =
      Halt.mapResult (fun m => ⟨m.chain.rename r, m.output⟩) (Halt.rename r)
        (executeAll rounds ss depth ⟨c, output⟩)
      ∧ ∀ cause : Failure, (cause.rename r).diagnostic = cause.diagnostic ∨
        ∃ name, cause.diagnostic = cause.diagnostic.blaming name ∧
          (cause.rename r).diagnostic = cause.diagnostic.blaming (r name) := by
  refine ⟨executeAll_renameAll r rounds ss depth ⟨c, output⟩, fun cause => ?_⟩
  cases cause with
  | undefined name line => exact .inr ⟨name, rfl, rfl⟩
  | _ => exact .inl rfl

end Lox
