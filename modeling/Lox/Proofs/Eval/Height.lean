import Lox.Eval.Statement
import Lox.Tree.Text

/-!
# The depth that execution needs

Execution goes one level down with each node of a tree, whatever the values are, so the height of a
program is a depth at which it cannot nest too deep (`Stmt.executeAll_shallow`). How often loops run
makes no difference.
-/

namespace Lox

/-- The action never halts because it nests too deep. -/
def Shallow {σ α : Type} (action : EStateM Halt σ α) : Prop :=
  ∀ ⦃s t : σ⦄, action s ≠ .error .tooDeep t

namespace Shallow

variable {σ α β : Type}

theorem pure (a : α) : Shallow (Pure.pure a : EStateM Halt σ α) := nofun

theorem get : Shallow (MonadState.get : EStateM Halt σ σ) := nofun

theorem modify (change : σ → σ) : Shallow (modify change : EStateM Halt σ Unit) := nofun

theorem failure (cause : Failure) : Shallow (throw (.failure cause) : EStateM Halt σ α) := nofun

theorem ofExcept (result : Except Failure α) :
    Shallow (Halt.ofExcept result : EStateM Halt σ α) := by
  cases result with
  | ok a => exact .pure a
  | error cause => exact .failure cause

theorem bind {action : EStateM Halt σ α} {next : α → EStateM Halt σ β} (h : Shallow action)
    (hnext : ∀ a, Shallow (next a)) : Shallow (action >>= next) := by
  intro s t deep
  change EStateM.bind action next s = _ at deep
  rw [EStateM.bind] at deep
  cases result : action s with
  | ok a mid =>
    rw [result] at deep
    exact hnext a deep
  | error halt mid =>
    rw [result] at deep
    cases deep
    exact h result

theorem map {action : EStateM Halt σ α} (f : α → β) (h : Shallow action) :
    Shallow (f <$> action) := by
  rw [map_eq_pure_bind]
  exact h.bind fun a => .pure (f a)

end Shallow

/-- **An expression does not nest deeper than it is high.** -/
theorem Expr.evaluate_shallow : ∀ (e : Expr) {depth : Nat}, e.height ≤ depth →
    Shallow (e.evaluate depth)
  | e, 0, le => by
    cases e <;> cases le
  | .binary left operator right, depth + 1, le => by
    obtain ⟨le_left, le_right⟩ := Nat.max_le.1 (Nat.le_of_succ_le_succ le)
    rw [evaluate]
    exact (left.evaluate_shallow le_left).bind fun v =>
      (right.evaluate_shallow le_right).bind fun w => .ofExcept _
  | .unary operator right, depth + 1, le => by
    rw [evaluate]
    exact (right.evaluate_shallow (Nat.le_of_succ_le_succ le)).bind fun v => .ofExcept _
  | .grouping inner, depth + 1, le => by
    rw [evaluate]
    exact inner.evaluate_shallow (Nat.le_of_succ_le_succ le)
  | .literal token, _ + 1, _ => .ofExcept _
  | .ident name, _ + 1, _ => by
    rw [evaluate]
    refine .bind .get fun chain => ?_
    split
    · exact .pure _
    · exact .failure _
  | .assign name value, depth + 1, le => by
    rw [evaluate]
    refine (value.evaluate_shallow (Nat.le_of_succ_le_succ le)).bind fun v => ?_
    refine .bind .get fun chain => ?_
    split
    · exact .bind (.modify _) fun _ => .pure v
    · exact .failure _
  | .foreign label, _ + 1, _ => .failure _

namespace Machine

theorem evaluate_shallow {e : Expr} {depth : Nat} (h : Shallow (e.evaluate depth)) :
    Shallow (evaluate e depth) := by
  intro m t deep
  unfold evaluate at deep
  split at deep
  · cases deep
  next result =>
    cases deep
    exact h result

theorem inBlock_shallow {body : EStateM Halt Machine Unit} (h : Shallow body) :
    Shallow (inBlock body) := by
  intro m t deep
  unfold inBlock at deep
  split at deep
  · cases deep
  next result =>
    cases deep
    exact h result

theorem iterate_shallow {condition : EStateM Halt Machine Bool} {body : EStateM Halt Machine Unit}
    (hcondition : Shallow condition) (hbody : Shallow body) (fuel : Nat) :
    Shallow (iterate condition body fuel) := by
  induction fuel with
  | zero => exact nofun
  | succ fuel ih =>
    rw [iterate_succ]
    refine hcondition.bind fun holds => ?_
    split
    · exact hbody.bind fun _ => ih
    · exact .pure _

end Machine

mutual

/-- **A statement does not nest deeper than it is high.** -/
theorem Stmt.execute_shallow (fuel : Nat) : ∀ (s : Stmt) {depth : Nat}, s.height ≤ depth →
    Shallow (s.execute fuel depth)
  | s, 0, le => by
    cases s with
    | var name initializer => cases initializer <;> cases le
    | _ => cases le
  | .expression e, depth + 1, le => by
    rw [Stmt.execute]
    exact (Machine.evaluate_shallow (e.evaluate_shallow (Nat.le_of_succ_le_succ le))).bind
      fun _ => .pure _
  | .print e, depth + 1, le => by
    rw [Stmt.execute]
    exact (Machine.evaluate_shallow (e.evaluate_shallow (Nat.le_of_succ_le_succ le))).bind
      fun _ => .modify _
  | .var name none, _ + 1, _ => .modify _
  | .var name (some e), depth + 1, le => by
    rw [Stmt.execute]
    exact (Machine.evaluate_shallow (e.evaluate_shallow (Nat.le_of_succ_le_succ le))).bind
      fun _ => .modify _
  | .block body, depth + 1, le => by
    rw [Stmt.execute]
    exact Machine.inBlock_shallow (Stmt.executeAll_shallow fuel body (Nat.le_of_succ_le_succ le))
  | .ifThen c yes, depth + 1, le => by
    obtain ⟨le_c, le_yes⟩ := Nat.max_le.1 (Nat.le_of_succ_le_succ le)
    rw [Stmt.execute]
    refine (Machine.evaluate_shallow (c.evaluate_shallow le_c)).bind fun v => ?_
    split
    · exact Stmt.execute_shallow fuel yes le_yes
    · exact .pure _
  | .ifElse c yes no, depth + 1, le => by
    obtain ⟨le_c, le_branches⟩ := Nat.max_le.1 (Nat.le_of_succ_le_succ le)
    obtain ⟨le_yes, le_no⟩ := Nat.max_le.1 le_branches
    rw [Stmt.execute]
    refine (Machine.evaluate_shallow (c.evaluate_shallow le_c)).bind fun v => ?_
    split
    · exact Stmt.execute_shallow fuel yes le_yes
    · exact Stmt.execute_shallow fuel no le_no
  | .loop c body, depth + 1, le => by
    obtain ⟨le_c, le_body⟩ := Nat.max_le.1 (Nat.le_of_succ_le_succ le)
    rw [Stmt.execute]
    exact Machine.iterate_shallow ((Machine.evaluate_shallow (c.evaluate_shallow le_c)).map _)
      (Stmt.execute_shallow fuel body le_body) fuel
  | .foreign label, _ + 1, _ => .failure _

/-- **Statements do not nest deeper than they are high.** -/
theorem Stmt.executeAll_shallow (fuel : Nat) : ∀ (ss : List Stmt) {depth : Nat},
    Stmt.heightAll ss ≤ depth → Shallow (Stmt.executeAll fuel ss depth)
  | [], _, _ => by
    rw [Stmt.executeAll]
    exact .pure _
  | s :: ss, depth, le => by
    obtain ⟨le_s, le_ss⟩ := Nat.max_le.1 le
    rw [Stmt.executeAll]
    exact (Stmt.execute_shallow fuel s le_s).bind fun _ => Stmt.executeAll_shallow fuel ss le_ss

end

end Lox
