import Lox.Proofs.Eval.Simulation
import Lox.Proofs.Grammar.Shape

/-!
# Empty scopes are not noticed

A scope without bindings in a chain changes nothing about reading and writing variables, as long as
nothing is declared in it. Only declarations write into the innermost scope, and in a tree of the
grammar a declaration never stands alone as a branch or a body. So a statement that is no
declaration runs with one more empty scope around it as it runs without, and making a block of it
changes nothing (`inBlock_execute`).
-/

namespace Lox

/-! ### Padded chains -/

/-- The second list has one more scope, which is empty and has `k` scopes before it. -/
inductive Scope.Padded : Nat → List Scope → List Scope → Prop
  | here (s : Scope) (ss : List Scope) : Padded 0 (s :: ss) (.empty :: s :: ss)
  | there {k : Nat} (s : Scope) {ss ss' : List Scope} (h : Padded k ss ss') :
    Padded (k + 1) (s :: ss) (s :: ss')

/-- The second chain has one more scope, which is empty and has `k` scopes within it. -/
def Chain.Padded (k : Nat) (c c' : Chain) : Prop := Scope.Padded k c.scopes c'.scopes

theorem Scope.Padded.findSome?_eq {k : Nat} {ss ss' : List Scope} (h : Padded k ss ss')
    (name : String) : ss.findSome? (·.get? name) = ss'.findSome? (·.get? name) := by
  induction h with
  | here s ss => rfl
  | there s _ ih => rw [List.findSome?_cons, List.findSome?_cons, ih]

theorem Chain.exists_cons_of_assignIn {name : String} {v : Value} {s : Scope}
    {ss ts : List Scope} (assigned : assignIn name v (s :: ss) = some ts) :
    ∃ t us, ts = t :: us := by
  rw [assignIn] at assigned
  split at assigned
  · cases assigned
    exact ⟨_, _, rfl⟩
  · obtain ⟨us, -, rfl⟩ := Option.map_eq_some_iff.1 assigned
    exact ⟨s, us, rfl⟩

theorem Scope.Padded.assignIn {k : Nat} {ss ss' : List Scope} (h : Padded k ss ss')
    (name : String) (v : Value) :
    Option.Rel (Padded k) (Chain.assignIn name v ss) (Chain.assignIn name v ss') := by
  induction h with
  | here s ss =>
    -- the empty scope is passed over
    have behind : Chain.assignIn name v (.empty :: s :: ss) =
        (Chain.assignIn name v (s :: ss)).map (.empty :: ·) := rfl
    rw [behind]
    cases assigned : Chain.assignIn name v (s :: ss) with
    | none => exact .none
    | some ts =>
      obtain ⟨t, us, rfl⟩ := Chain.exists_cons_of_assignIn assigned
      exact .some (.here t us)
  | @there k s ss ss' h ih =>
    rw [Chain.assignIn, Chain.assignIn]
    split
    · exact .some (.there _ h)
    · generalize Chain.assignIn name v ss = result at ih
      generalize Chain.assignIn name v ss' = result' at ih
      cases ih with
      | none => exact .none
      | some related => exact .some (.there s related)

namespace Chain

namespace Padded

variable {k : Nat} {c c' : Chain}

theorem get?_eq (h : Padded k c c') (name : String) : c.get? name = c'.get? name :=
  Scope.Padded.findSome?_eq h name

theorem hides (k : Nat) (name : String) : Hides (Padded k) name where
  get? _ _ h := h.get?_eq name
  assign? _ _ h v := rel_assign? (Scope.Padded.assignIn h name v)

/-- With a scope within the empty one, a definition does not reach it. -/
theorem define (h : Padded (k + 1) c c') (name : String) (v : Value) :
    Padded (k + 1) (c.define name v) (c'.define name v) := by
  obtain ⟨inner, outer⟩ := c
  obtain ⟨inner', outer'⟩ := c'
  cases h with
  | there s h => exact .there _ h

theorem push (h : Padded k c c') : Padded (k + 1) c.push c'.push := .there _ h

theorem pop (h : Padded (k + 1) c c') : Padded k c.pop c'.pop := by
  obtain ⟨inner, outer⟩ := c
  obtain ⟨inner', outer'⟩ := c'
  cases h with
  | there s h =>
    cases h with
    | here t ts => exact .here t ts
    | there t h => exact .there t h

/-- Entering a block pads the chain, and leaving the block takes the padding away. -/
theorem enter (c : Chain) : Padded 0 c c.push := .here _ _

theorem leave (h : Padded 0 c c') : c'.pop = c := by
  obtain ⟨inner, outer⟩ := c
  obtain ⟨inner', outer'⟩ := c'
  cases h with
  | here s ss => rfl

end Padded

end Chain

/-- An expression does not notice an empty scope. -/
theorem Expr.evaluate_padded {k : Nat} (e : Expr) (depth : Nat) :
    Simulates Halt.never (Chain.Padded k) (e.evaluate depth) (e.evaluate depth) :=
  e.evaluate_simulates (fun n _ => Chain.Padded.hides k n) depth

/-! ### Statements -/

mutual

/-- **A statement that is no declaration does not notice an empty scope**, wherever in the chain. -/
theorem Stmt.execute_padded (rounds : Nat) : ∀ {s : Stmt}, s.WellFormed → s.isVar = false →
    ∀ k depth, Simulates Halt.never (Machine.Over (Chain.Padded k)) (s.execute rounds depth)
      (s.execute rounds depth)
  | s, _, _, _, 0 => by
    rw [Stmt.execute]
    exact .throw _
  | .expression e, _, _, _, depth + 1 => by
    rw [Stmt.execute]
    exact (Machine.evaluate_simulates (e.evaluate_padded depth)).bind fun _ => .pure _
  | .print e, _, _, _, depth + 1 => by
    rw [Stmt.execute]
    exact (Machine.evaluate_simulates (e.evaluate_padded depth)).bind fun _ =>
      Machine.print_simulates _
  | .var _ _, _, isVar, _, _ => nomatch isVar
  | .block body, h, _, k, depth + 1 => by
    rw [Stmt.execute]
    exact Machine.inBlock_simulates (fun _ _ => .push) (fun _ _ => .pop)
      (Stmt.executeAll_padded rounds h k depth)
  | .ifThen c yes, ⟨_, notVar, hyes⟩, _, k, depth + 1 => by
    rw [Stmt.execute]
    refine (Machine.evaluate_simulates (c.evaluate_padded depth)).bind fun v => ?_
    split
    · exact Stmt.execute_padded rounds hyes notVar k depth
    · exact .pure _
  | .ifElse c yes no, ⟨_, ⟨notVar, _, hyes⟩, notVar', hno⟩, _, k, depth + 1 => by
    rw [Stmt.execute]
    refine (Machine.evaluate_simulates (c.evaluate_padded depth)).bind fun v => ?_
    split
    · exact Stmt.execute_padded rounds hyes notVar k depth
    · exact Stmt.execute_padded rounds hno notVar' k depth
  | .loop c body, ⟨_, notVar, hbody⟩, _, k, depth + 1 => by
    rw [Stmt.execute]
    exact Machine.iterate_simulates ((Machine.evaluate_simulates (c.evaluate_padded depth)).map _)
      (Stmt.execute_padded rounds hbody notVar k depth) rounds
  | .foreign _, h, _, _, _ => h.elim

/-- Within a scope a declaration does not notice an empty scope either. -/
theorem Stmt.execute_paddedWithin (rounds : Nat) : ∀ {s : Stmt}, s.WellFormed → ∀ k depth,
    Simulates Halt.never (Machine.Over (Chain.Padded (k + 1))) (s.execute rounds depth)
      (s.execute rounds depth)
  | s, _, _, 0 => by
    rw [Stmt.execute]
    exact .throw _
  | .var name none, _, _, depth + 1 => by
    rw [Stmt.execute]
    exact Machine.define_simulates fun _ _ h => h.define _ _
  | .var name (some e), _, _, depth + 1 => by
    rw [Stmt.execute]
    exact (Machine.evaluate_simulates (e.evaluate_padded depth)).bind fun v =>
      Machine.define_simulates fun _ _ h => h.define _ _
  | .expression _, h, k, depth | .print _, h, k, depth | .block _, h, k, depth
  | .ifThen _ _, h, k, depth | .ifElse _ _ _, h, k, depth | .loop _ _, h, k, depth
  | .foreign _, h, k, depth => Stmt.execute_padded rounds h rfl (k + 1) depth

/-- Statements in a row within a scope do not notice an empty scope. -/
theorem Stmt.executeAll_padded (rounds : Nat) : ∀ {ss : List Stmt}, Stmt.AllWellFormed ss →
    ∀ k depth, Simulates Halt.never (Machine.Over (Chain.Padded (k + 1)))
      (Stmt.executeAll rounds ss depth) (Stmt.executeAll rounds ss depth)
  | [], _, _, _ => by
    rw [Stmt.executeAll]
    exact .pure _
  | _ :: _, ⟨hs, hss⟩, k, depth => by
    rw [Stmt.executeAll]
    exact (Stmt.execute_paddedWithin rounds hs k depth).bind fun _ =>
      Stmt.executeAll_padded rounds hss k depth

end

/-- Dropping the padding gives the machine without it. -/
theorem Machine.Over.leave {m m' : Machine} (h : Over (Chain.Padded 0) m m') :
    { m' with chain := m'.chain.pop } = m := by
  rw [h.chain.leave, ← h.output]

/-- **A block of one statement is the statement**, unless that is a declaration. -/
theorem Machine.inBlock_execute {s : Stmt} (h : s.WellFormed) (notVar : s.isVar = false)
    (rounds depth : Nat) : inBlock (s.execute rounds depth) = s.execute rounds depth := by
  funext m
  have within : Over (Chain.Padded 0) m { m with chain := m.chain.push } := ⟨.enter m.chain, rfl⟩
  have alike := Stmt.execute_padded rounds h notVar 0 depth within
  unfold inBlock
  generalize s.execute rounds depth m = result at alike
  generalize s.execute rounds depth { m with chain := m.chain.push } = result' at alike
  cases alike with
  | ok u related => exact congrArg (EStateM.Result.ok u) related.leave
  | error halt related => exact congrArg (EStateM.Result.error halt) related.leave
  | excuse_left h => exact h.elim
  | excuse_right h => exact h.elim

end Lox
