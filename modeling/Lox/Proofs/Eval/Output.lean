import Lox.Proofs.Eval.Simulation

/-!
# What was printed before

Execution adds to the output and never looks at it. So a machine that has printed some text before
does what it would do without, and the text stays in front (`Stmt.executeAll_after`). This is one
more simulation, of a program by itself: the two machines differ in the text at the front of their
output, and no halt is excused.
-/

namespace Lox

namespace Machine

/-- The machine after a text was printed, before all that it has printed itself. -/
def after (text : String) (m : Machine) : Machine := { m with output := text ++ m.output }

/-- From a machine after a text the action ends as without the text, which stays in front. -/
def KeepsFront {α : Type} (action : EStateM Halt Machine α) : Prop :=
  ∀ text, Simulates (fun _ => False) (fun m m' => m = m'.after text) action action

theorem evaluate_keepsFront (e : Expr) (depth : Nat) : KeepsFront (evaluate e depth) := by
  rintro text _ m rfl
  show Alike _ _ (evaluate e depth (m.after text)) (evaluate e depth m)
  unfold evaluate
  have chain : (m.after text).chain = m.chain := rfl
  rw [chain]
  cases e.evaluate depth m.chain with
  | ok v chain => exact .ok v rfl
  | error halt chain => exact .error halt rfl

theorem print_keepsFront (line : String) : KeepsFront (print line) := by
  rintro text _ m rfl
  refine .ok () ?_
  show Machine.mk _ _ = Machine.mk _ _
  simp only [after, String.append_assoc]

theorem define_keepsFront (name : String) (v : Value) : KeepsFront (define name v) := by
  rintro text _ m rfl
  exact .ok () rfl

theorem inBlock_keepsFront {body : EStateM Halt Machine Unit} (h : KeepsFront body) :
    KeepsFront (inBlock body) := by
  rintro text _ m rfl
  have within := h text (s := { m.after text with chain := m.chain.push })
    (t := { m with chain := m.chain.push }) rfl
  show Alike _ _ (inBlock body (m.after text)) (inBlock body m)
  unfold inBlock
  change Alike _ _ (body { m.after text with chain := m.chain.push }) _ at within
  have chain : (m.after text).chain = m.chain := rfl
  rw [chain]
  generalize body { m.after text with chain := m.chain.push } = result at within
  generalize body { m with chain := m.chain.push } = result' at within
  cases within with
  | ok u related =>
    subst related
    exact .ok u rfl
  | error halt related =>
    subst related
    exact .error halt rfl
  | excuse_left h => exact h.elim
  | excuse_right h => exact h.elim

end Machine

open Machine

mutual

theorem Stmt.execute_keepsFront (fuel : Nat) : ∀ (s : Stmt) (depth : Nat),
    KeepsFront (s.execute fuel depth)
  | _, 0 => fun _ => by
    rw [Stmt.execute]
    exact .throw _
  | .expression e, depth + 1 => fun text => by
    rw [Stmt.execute]
    exact (evaluate_keepsFront e depth text).bind fun _ => .pure _
  | .print e, depth + 1 => fun text => by
    rw [Stmt.execute]
    exact (evaluate_keepsFront e depth text).bind fun _ => print_keepsFront _ text
  | .var _ none, _ + 1 => by
    rw [Stmt.execute]
    exact define_keepsFront _ _
  | .var _ (some e), depth + 1 => fun text => by
    rw [Stmt.execute]
    exact (evaluate_keepsFront e depth text).bind fun _ => define_keepsFront _ _ text
  | .block body, depth + 1 => by
    rw [Stmt.execute]
    exact inBlock_keepsFront (Stmt.executeAll_keepsFront fuel body depth)
  | .ifThen condition yes, depth + 1 => fun text => by
    rw [Stmt.execute]
    refine (evaluate_keepsFront condition depth text).bind fun v => ?_
    split
    · exact Stmt.execute_keepsFront fuel yes depth text
    · exact .pure _
  | .ifElse condition yes no, depth + 1 => fun text => by
    rw [Stmt.execute]
    refine (evaluate_keepsFront condition depth text).bind fun v => ?_
    split
    · exact Stmt.execute_keepsFront fuel yes depth text
    · exact Stmt.execute_keepsFront fuel no depth text
  | .loop condition body, depth + 1 => fun text => by
    rw [Stmt.execute]
    exact iterate_simulates ((evaluate_keepsFront condition depth text).map _)
      (Stmt.execute_keepsFront fuel body depth text) fuel
  | .foreign _, _ + 1 => fun _ => by
    rw [Stmt.execute]
    exact .throw _

theorem Stmt.executeAll_keepsFront (fuel : Nat) : ∀ (ss : List Stmt) (depth : Nat),
    KeepsFront (Stmt.executeAll fuel ss depth)
  | [], _ => fun _ => by
    rw [Stmt.executeAll]
    exact .pure _
  | s :: ss, depth => fun text => by
    rw [Stmt.executeAll]
    exact (Stmt.execute_keepsFront fuel s depth text).bind fun _ =>
      Stmt.executeAll_keepsFront fuel ss depth text

end

/-- **What was printed before stays in front** and has no influence on an execution. -/
theorem Stmt.executeAll_after (fuel : Nat) (ss : List Stmt) (depth : Nat) (text : String)
    (m : Machine) :
    executeAll fuel ss depth (m.after text) =
      match executeAll fuel ss depth m with
      | .ok () m => .ok () (m.after text)
      | .error halt m => .error halt (m.after text) := by
  have alike := executeAll_keepsFront fuel ss depth text (s := m.after text) (t := m) rfl
  generalize executeAll fuel ss depth (m.after text) = result at alike
  generalize executeAll fuel ss depth m = result' at alike
  cases alike with
  | ok u related => rw [related]
  | error halt related => rw [related]
  | excuse_left h => exact h.elim
  | excuse_right h => exact h.elim

end Lox
