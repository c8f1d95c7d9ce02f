import Lox.Eval.Statement
import Lox.Proofs.Grammar.Map
import Lox.Proofs.Lexer.Lines

/-!
# Lines do not matter to execution

A tree whose tokens stand on other lines does the same, and fails at the same place, told by its
new line (`Stmt.executeAll_relocate`). Moving the halts of an action commutes with the ways in which
actions are put together, so the proof follows the evaluator from equation to equation.
-/

namespace Lox

variable {g : Int → Int}

/-! ### Moved failures -/

theorem Diagnostic.atToken_relocate (category : Category) (t : Token) (message : String) :
    atToken category (t.relocate g) message = (atToken category t message).relocate g := by
  unfold atToken
  rw [Token.kind_relocate]
  split <;> rfl

/-- The failure on another line. -/
def Failure.relocate (g : Int → Int) : Failure → Failure
  | .operandNotNumber operator => .operandNotNumber (operator.relocate g)
  | .operandsNotNumbers operator => .operandsNotNumbers (operator.relocate g)
  | .operandsMismatch operator => .operandsMismatch (operator.relocate g)
  | .undefined name line => .undefined name (line.map g)
  | .notLiteral token => .notLiteral (token.relocate g)
  | .notUnary operator => .notUnary (operator.relocate g)
  | .notBinary operator => .notBinary (operator.relocate g)
  | .foreignExpression label => .foreignExpression label
  | .foreignStatement label => .foreignStatement label

/-- A moved failure is reported as before, on its new line. -/
theorem Failure.diagnostic_relocate (cause : Failure) :
    (cause.relocate g).diagnostic = cause.diagnostic.relocate g := by
  cases cause with
  | operandNotNumber | operandsNotNumbers | operandsMismatch =>
    exact Diagnostic.atToken_relocate _ _ _
  | undefined | notLiteral | notUnary | notBinary | foreignExpression | foreignStatement => rfl

/-- The halt on another line. -/
def Halt.relocate (g : Int → Int) : Halt → Halt
  | .failure cause => .failure (cause.relocate g)
  | .tooDeep => .tooDeep
  | .outOfFuel => .outOfFuel

/-! ### Moved actions -/

/-- The action with its halts on other lines. -/
def Halt.relocating {σ α : Type} (g : Int → Int) (action : EStateM Halt σ α) : EStateM Halt σ α :=
  action.adaptExcept (Halt.relocate g)

namespace Halt

variable {σ α β : Type}

theorem relocating_apply (action : EStateM Halt σ α) (s : σ) :
    relocating g action s = match action s with
      | .ok a s' => .ok a s'
      | .error halt s' => .error (halt.relocate g) s' := by
  rw [relocating, EStateM.adaptExcept]
  cases action s <;> rfl

theorem relocating_pure (a : α) : relocating g (pure a : EStateM Halt σ α) = pure a := rfl

theorem relocating_bind (action : EStateM Halt σ α) (next : α → EStateM Halt σ β) :
    relocating g (action >>= next) = relocating g action >>= fun a => relocating g (next a) := by
  funext s
  cases result : action s <;>
    simp only [relocating_apply, bind, EStateM.bind, result]

theorem relocating_ofExcept (result : Except Failure α) :
    relocating g (ofExcept result : EStateM Halt σ α)
      = ofExcept (result.mapError (Failure.relocate g)) := by
  cases result <;> rfl

end Halt

/-! ### Operators and expressions -/

theorem Operator.literal_relocate (t : Token) :
    Operator.literal (t.relocate g) = (Operator.literal t).mapError (Failure.relocate g) := by
  unfold Operator.literal
  rw [Token.kind_relocate]
  split <;> rfl

theorem Operator.unary_relocate (operator : Token) (v : Value) :
    Operator.unary (operator.relocate g) v =
      (Operator.unary operator v).mapError (Failure.relocate g) := by
  unfold Operator.unary
  rw [Token.kind_relocate]
  split
  · cases v <;> rfl
  · rfl
  · rfl

theorem Operator.onNumbers_relocate (operator : Token) (f : Float → Float → Value) (v w : Value) :
    Operator.onNumbers (operator.relocate g) f v w =
      (Operator.onNumbers operator f v w).mapError (Failure.relocate g) := by
  unfold Operator.onNumbers
  split <;> rfl

theorem Operator.binary_relocate (operator : Token) (v w : Value) :
    Operator.binary (operator.relocate g) v w =
      (Operator.binary operator v w).mapError (Failure.relocate g) := by
  unfold Operator.binary
  rw [Token.kind_relocate]
  split
  case h_1 => split <;> rfl
  case h_9 | h_10 | h_11 => rfl
  all_goals exact Operator.onNumbers_relocate _ _ _ _

/-- **Evaluating a moved expression** gives the same value and scopes, or the moved halt. -/
theorem Expr.evaluate_relocate : ∀ (e : Expr) (depth : Nat),
    (e.map (Token.relocate g)).evaluate depth = Halt.relocating g (e.evaluate depth)
  | e, 0 => by
    rw [evaluate, evaluate]
    rfl
  | .binary left operator right, depth + 1 => by
    simp only [Expr.map, evaluate, evaluate_relocate left, evaluate_relocate right,
      Operator.binary_relocate, Halt.relocating_bind, Halt.relocating_ofExcept]
  | .unary operator right, depth + 1 => by
    simp only [Expr.map, evaluate, evaluate_relocate right, Operator.unary_relocate,
      Halt.relocating_bind, Halt.relocating_ofExcept]
  | .grouping inner, depth + 1 => evaluate_relocate inner depth
  | .literal token, _ + 1 => by
    rw [Expr.map, evaluate, evaluate, Operator.literal_relocate, Halt.relocating_ofExcept]
  | .ident name, _ + 1 => by
    rw [Expr.map, evaluate, evaluate, Halt.relocating_bind]
    refine congrArg (get >>= ·) (funext fun chain => ?_)
    rw [Token.lexeme_relocate]
    cases chain.get? name.lexeme <;> rfl
  | .assign name value, depth + 1 => by
    rw [Expr.map, evaluate, evaluate, evaluate_relocate value, Halt.relocating_bind]
    refine congrArg (_ >>= ·) (funext fun v => ?_)
    rw [Halt.relocating_bind]
    refine congrArg (get >>= ·) (funext fun chain => ?_)
    rw [Token.lexeme_relocate]
    cases chain.assign? name.lexeme v <;> rfl
  | .foreign _, _ + 1 => rfl

/-! ### Statements -/

namespace Machine

theorem evaluate_relocate (e : Expr) (depth : Nat) :
    evaluate (e.map (Token.relocate g)) depth = Halt.relocating g (evaluate e depth) := by
  funext m
  rw [Halt.relocating_apply, evaluate, evaluate, Expr.evaluate_relocate, Halt.relocating_apply]
  cases e.evaluate depth m.chain <;> rfl

theorem inBlock_relocating (body : EStateM Halt Machine Unit) :
    inBlock (Halt.relocating g body) = Halt.relocating g (inBlock body) := by
  funext m
  rw [Halt.relocating_apply, inBlock, inBlock, Halt.relocating_apply]
  cases body { m with chain := m.chain.push } <;> rfl

theorem iterate_relocating (condition : EStateM Halt Machine Bool)
    (body : EStateM Halt Machine Unit) (fuel : Nat) :
    iterate (Halt.relocating g condition) (Halt.relocating g body) fuel =
      Halt.relocating g (iterate condition body fuel) := by
  induction fuel with
  | zero => rfl
  | succ fuel ih =>
    rw [iterate_succ, iterate_succ, Halt.relocating_bind]
    refine congrArg (_ >>= ·) (funext fun holds => ?_)
    split
    · rw [Halt.relocating_bind, ih]
    · rfl

end Machine

mutual

/-- Executing a moved statement does the same, up to the line of its failure. -/
theorem Stmt.execute_relocate (fuel : Nat) : ∀ (s : Stmt) (depth : Nat),
    (s.map (Token.relocate g)).execute fuel depth = Halt.relocating g (s.execute fuel depth)
  | s, 0 => by
    rw [Stmt.execute, Stmt.execute]
    rfl
  | .expression e, depth + 1 => by
    simp only [Stmt.map, Stmt.execute, Machine.evaluate_relocate, Halt.relocating_bind,
      Halt.relocating_pure]
  | .print e, depth + 1 => by
    simp only [Stmt.map, Stmt.execute, Machine.evaluate_relocate, Halt.relocating_bind]
    rfl
  | .var name none, depth + 1 => rfl
  | .var name (some e), depth + 1 => by
    simp only [Stmt.map, Stmt.execute, Machine.evaluate_relocate, Halt.relocating_bind]
    rfl
  | .block body, depth + 1 => by
    simp only [Stmt.map, Stmt.execute, Stmt.executeAll_relocate fuel body,
      Machine.inBlock_relocating]
  | .ifThen c yes, depth + 1 => by
    simp only [Stmt.map, Stmt.execute, Machine.evaluate_relocate, Halt.relocating_bind,
      Stmt.execute_relocate fuel yes]
    refine congrArg (_ >>= ·) (funext fun v => ?_)
    split <;> rfl
  | .ifElse c yes no, depth + 1 => by
    simp only [Stmt.map, Stmt.execute, Machine.evaluate_relocate, Halt.relocating_bind,
      Stmt.execute_relocate fuel yes, Stmt.execute_relocate fuel no]
    refine congrArg (_ >>= ·) (funext fun v => ?_)
    split <;> rfl
  | .loop c body, depth + 1 => by
    have condition : Value.isTruthy <$> Halt.relocating g (Machine.evaluate c depth) =
        Halt.relocating g (Value.isTruthy <$> Machine.evaluate c depth) := by
      simp only [map_eq_pure_bind, Halt.relocating_bind, Halt.relocating_pure]
    simp only [Stmt.map, Stmt.execute, Machine.evaluate_relocate, condition,
      Stmt.execute_relocate fuel body, Machine.iterate_relocating]
  | .foreign _, _ + 1 => rfl

/-- **Executing moved statements** does the same, up to the line of the failure. -/
theorem Stmt.executeAll_relocate (fuel : Nat) : ∀ (ss : List Stmt) (depth : Nat),
    Stmt.executeAll fuel (Stmt.mapAll (Token.relocate g) ss) depth =
      Halt.relocating g (Stmt.executeAll fuel ss depth)
  | [], _ => rfl
  | s :: ss, depth => by
    simp only [Stmt.mapAll, Stmt.executeAll, Stmt.execute_relocate fuel s,
      Stmt.executeAll_relocate fuel ss, Halt.relocating_bind]

end

end Lox
