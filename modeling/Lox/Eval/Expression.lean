import Lox.Eval.Operator
import Lox.Scope
import Lox.Tree

/-!
# Evaluating expressions

Operands are evaluated from left to right, each in the scopes that the one before left behind. The
first failure ends the evaluation; assignments made until then stay. Expressions print nothing, so
their state is the chain of scopes alone.
-/

namespace Lox

/-- Raises a failure. -/
def Halt.ofExcept {σ α : Type} : Except Failure α → EStateM Halt σ α
  | .ok a => pure a
  | .error cause => throw (.failure cause)

/-- Evaluates an expression that is at most `depth` high. -/
def Expr.evaluate : Expr → (depth : Nat) → EStateM Halt Chain Value
  | _, 0 => throw .tooDeep
  | .literal token, _ + 1 => Halt.ofExcept (Operator.literal token)
  | .grouping inner, depth + 1 => inner.evaluate depth
  | .ident name, _ + 1 => do
    match (← get).get? name.lexeme with
    | some v => return v
    | none => throw (.failure (.undefined name.lexeme (some name.line)))
  | .assign name value, depth + 1 => do
    let v ← value.evaluate depth
    match (← get).assign? name.lexeme v with
    | some chain =>
      set chain
      return v
    | none => throw (.failure (.undefined name.lexeme (some name.line)))
  | .unary operator right, depth + 1 => do
    let v ← right.evaluate depth
    Halt.ofExcept (Operator.unary operator v)
  | .binary left operator right, depth + 1 => do
    let v ← left.evaluate depth
    let w ← right.evaluate depth
    Halt.ofExcept (Operator.binary operator v w)
  | .foreign label, _ + 1 => throw (.failure (.foreignExpression label))

end Lox
