import Lox.Parser.Grammar

/-!
# Deciding by the next token

Wherever the grammar leaves a choice, the parser decides by the kind of the next token: if it fits,
the token is read and the parser goes on behind it, otherwise something else is tried from the same
place. `lookahead` is this one step. Apart from the two loops, every rule is put together from it,
from `bind` and from failures; the equations below say how. A property of parsers that holds of
these is shown once for `lookahead` and then carried through the rules by their equations.
-/

namespace Lox.Parser

variable {α : Type}

/-- Fails at the next token. -/
def fail (cause : Cause) : Parser α := fun ts => .failed cause ts

/-- Reads the next token if its kind fits and goes on behind it, and does something else if not. -/
def lookahead (fits : Kind → Prop) [DecidablePred fits] (next : Token → Parser α)
    (other : Parser α) : Parser α
  | [] => other []
  | t :: ts => if fits t.kind then next t ts else other (t :: ts)

theorem lookahead_cons (fits : Kind → Prop) [DecidablePred fits] (next : Token → Parser α)
    (other : Parser α) (t : Token) (ts : List Token) :
    lookahead fits next other (t :: ts) =
      if fits t.kind then next t ts else other (t :: ts) := rfl

theorem expect_eq (kind : Kind) (cause : Cause) :
    expect kind cause = lookahead (· = kind) (fun t => pure t) (fail cause) := by
  funext ts
  cases ts <;> rfl

/-! ### Expressions -/

theorem chainFrom_eq (isOperator : Kind → Bool) (operand : Rule Expr) (left : Expr) :
    chainFrom isOperator operand left =
      lookahead (isOperator · = true)
        (fun op => do chainFrom isOperator operand (.binary left op (← operand.parse)))
        (pure left) := by
  funext ts
  cases ts with
  | nil => exact chainFrom_nil isOperator operand left
  | cons op ts => exact chainFrom_cons isOperator operand left op ts

theorem primary_eq (expression : Rule Expr) :
    primary expression =
      lookahead (isLiteral · = true) (fun t => pure (.literal t))
        (lookahead (· = .identifier) (fun t => pure (.ident t))
          (lookahead (· = .leftParen)
            (fun _ => do
              let inner ← expression.parse
              let _ ← expect .rightParen .parenAfterExpression
              return .grouping inner)
            (fail .expression))) := by
  funext ts
  cases ts <;> rfl

theorem unary_eq (operand expression : Rule Expr) :
    unary operand expression =
      lookahead (isUnary · = true) (fun op => do return .unary op (← operand.parse))
        (primary expression) := by
  funext ts
  cases ts <;> rfl

theorem assignmentFrom_eq (value : Rule Expr) (target : Expr) :
    assignmentFrom value target =
      lookahead (· = .equal) (fun equals => do assignTo equals target (← value.parse))
        (pure target) := by
  funext ts
  cases ts <;> rfl

/-! ### Statements -/

theorem optional_eq (expression : Rule Expr) :
    varDeclaration.optional expression =
      lookahead (· = .equal) (fun _ => do return some (← expression.parse)) (pure none) := by
  funext ts
  cases ts <;> rfl

theorem elseFrom_eq (branch : Rule Stmt) (c : Expr) (yes : Stmt) :
    elseFrom branch c yes =
      lookahead (· = .kwElse) (fun _ => do return .ifElse c yes (← branch.parse))
        (pure (.ifThen c yes)) := by
  funext ts
  cases ts <;> rfl

theorem statement_eq (expression : Rule Expr) (inner : Rule Stmt)
    (declaration : Rule (Option Stmt)) :
    statement expression inner declaration =
      lookahead (· = .kwPrint) (fun _ => Stmt.print <$> terminated expression .semicolonAfterValue)
        (lookahead (· = .leftBrace) (fun _ => block declaration)
          (lookahead (· = .kwIf) (fun _ => conditional expression inner)
            (lookahead (· = .kwWhile) (fun _ => loop expression inner)
              (Stmt.expression <$> terminated expression .semicolonAfterExpression)))) := by
  funext ts
  cases ts <;> rfl

theorem declared_eq (expression : Rule Expr) (statement : Rule Stmt) :
    declared expression statement =
      lookahead (· = .kwVar) (fun _ => varDeclaration expression) statement.parse := by
  funext ts
  cases ts <;> rfl

end Lox.Parser
