import Lox.Parser.Grammar

/-!
# The rules of one level of nesting

`Grammar.extend` builds its rules from those one level further in. Here they get names, and each
of the four rules that a grammar holds its equation, so that proofs by induction on the depth
never unfold `extend` itself.
-/

namespace Lox.Parser

/-- The rule of operands between operators. -/
def Rule.chain (isOperator : Kind → Bool) (operand : Rule Expr) : Rule Expr :=
  ⟨_, consumes_chain isOperator operand⟩

namespace Grammar

variable (inner : Grammar)

/-- The rule of factors. -/
def factor : Rule Expr := .chain isFactor inner.extend.unary

/-- The rule of terms. -/
def term : Rule Expr := .chain isTerm inner.factor

/-- The rule of comparisons. -/
def comparison : Rule Expr := .chain isComparison inner.term

/-- The rule of equalities. -/
def equality : Rule Expr := .chain isEquality inner.comparison

theorem extend_unary :
    inner.extend.unary.parse = Parser.unary inner.unary inner.expression := rfl

theorem extend_expression :
    inner.extend.expression.parse = assignment inner.equality inner.expression := rfl

theorem extend_statement :
    inner.extend.statement.parse =
      Parser.statement inner.extend.expression inner.statement inner.declaration := rfl

theorem extend_declaration :
    inner.extend.declaration.parse =
      recovering (declared inner.extend.expression inner.extend.statement) := rfl

end Grammar

end Lox.Parser
