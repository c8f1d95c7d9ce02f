import Lox.Tree

/-!
# Trees of the stratified grammar

Not every tree is one that the grammar derives. An expression has a *level*, which grows with how
tightly it binds:

    0 assignment   1 equality   2 comparison   3 term   4 factor   5 unary   6 primary

`Expr.Stratified` says that operands stand at levels where the grammar allows them, so that no
parentheses are missing, and that every stored token has a kind that fits its place.
`Stmt.WellFormed` says the same of statements: no branch or body is a declaration, and the first
branch of a conditional with `else` does not end in a conditional without one, to which the `else`
would belong.

`nesting` counts the levels of nesting that a tree takes up, where a chain of binary operators
counts as one.
-/

namespace Lox

/-- The level of an operator between two operands. -/
def Kind.infixLevel? : Kind → Option Nat
  | .bangEqual | .equalEqual => some 1
  | .greater | .greaterEqual | .less | .lessEqual => some 2
  | .minus | .plus => some 3
  | .slash | .star => some 4
  | _ => none

/-- Whether a token of this kind goes on with an expression of the given level or tighter. -/
def Kind.continues (level : Nat) (k : Kind) : Bool :=
  match k.infixLevel? with
  | some n => level ≤ n
  | none => k = .equal && level = 0

/-- The kinds that an expression starts with. -/
def Kind.startsExpression : Kind → Bool
  | .bang | .minus | .number | .string | .kwTrue | .kwFalse | .kwNil | .identifier
  | .leftParen => true
  | _ => false

namespace Expr

/-- How tightly an expression binds. -/
def level : Expr → Nat
  | assign .. => 0
  | binary _ operator _ => operator.kind.infixLevel?.getD 0
  | unary .. => 5
  | _ => 6

/-- The grammar derives the expression. -/
def Stratified : Expr → Prop
  | binary left operator right =>
    (∃ n ∈ operator.kind.infixLevel?, n ≤ left.level ∧ n < right.level)
      ∧ left.Stratified ∧ right.Stratified
  | unary operator right =>
    operator.kind ∈ [Kind.bang, .minus] ∧ 5 ≤ right.level ∧ right.Stratified
  | grouping inner => inner.Stratified
  | literal token => token.kind ∈ [Kind.number, .string, .kwTrue, .kwFalse, .kwNil]
  | ident name => name.kind = .identifier
  | assign name value => name.kind = .identifier ∧ value.Stratified
  | foreign _ => False

/-- Whether the grammar derives an expression can be computed. -/
instance decidableStratified : (e : Expr) → Decidable e.Stratified
  | binary left operator right =>
    have := decidableStratified left
    have := decidableStratified right
    inferInstanceAs (Decidable ((∃ n ∈ operator.kind.infixLevel?, n ≤ left.level ∧ n < right.level)
      ∧ left.Stratified ∧ right.Stratified))
  | unary operator right =>
    have := decidableStratified right
    inferInstanceAs (Decidable (operator.kind ∈ [Kind.bang, .minus] ∧ 5 ≤ right.level
      ∧ right.Stratified))
  | grouping inner => decidableStratified inner
  | literal token =>
    inferInstanceAs (Decidable (token.kind ∈ [Kind.number, .string, .kwTrue, .kwFalse, .kwNil]))
  | ident name => inferInstanceAs (Decidable (name.kind = .identifier))
  | assign name value =>
    have := decidableStratified value
    inferInstanceAs (Decidable (name.kind = .identifier ∧ value.Stratified))
  | foreign _ => inferInstanceAs (Decidable False)

/-- The levels of nesting of an expression. -/
def nesting : Expr → Nat
  | binary left _ right => max left.nesting right.nesting
  | unary _ right => right.nesting + 1
  | grouping inner => inner.nesting + 1
  | assign _ value => value.nesting + 1
  | _ => 1

end Expr

namespace Stmt

/-- Whether a statement declares a variable. -/
def isVar : Stmt → Bool
  | var .. => true
  | _ => false

/-- Whether a statement ends in a conditional that an `else` after it would belong to. -/
def endsOpen : Stmt → Bool
  | ifThen .. => true
  | ifElse _ _ no => no.endsOpen
  | loop _ body => body.endsOpen
  | _ => false

mutual

/-- The grammar derives the statement. -/
def WellFormed : Stmt → Prop
  | expression e => e.Stratified
  | print e => e.Stratified
  | var name none => name.kind = .identifier
  | var name (some e) => name.kind = .identifier ∧ e.Stratified
  | block body => AllWellFormed body
  | ifThen condition yes => condition.Stratified ∧ yes.isVar = false ∧ yes.WellFormed
  | ifElse condition yes no =>
    condition.Stratified ∧ (yes.isVar = false ∧ yes.endsOpen = false ∧ yes.WellFormed)
      ∧ no.isVar = false ∧ no.WellFormed
  | loop condition body => condition.Stratified ∧ body.isVar = false ∧ body.WellFormed
  | foreign _ => False

/-- The grammar derives all the statements. -/
def AllWellFormed : List Stmt → Prop
  | [] => True
  | s :: ss => s.WellFormed ∧ AllWellFormed ss

end

theorem allWellFormed_iff {ss : List Stmt} : AllWellFormed ss ↔ ∀ s ∈ ss, s.WellFormed := by
  induction ss with
  | nil => simp [AllWellFormed]
  | cons s ss ih => simp [AllWellFormed, ih]

mutual

/-- Whether the grammar derives a statement can be computed. -/
instance decidableWellFormed : (s : Stmt) → Decidable s.WellFormed
  | expression e => inferInstanceAs (Decidable e.Stratified)
  | print e => inferInstanceAs (Decidable e.Stratified)
  | var name none => inferInstanceAs (Decidable (name.kind = .identifier))
  | var name (some e) => inferInstanceAs (Decidable (name.kind = .identifier ∧ e.Stratified))
  | block body => decidableAllWellFormed body
  | ifThen condition yes =>
    have := decidableWellFormed yes
    inferInstanceAs (Decidable (condition.Stratified ∧ yes.isVar = false ∧ yes.WellFormed))
  | ifElse condition yes no =>
    have := decidableWellFormed yes
    have := decidableWellFormed no
    inferInstanceAs (Decidable (condition.Stratified
      ∧ (yes.isVar = false ∧ yes.endsOpen = false ∧ yes.WellFormed)
      ∧ no.isVar = false ∧ no.WellFormed))
  | loop condition body =>
    have := decidableWellFormed body
    inferInstanceAs (Decidable (condition.Stratified ∧ body.isVar = false ∧ body.WellFormed))
  | foreign _ => inferInstanceAs (Decidable False)

/-- Whether the grammar derives all the statements can be computed. -/
instance decidableAllWellFormed : (ss : List Stmt) → Decidable (AllWellFormed ss)
  | [] => inferInstanceAs (Decidable True)
  | s :: ss =>
    have := decidableWellFormed s
    have := decidableAllWellFormed ss
    inferInstanceAs (Decidable (s.WellFormed ∧ AllWellFormed ss))

end

/-! An `else` belongs to the inner conditional, so the outer one cannot have it. -/

example (c d : Token) (s r : Stmt) :
    ¬ (ifElse (.ident c) (ifThen (.ident d) s) r).WellFormed := by
  rintro ⟨-, ⟨-, closed, -⟩, -⟩
  cases closed

mutual

/-- The levels of nesting of a statement. -/
def nesting : Stmt → Nat
  | expression e => e.nesting
  | print e => e.nesting
  | var _ none => 1
  | var _ (some e) => e.nesting
  | block body => nestingAll body + 1
  | ifThen condition yes => max condition.nesting (yes.nesting + 1)
  | ifElse condition yes no => max condition.nesting (max (yes.nesting + 1) (no.nesting + 1))
  | loop condition body => max condition.nesting (body.nesting + 1)
  | foreign _ => 1

/-- The greatest nesting in a list. -/
def nestingAll : List Stmt → Nat
  | [] => 0
  | s :: ss => max s.nesting (nestingAll ss)

end

theorem nestingAll_append (ss rs : List Stmt) :
    nestingAll (ss ++ rs) = max (nestingAll ss) (nestingAll rs) := by
  induction ss with
  | nil => simp [nestingAll]
  | cons s ss ih => simp only [List.cons_append, nestingAll, ih, Nat.max_assoc]

end Stmt

end Lox
