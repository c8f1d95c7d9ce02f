import Lox.Tree

/-!
# Trees as text

A tree is shown in parenthesized form, operator first, such as `(+ 1 (group (* 2 3)))`; an
expression also in reverse Polish notation, such as `1 2 3 * +`, which needs no parentheses, but
does not tell negation from subtraction. Trees higher than a limit are not shown.
-/

namespace Lox

/-- A head and parts between parentheses. -/
def parenthesized (head : String) (parts : List String) : String :=
  "(" ++ " ".intercalate (head :: parts) ++ ")"

namespace Expr

/-- Parenthesized form. -/
def text : Expr → String
  | binary left operator right => parenthesized operator.lexeme [left.text, right.text]
  | unary operator right => parenthesized operator.lexeme [right.text]
  | grouping inner => parenthesized "group" [inner.text]
  | literal token => token.lexeme
  | ident name => name.lexeme
  | assign name value => parenthesized "=" [name.lexeme, value.text]
  | foreign _ => "?"

/-- Reverse Polish notation: operands before their operator, groups without a trace. -/
def rpn : Expr → String
  | binary left operator right => left.rpn ++ " " ++ right.rpn ++ " " ++ operator.lexeme
  | unary operator right => right.rpn ++ " " ++ operator.lexeme
  | grouping inner => inner.rpn
  | literal token => token.lexeme
  | ident name => name.lexeme
  | assign name value => name.lexeme ++ " " ++ value.rpn ++ " ="
  | foreign _ => "?"

/-- The number of nodes on the longest way down. -/
def height : Expr → Nat
  | binary left _ right => max left.height right.height + 1
  | unary _ right => right.height + 1
  | grouping inner => inner.height + 1
  | assign _ value => value.height + 1
  | _ => 1

/-- The parenthesized form of a tree that is not too high. -/
def text? (limit : Nat) (e : Expr) : Option String :=
  if e.height ≤ limit then some e.text else none

/-- The reverse Polish notation of a tree that is not too high. -/
def rpn? (limit : Nat) (e : Expr) : Option String :=
  if e.height ≤ limit then some e.rpn else none

end Expr

namespace Stmt

mutual

/-- Parenthesized form. -/
def text : Stmt → String
  | expression e => parenthesized "expr" [e.text]
  | print e => parenthesized "print" [e.text]
  | var name none => parenthesized "var" [name.lexeme]
  | var name (some e) => parenthesized "var" [name.lexeme, e.text]
  | block body => parenthesized "block" (texts body)
  | ifThen condition yes => parenthesized "if" [condition.text, yes.text]
  | ifElse condition yes no => parenthesized "if" [condition.text, yes.text, no.text]
  | loop condition body => parenthesized "while" [condition.text, body.text]
  | foreign _ => "?"

/-- The parenthesized forms of statements in order. -/
def texts : List Stmt → List String
  | [] => []
  | s :: ss => s.text :: texts ss

end

mutual

/-- The number of nodes on the longest way down. -/
def height : Stmt → Nat
  | expression e => e.height + 1
  | print e => e.height + 1
  | var _ none => 1
  | var _ (some e) => e.height + 1
  | block body => heightAll body + 1
  | ifThen condition yes => max condition.height yes.height + 1
  | ifElse condition yes no => max condition.height (max yes.height no.height) + 1
  | loop condition body => max condition.height body.height + 1
  | foreign _ => 1

/-- The greatest height in a list. -/
def heightAll : List Stmt → Nat
  | [] => 0
  | s :: ss => max s.height (heightAll ss)

end

/-- The parenthesized form of a tree that is not too high. -/
def text? (limit : Nat) (s : Stmt) : Option String :=
  if s.height ≤ limit then some s.text else none

/-- The expression of an expression statement or print statement. -/
def operand? : Stmt → Option Expr
  | expression e => some e
  | print e => some e
  | _ => none

end Stmt

end Lox
