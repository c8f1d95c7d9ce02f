import Lox.Tree

/-!
# Names in trees

The names of a program are the lexemes of the tokens that stand for variables: where one is read,
assigned to, or declared. Renaming changes these lexemes and nothing else: operators and literals
keep theirs, and a string that happens to hold the text of a name is left as it is.
-/

namespace Lox

/-! ### The names that occur -/

/-- The names that occur in the expression. -/
def Expr.names : Expr → List String
  | .binary left _ right => left.names ++ right.names
  | .unary _ right => right.names
  | .grouping inner => inner.names
  | .ident name => [name.lexeme]
  | .assign name value => name.lexeme :: value.names
  | .literal _ | .foreign _ => []

namespace Stmt

mutual

/-- The names that occur in the statement. -/
def names : Stmt → List String
  | expression e | print e => e.names
  | var name none => [name.lexeme]
  | var name (some e) => name.lexeme :: e.names
  | block body => namesAll body
  | ifThen condition yes => condition.names ++ yes.names
  | ifElse condition yes no => condition.names ++ (yes.names ++ no.names)
  | loop condition body => condition.names ++ body.names
  | foreign _ => []

/-- The names that occur in the statements. -/
def namesAll : List Stmt → List String
  | [] => []
  | s :: ss => s.names ++ namesAll ss

end

end Stmt

/-! ### Renaming -/

/-- The token with its lexeme renamed. -/
def Token.rename (r : String → String) (t : Token) : Token := { t with lexeme := r t.lexeme }

@[simp] theorem Token.lexeme_rename (r : String → String) (t : Token) :
    (t.rename r).lexeme = r t.lexeme := rfl

/-- The expression with its variables renamed. -/
def Expr.rename (r : String → String) : Expr → Expr
  | .binary left operator right => .binary (left.rename r) operator (right.rename r)
  | .unary operator right => .unary operator (right.rename r)
  | .grouping inner => .grouping (inner.rename r)
  | .literal token => .literal token
  | .ident name => .ident (name.rename r)
  | .assign name value => .assign (name.rename r) (value.rename r)
  | .foreign label => .foreign label

namespace Stmt

mutual

/-- The statement with its variables renamed. -/
def rename (r : String → String) : Stmt → Stmt
  | expression e => expression (e.rename r)
  | print e => print (e.rename r)
  | var name none => var (name.rename r) none
  | var name (some e) => var (name.rename r) (some (e.rename r))
  | block body => block (renameAll r body)
  | ifThen condition yes => ifThen (condition.rename r) (yes.rename r)
  | ifElse condition yes no => ifElse (condition.rename r) (yes.rename r) (no.rename r)
  | loop condition body => loop (condition.rename r) (body.rename r)
  | foreign label => foreign label

/-- The statements with their variables renamed. -/
def renameAll (r : String → String) : List Stmt → List Stmt
  | [] => []
  | s :: ss => s.rename r :: renameAll r ss

end

end Stmt

end Lox
