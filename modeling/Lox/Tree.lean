import Lox.Token

/-!
# Programs as trees

What the parser builds and the evaluator walks:

    program      declaration*
    declaration  "var" IDENTIFIER ( "=" expression )? ";"  |  statement
    statement    "print" expression ";"
              |  block: "{" declaration* "}"
              |  "if" "(" expression ")" statement ( "else" statement )?
              |  "while" "(" expression ")" statement
              |  expression ";"
    expression   IDENTIFIER "=" expression  |  binary
    binary       expression operator expression
    unary        ( "!" | "-" ) expression
    primary      NUMBER | STRING | "true" | "false" | "nil" | IDENTIFIER | "(" expression ")"

Trees keep the tokens that carry information: operators, names and literals. Both types have a
`foreign` node, which stands for a node of an extension that this library does not know: printers
show it as `?` and the evaluator refuses it. The parser never builds one.
-/

namespace Lox

/-- An expression. -/
inductive Expr where
  | binary (left : Expr) (operator : Token) (right : Expr)
  | unary (operator : Token) (right : Expr)
  | grouping (inner : Expr)
  | literal (token : Token)
  | ident (name : Token)
  | assign (name : Token) (value : Expr)
  | foreign (label : String)
  deriving DecidableEq, Inhabited

/-- A statement or declaration. -/
inductive Stmt where
  | expression (e : Expr)
  | print (e : Expr)
  | var (name : Token) (initializer : Option Expr)
  | block (body : List Stmt)
  | ifThen (condition : Expr) (yes : Stmt)
  | ifElse (condition : Expr) (yes no : Stmt)
  | loop (condition : Expr) (body : Stmt)
  | foreign (label : String)
  deriving Inhabited

mutual

/-- Whether two statements are the same tree, down to the lines in their tokens. -/
def Stmt.same : Stmt → Stmt → Bool
  | .expression e, .expression f => e = f
  | .print e, .print f => e = f
  | .var n e, .var m f => n = m && e = f
  | .block ss, .block ts => Stmt.sameAll ss ts
  | .ifThen c s, .ifThen d t => c = d && Stmt.same s t
  | .ifElse c s r, .ifElse d t q => c = d && (Stmt.same s t && Stmt.same r q)
  | .loop c s, .loop d t => c = d && Stmt.same s t
  | .foreign a, .foreign b => a = b
  | _, _ => false

/-- Whether two lists of statements are the same trees in the same order. -/
def Stmt.sameAll : List Stmt → List Stmt → Bool
  | [], [] => true
  | s :: ss, t :: ts => Stmt.same s t && Stmt.sameAll ss ts
  | _, _ => false

end

mutual

/-- `Stmt.same` decides equality. -/
theorem Stmt.same_iff : ∀ s t : Stmt, s.same t = true ↔ s = t
  | .expression _, t => by cases t <;> simp [Stmt.same]
  | .print _, t => by cases t <;> simp [Stmt.same]
  | .var _ _, t => by cases t <;> simp [Stmt.same]
  | .block ss, t => by cases t <;> simp [Stmt.same, Stmt.sameAll_iff ss]
  | .ifThen _ s, t => by cases t <;> simp [Stmt.same, Stmt.same_iff s]
  | .ifElse _ s r, t => by cases t <;> simp [Stmt.same, Stmt.same_iff s, Stmt.same_iff r]
  | .loop _ s, t => by cases t <;> simp [Stmt.same, Stmt.same_iff s]
  | .foreign _, t => by cases t <;> simp [Stmt.same]

/-- `Stmt.sameAll` decides equality of lists. -/
theorem Stmt.sameAll_iff : ∀ ss ts : List Stmt, Stmt.sameAll ss ts = true ↔ ss = ts
  | [], ts => by cases ts <;> simp [Stmt.sameAll]
  | s :: ss, ts => by cases ts <;> simp [Stmt.sameAll, Stmt.same_iff s, Stmt.sameAll_iff ss]

end

instance : DecidableEq Stmt := fun s t => decidable_of_iff _ (Stmt.same_iff s t)

end Lox
