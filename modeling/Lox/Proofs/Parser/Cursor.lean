import Lox.Parser.Grammar

/-!
# The parser on an index

The parser as a walk of an index over the whole token list, whatever stands behind the first end
token. Nothing here ends by construction: an index may lie outside the list, a problem may be raised
with nobody to catch it, and the loops are cut off only by a number of rounds. All of this is
recorded as a reason why a walk broke off (`Stop`), so that it can be stated, and shown, that a walk
breaks off for none of these reasons but nesting.

The productions are those of the grammar, stated by the index: they decide by the kind of the next
token (`branch`), insist on one (`consume`), and recover at the next start of a statement
(`synchronize`).
-/

namespace Lox

/-- Where a walk stands: the index of the next token, and what was reported until then. -/
structure Cursor where
  position : Nat
  reported : List Diagnostic
  deriving DecidableEq

/-- Why a walk broke off. -/
inductive Walk.Stop where
  /-- A problem was raised for the caller to catch. -/
  | raised (problem : Diagnostic)
  /-- The program nests too deep. -/
  | tooDeep
  /-- A token outside the list was read. -/
  | outside
  /-- The index was moved over an end token. -/
  | past
  /-- A loop did not end within its rounds. -/
  | endless
  deriving DecidableEq

/-- A walk over a token list. -/
abbrev Walk (α : Type) : Type := EStateM Walk.Stop Cursor α

namespace Walk

open Lox.Parser

variable {α : Type} (tokens : List Token)

/-! ### The index -/

/-- The token at an index. -/
def read (i : Nat) : Walk Token :=
  match tokens[i]? with
  | some t => pure t
  | none => throw .outside

/-- The next token. -/
def peek : Walk Token := do
  read tokens (← get).position

/-- The token before the next one. -/
def previous : Walk Token := do
  match (← get).position with
  | 0 => throw .outside
  | i + 1 => read tokens i

/-- Whether the next token is an end token. -/
def isAtEnd : Walk Bool := do
  return (← peek tokens).kind = .eof

/-- Moves the index on by one. -/
def move : Walk Unit := do
  if (← peek tokens).kind = .eof then throw .past
  modify fun c => { c with position := c.position + 1 }

/-- Moves over the next token, except at the end. The answer is the token before the index. -/
def advance : Walk Token := do
  if ← isAtEnd tokens then previous tokens
  else
    move tokens
    previous tokens

/-- Whether the next token is of this kind. -/
def check (kind : Kind) : Walk Bool := do
  if ← isAtEnd tokens then return false
  else return (← peek tokens).kind = kind

/-- Moves over the next token if it is of one of these kinds, which are tried one by one. -/
def accept : List Kind → Walk Bool
  | [] => return false
  | kind :: kinds => do
    if ← check tokens kind then
      let _ ← advance tokens
      return true
    else accept kinds

/-- Goes on behind a token of one of these kinds, or does something else if the next is not. -/
def branch (kinds : List Kind) (next : Token → Walk α) (other : Walk α) : Walk α := do
  if ← accept tokens kinds then next (← previous tokens) else other

/-- Raises a problem at the next token. -/
def raise (cause : Cause) : Walk α := do
  throw (.raised (.atToken .grammatical (← peek tokens) cause.message))

/-- Moves over a token of this kind, which has to be the next. -/
def consume (kind : Kind) (cause : Cause) : Walk Token := do
  if ← check tokens kind then advance tokens else raise tokens cause

/-- Reports a problem. -/
def report (problem : Diagnostic) : Walk Unit :=
  modify fun c => { c with reported := c.reported ++ [problem] }

/-! ### Expressions -/

/-- Goes on with a chain of operands from `left`. -/
def chainFrom (operators : List Kind) (operand : Walk Expr) : (rounds : Nat) → Expr → Walk Expr
  | 0, _ => throw .endless
  | rounds + 1, left =>
    branch tokens operators
      (fun op => do chainFrom operators operand rounds (.binary left op (← operand)))
      (pure left)

/-- A chain of one or more operands between operators. -/
def chain (operators : List Kind) (operand : Walk Expr) (rounds : Nat) : Walk Expr := do
  let left ← operand
  chainFrom tokens operators operand rounds left

/-- A literal, a name, or an expression between parentheses. -/
def primary (expression : Walk Expr) : Walk Expr :=
  branch tokens [.number, .string, .kwTrue, .kwFalse, .kwNil] (fun t => pure (.literal t)) <|
  branch tokens [.identifier] (fun t => pure (.ident t)) <|
  branch tokens [.leftParen]
    (fun _ => do
      let inner ← expression
      let _ ← consume tokens .rightParen .parenAfterExpression
      return .grouping inner)
    (raise tokens .expression)

/-- An operator before an operand, or a primary. -/
def unary (operand expression : Walk Expr) : Walk Expr :=
  branch tokens [.bang, .minus] (fun op => do return .unary op (← operand))
    (primary tokens expression)

/-- Judges the target of an assignment once its value is known. -/
def assignTo (equals : Token) (target value : Expr) : Walk Expr :=
  match target with
  | .ident name => pure (.assign name value)
  | _ => do
    report (.atToken .grammatical equals Cause.assignmentTarget.message)
    return target

/-- An equality, or an assignment to one. -/
def assignment (equality value : Walk Expr) : Walk Expr := do
  let target ← equality
  branch tokens [.equal] (fun equals => do assignTo equals target (← value)) (pure target)

/-! ### Statements -/

/-- Moves on until just after a semicolon or just before a keyword that starts a statement. -/
def resume : (rounds : Nat) → Walk Unit
  | 0 => throw .endless
  | rounds + 1 => do
    if ← isAtEnd tokens then return ()
    else if (← previous tokens).kind = .semicolon || startsStatement (← peek tokens).kind then
      return ()
    else
      let _ ← advance tokens
      resume rounds

/-- Recovers from a problem at the next token. -/
def synchronize (rounds : Nat) : Walk Unit := do
  let _ ← advance tokens
  resume tokens rounds

/-- An expression and the semicolon after it. -/
def terminated (expression : Walk Expr) (cause : Cause) : Walk Expr := do
  let e ← expression
  let _ ← consume tokens .semicolon cause
  return e

/-- The condition of a statement, between parentheses. -/
def condition (expression : Walk Expr) (opening closing : Cause) : Walk Expr := do
  let _ ← consume tokens .leftParen opening
  let e ← expression
  let _ ← consume tokens .rightParen closing
  return e

/-- What follows the keyword of a variable declaration. -/
def varDeclaration (expression : Walk Expr) : Walk Stmt := do
  let name ← consume tokens .identifier .variableName
  let initializer ← branch tokens [.equal] (fun _ => do return some (← expression)) (pure none)
  let _ ← consume tokens .semicolon .semicolonAfterVariable
  return .var name initializer

/-- Declarations up to a place that closes them. -/
def declarations (closed : Walk Bool) (declaration : Walk (Option Stmt)) :
    (rounds : Nat) → Walk (List Stmt)
  | 0 => throw .endless
  | rounds + 1 => do
    if ← closed then return []
    else
      let s ← declaration
      let ss ← declarations closed declaration rounds
      return s.toList ++ ss

/-- What follows the opening brace of a block. -/
def block (declaration : Walk (Option Stmt)) (rounds : Nat) : Walk Stmt := do
  let closed : Walk Bool := do
    if ← check tokens .rightBrace then return true else isAtEnd tokens
  let body ← declarations closed declaration rounds
  let _ ← consume tokens .rightBrace .braceAfterBlock
  return .block body

/-- What follows the keyword of a conditional. -/
def conditional (expression : Walk Expr) (inner : Walk Stmt) : Walk Stmt := do
  let c ← condition tokens expression .parenAfterIf .parenAfterIfCondition
  let yes ← inner
  branch tokens [.kwElse] (fun _ => do return .ifElse c yes (← inner)) (pure (.ifThen c yes))

/-- What follows the keyword of a loop. -/
def loop (expression : Walk Expr) (body : Walk Stmt) : Walk Stmt := do
  let c ← condition tokens expression .parenAfterWhile .parenAfterLoopCondition
  let s ← body
  return .loop c s

/-- A statement: the keyword decides which. -/
def statement (expression : Walk Expr) (inner : Walk Stmt) (declaration : Walk (Option Stmt))
    (rounds : Nat) : Walk Stmt :=
  branch tokens [.kwPrint]
    (fun _ => Stmt.print <$> terminated tokens expression .semicolonAfterValue) <|
  branch tokens [.leftBrace] (fun _ => block tokens declaration rounds) <|
  branch tokens [.kwIf] (fun _ => conditional tokens expression inner) <|
  branch tokens [.kwWhile] (fun _ => loop tokens expression inner) <|
  Stmt.expression <$> terminated tokens expression .semicolonAfterExpression

/-- A declaration of a variable, or a statement. -/
def declared (expression : Walk Expr) (statement : Walk Stmt) : Walk Stmt :=
  branch tokens [.kwVar] (fun _ => varDeclaration tokens expression) statement

/-- Reports a problem that is raised, and recovers from it. -/
def recovering (walk : Walk Stmt) (rounds : Nat) : Walk (Option Stmt) := fun c =>
  match walk c with
  | .ok s c => .ok (some s) c
  | .error (.raised problem) c =>
    (do
      report problem
      synchronize tokens rounds
      return none : Walk (Option Stmt)) c
  | .error stop c => .error stop c

/-! ### Levels of nesting -/

/-- The walks at which a program nests. -/
structure Productions where
  unary : Walk Expr
  expression : Walk Expr
  statement : Walk Stmt
  declaration : Walk (Option Stmt)

namespace Productions

/-- Nothing nests any deeper. -/
def exhausted : Productions :=
  ⟨throw .tooDeep, throw .tooDeep, throw .tooDeep, throw .tooDeep⟩

/-- The walks of a level in terms of those one level further in. -/
def extend (rounds : Nat) (inner : Productions) : Productions :=
  let unary := Walk.unary tokens inner.unary inner.expression
  let factor := chain tokens [.slash, .star] unary rounds
  let term := chain tokens [.minus, .plus] factor rounds
  let comparison := chain tokens [.greater, .greaterEqual, .less, .lessEqual] term rounds
  let equality := chain tokens [.bangEqual, .equalEqual] comparison rounds
  let expression := assignment tokens equality inner.expression
  let statement := Walk.statement tokens expression inner.statement inner.declaration rounds
  let declaration := recovering tokens (declared tokens expression statement) rounds
  { unary, expression, statement, declaration }

/-- The walks for programs that nest at most this deep, with at most this many rounds a loop. -/
def ofDepth (rounds : Nat) : (depth : Nat) → Productions
  | 0 => exhausted
  | depth + 1 => (ofDepth rounds depth).extend tokens rounds

end Productions

/-- Declarations up to the end. -/
def program (rounds depth : Nat) : Walk (List Stmt) :=
  declarations (isAtEnd tokens) (Productions.ofDepth tokens rounds depth).declaration rounds

end Walk

end Lox
