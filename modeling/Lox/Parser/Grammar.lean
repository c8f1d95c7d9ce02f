import Lox.Parser.Rule

/-!
# The grammar

Expressions, loosest first:

    assignment   IDENTIFIER "=" assignment  |  equality
    equality     comparison ( ( "!=" | "==" ) comparison )*
    comparison   term ( ( ">" | ">=" | "<" | "<=" ) term )*
    term         factor ( ( "-" | "+" ) factor )*
    factor       unary ( ( "/" | "*" ) unary )*
    unary        ( "!" | "-" ) unary  |  primary

A `Grammar` holds the rules at which a program nests. `Grammar.extend` states the rules of one
level in terms of those one level further in; `Grammar.ofDepth` iterates it, and nesting beyond
the depth is reported. Chains of binary operators do not nest.

A failure is caught by the innermost declaration around it, which then drops tokens up to the next
place where a statement can start (`synchronize`).
-/

namespace Lox.Parser

/-! ### Expressions -/

/-- The operators of equality. -/
def isEquality (k : Kind) : Bool := k = .bangEqual || k = .equalEqual

/-- The operators of comparison. -/
def isComparison (k : Kind) : Bool :=
  k = .greater || k = .greaterEqual || k = .less || k = .lessEqual

/-- The operators of a term. -/
def isTerm (k : Kind) : Bool := k = .minus || k = .plus

/-- The operators of a factor. -/
def isFactor (k : Kind) : Bool := k = .slash || k = .star

/-- The operators before an operand. -/
def isUnary (k : Kind) : Bool := k = .bang || k = .minus

/-- The tokens that are an expression by themselves. -/
def isLiteral (k : Kind) : Bool :=
  k = .number || k = .string || k = .kwTrue || k = .kwFalse || k = .kwNil

/-- Goes on with a chain of operands from `left`, which associates to the left. -/
def chainFrom (isOperator : Kind → Bool) (operand : Rule Expr) (left : Expr) : Parser Expr
  | [] => .done left []
  | op :: ts =>
    if isOperator op.kind then
      match _h : operand.parse ts with
      | ⟨complaints, .done right rest⟩ =>
        (chainFrom isOperator operand (.binary left op right) rest).after complaints
      | ⟨complaints, .failed cause rest⟩ => ⟨complaints, .failed cause rest⟩
      | ⟨complaints, .tooDeep rest⟩ => ⟨complaints, .tooDeep rest⟩
    else .done left (op :: ts)
termination_by ts => ts.length
decreasing_by
  have := operand.length_rest_le ‹_›
  simp only [List.length_cons]
  omega

theorem chainFrom_nil (isOperator : Kind → Bool) (operand : Rule Expr) (left : Expr) :
    chainFrom isOperator operand left [] = .done left [] := by
  rw [chainFrom]

theorem chainFrom_cons (isOperator : Kind → Bool) (operand : Rule Expr) (left : Expr) (op : Token)
    (ts : List Token) :
    chainFrom isOperator operand left (op :: ts) =
      if isOperator op.kind then
        (operand.parse ts).bind fun right rest =>
          chainFrom isOperator operand (.binary left op right) rest
      else .done left (op :: ts) := by
  rw [chainFrom]
  split
  · split <;> simp [*, Reply.bind]
  · rfl

/-- A chain of one or more operands between operators. -/
def chain (isOperator : Kind → Bool) (operand : Rule Expr) : Parser Expr := do
  let left ← operand.parse
  chainFrom isOperator operand left

/-- A literal, a name, or an expression between parentheses. -/
def primary (expression : Rule Expr) : Parser Expr
  | [] => .failed .expression []
  | t :: ts =>
    if isLiteral t.kind then .done (.literal t) ts
    else if t.kind = .identifier then .done (.ident t) ts
    else if t.kind = .leftParen then
      (do
        let inner ← expression.parse
        let _ ← expect .rightParen .parenAfterExpression
        return .grouping inner : Parser Expr) ts
    else .failed .expression (t :: ts)

/-- An operator before an operand, or a primary. -/
def unary (operand expression : Rule Expr) : Parser Expr
  | [] => primary expression []
  | t :: ts =>
    if isUnary t.kind then
      (do
        let right ← operand.parse
        return .unary t right : Parser Expr) ts
    else primary expression (t :: ts)

/-- Judges the target of an assignment once its value is known. A bad target is complained about
at the equals sign and kept; the value is dropped. -/
def assignTo (equals : Token) (target value : Expr) : Parser Expr :=
  match target with
  | .ident name => pure (.assign name value)
  | _ => do
    complain ⟨.assignmentTarget, some equals⟩
    return target

/-- What may follow an equality: an equals sign and a value, which makes it an assignment. -/
def assignmentFrom (value : Rule Expr) (target : Expr) : Parser Expr
  | [] => .done target []
  | t :: ts =>
    if t.kind = .equal then
      (do
        let v ← value.parse
        assignTo t target v : Parser Expr) ts
    else .done target (t :: ts)

/-- An equality, or an assignment to one. -/
def assignment (equality value : Rule Expr) : Parser Expr := do
  let target ← equality.parse
  assignmentFrom value target

/-! ### Statements -/

/-- The keywords at which a statement starts. -/
def startsStatement (k : Kind) : Bool :=
  k = .kwClass || k = .kwFun || k = .kwVar || k = .kwFor || k = .kwIf || k = .kwWhile
    || k = .kwPrint || k = .kwReturn

/-- Drops tokens until just after a semicolon or just before a keyword that starts a statement.
`last` is the token dropped last. -/
def dropToStart (last : Token) : List Token → List Token
  | [] => []
  | t :: ts =>
    if last.kind = .semicolon || startsStatement t.kind then t :: ts else dropToStart t ts

/-- Where to resume after a failure at the first token, which is always dropped. -/
def synchronize : List Token → List Token
  | [] => []
  | t :: ts => dropToStart t ts

/-- An expression and the semicolon after it. -/
def terminated (expression : Rule Expr) (cause : Cause) : Parser Expr := do
  let e ← expression.parse
  let _ ← expect .semicolon cause
  return e

/-- The condition of a statement, between parentheses. -/
def condition (expression : Rule Expr) (opening closing : Cause) : Parser Expr := do
  let _ ← expect .leftParen opening
  let e ← expression.parse
  let _ ← expect .rightParen closing
  return e

/-- What follows the keyword of a variable declaration. -/
def varDeclaration (expression : Rule Expr) : Parser Stmt := do
  let name ← expect .identifier .variableName
  let initializer ← optional
  let _ ← expect .semicolon .semicolonAfterVariable
  return .var name initializer
where
  /-- An equals sign and an expression, or nothing. -/
  optional : Parser (Option Expr)
    | [] => .done none []
    | t :: ts =>
      if t.kind = .equal then
        (do
          let e ← expression.parse
          return some e : Parser (Option Expr)) ts
      else .done none (t :: ts)

/-- Declarations up to a token that closes them, or to the end. Those that failed leave no
statement. -/
def declarations (closes : Kind → Bool) (declaration : Rule (Option Stmt)) : Parser (List Stmt)
  | [] => .done [] []
  | t :: ts =>
    if closes t.kind then .done [] (t :: ts)
    else
      match _h : declaration.parse (t :: ts) with
      | ⟨complaints, .done s rest⟩ =>
        ((declarations closes declaration rest).bind fun ss rest =>
          .done (s.toList ++ ss) rest).after complaints
      | ⟨complaints, .failed cause rest⟩ => ⟨complaints, .failed cause rest⟩
      | ⟨complaints, .tooDeep rest⟩ => ⟨complaints, .tooDeep rest⟩
termination_by ts => ts.length
decreasing_by
  have := declaration.length_rest_le ‹_›
  simp only [List.length_cons] at this ⊢
  omega

theorem declarations_nil (closes : Kind → Bool) (declaration : Rule (Option Stmt)) :
    declarations closes declaration [] = .done [] [] := by
  rw [declarations]

theorem declarations_cons (closes : Kind → Bool) (declaration : Rule (Option Stmt)) (t : Token)
    (ts : List Token) :
    declarations closes declaration (t :: ts) =
      if closes t.kind then .done [] (t :: ts)
      else (declaration.parse (t :: ts)).bind fun s rest =>
        (declarations closes declaration rest).bind fun ss rest => .done (s.toList ++ ss) rest := by
  rw [declarations]
  split
  · rfl
  · split <;> simp [*, Reply.bind]

/-- What follows the opening brace of a block. -/
def block (declaration : Rule (Option Stmt)) : Parser Stmt := do
  let body ← declarations (· = .rightBrace) declaration
  let _ ← expect .rightBrace .braceAfterBlock
  return .block body

/-- What may follow the first branch of a conditional. -/
def elseFrom (branch : Rule Stmt) (condition : Expr) (yes : Stmt) : Parser Stmt
  | [] => .done (.ifThen condition yes) []
  | t :: ts =>
    if t.kind = .kwElse then
      (do
        let no ← branch.parse
        return .ifElse condition yes no : Parser Stmt) ts
    else .done (.ifThen condition yes) (t :: ts)

/-- What follows the keyword of a conditional. -/
def conditional (expression : Rule Expr) (branch : Rule Stmt) : Parser Stmt := do
  let c ← condition expression .parenAfterIf .parenAfterIfCondition
  let yes ← branch.parse
  elseFrom branch c yes

/-- What follows the keyword of a loop. -/
def loop (expression : Rule Expr) (body : Rule Stmt) : Parser Stmt := do
  let c ← condition expression .parenAfterWhile .parenAfterLoopCondition
  let s ← body.parse
  return .loop c s

/-- A statement: the keyword decides which. -/
def statement (expression : Rule Expr) (inner : Rule Stmt) (declaration : Rule (Option Stmt)) :
    Parser Stmt
  | [] => (Stmt.expression <$> terminated expression .semicolonAfterExpression : Parser Stmt) []
  | t :: ts =>
    if t.kind = .kwPrint then
      (Stmt.print <$> terminated expression .semicolonAfterValue : Parser Stmt) ts
    else if t.kind = .leftBrace then block declaration ts
    else if t.kind = .kwIf then conditional expression inner ts
    else if t.kind = .kwWhile then loop expression inner ts
    else
      (Stmt.expression <$> terminated expression .semicolonAfterExpression : Parser Stmt) (t :: ts)

/-- A declaration of a variable, or a statement. -/
def declared (expression : Rule Expr) (statement : Rule Stmt) : Parser Stmt
  | [] => statement.parse []
  | t :: ts => if t.kind = .kwVar then varDeclaration expression ts else statement.parse (t :: ts)

/-- Turns a failure into a complaint and no value, and resumes at the next start. -/
def recovering (p : Parser Stmt) : Parser (Option Stmt) := fun ts =>
  match p ts with
  | ⟨complaints, .done s rest⟩ => ⟨complaints, .done (some s) rest⟩
  | ⟨complaints, .failed cause rest⟩ =>
    ⟨complaints ++ [⟨cause, rest.head?⟩], .done none (synchronize rest)⟩
  | ⟨complaints, .tooDeep rest⟩ => ⟨complaints, .tooDeep rest⟩

/-! ### Progress -/

theorem advances_chainFrom (isOperator : Kind → Bool) (operand : Rule Expr) (left : Expr) :
    (chainFrom isOperator operand left).Advances := by
  intro ts
  fun_induction chainFrom isOperator operand left ts with
  | case1 => exact Nat.le_refl _
  | case2 left op ts _ complaints right rest h ih =>
    have := operand.length_rest_le ‹_›
    exact ih.mono (by simp only [List.length_cons]; omega) (by simp only [List.length_cons]; omega)
  | case3 left op ts _ complaints cause rest h =>
    have within := operand.consumes ts
    rw [h] at within
    exact Nat.le_trans within (Nat.le_succ _)
  | case4 => trivial
  | case5 => exact Nat.le_refl _

theorem consumes_chain (isOperator : Kind → Bool) (operand : Rule Expr) :
    (chain isOperator operand).Consumes :=
  operand.consumes.bind fun left => advances_chainFrom isOperator operand left

theorem consumes_primary (expression : Rule Expr) : (primary expression).Consumes := by
  intro ts
  cases ts with
  | nil => exact Nat.le_refl _
  | cons t ts =>
    simp only [primary]
    split
    · exact Nat.le_refl _
    · split
      · exact Nat.le_refl _
      · split
        · exact within_of_tail (expression.consumes.advances.bind fun _ =>
            (consumes_expect _ _).advances.bind fun _ => advances_pure _) t ts
        · exact Nat.le_refl _

theorem consumes_unary (operand expression : Rule Expr) : (unary operand expression).Consumes := by
  intro ts
  cases ts with
  | nil => exact consumes_primary expression []
  | cons t ts =>
    simp only [unary]
    split
    · exact within_of_tail (operand.consumes.advances.bind fun _ => advances_pure _) t ts
    · exact consumes_primary expression (t :: ts)

theorem advances_assignTo (equals : Token) (target value : Expr) :
    (assignTo equals target value).Advances := by
  unfold assignTo
  split
  · exact advances_pure _
  · exact (advances_complain _).bind fun _ => advances_pure _

theorem advances_assignmentFrom (value : Rule Expr) (target : Expr) :
    (assignmentFrom value target).Advances := by
  intro ts
  cases ts with
  | nil => exact Nat.le_refl _
  | cons t ts =>
    simp only [assignmentFrom]
    split
    · exact (within_of_tail (value.consumes.advances.bind fun v =>
        advances_assignTo t target v) t ts).mono (Nat.sub_le _ _) (Nat.le_refl _)
    · exact Nat.le_refl _

theorem consumes_assignment (equality value : Rule Expr) :
    (assignment equality value).Consumes :=
  equality.consumes.bind fun target => advances_assignmentFrom value target

theorem length_dropToStart_le (last : Token) (ts : List Token) :
    (dropToStart last ts).length ≤ ts.length := by
  induction ts generalizing last with
  | nil => exact Nat.le_refl _
  | cons t ts ih =>
    simp only [dropToStart]
    split
    · exact Nat.le_refl _
    · exact Nat.le_trans (ih t) (Nat.le_succ _)

theorem length_synchronize_le (ts : List Token) : (synchronize ts).length ≤ ts.length - 1 := by
  cases ts with
  | nil => exact Nat.le_refl _
  | cons t ts => exact length_dropToStart_le t ts

theorem consumes_terminated (expression : Rule Expr) (cause : Cause) :
    (terminated expression cause).Consumes :=
  expression.consumes.bind fun _ => (consumes_expect _ _).advances.bind fun _ => advances_pure _

theorem advances_map {α β : Type} {p : Parser α} (f : α → β) (hp : p.Advances) :
    (f <$> p).Advances :=
  hp.bind fun _ => advances_pure _

theorem consumes_map {α β : Type} {p : Parser α} (f : α → β) (hp : p.Consumes) :
    (f <$> p).Consumes :=
  hp.bind fun _ => advances_pure _

theorem advances_condition (expression : Rule Expr) (opening closing : Cause) :
    (condition expression opening closing).Advances :=
  (consumes_expect _ _).advances.bind fun _ => expression.consumes.advances.bind fun _ =>
    (consumes_expect _ _).advances.bind fun _ => advances_pure _

theorem advances_varDeclaration (expression : Rule Expr) :
    (varDeclaration expression).Advances := by
  refine (consumes_expect _ _).advances.bind fun _ => Advances.bind ?_ fun _ =>
    (consumes_expect _ _).advances.bind fun _ => advances_pure _
  intro ts
  cases ts with
  | nil => exact Nat.le_refl _
  | cons t ts =>
    simp only [varDeclaration.optional]
    split
    · exact (within_of_tail (expression.consumes.advances.bind fun e =>
        advances_pure (some e)) t ts).mono (Nat.sub_le _ _) (Nat.le_refl _)
    · exact Nat.le_refl _

theorem advances_declarations (closes : Kind → Bool) (declaration : Rule (Option Stmt)) :
    (declarations closes declaration).Advances := by
  intro ts
  fun_induction declarations closes declaration ts with
  | case1 => exact Nat.le_refl _
  | case2 => exact Nat.le_refl _
  | case3 t ts _ complaints s rest h ih =>
    have := declaration.length_rest_le ‹_›
    simp only [List.length_cons] at this ⊢
    exact (ih.mono (v := rest.length) (w := ts.length + 1) (by omega) (by omega)).bind
      fun _ _ h => h
  | case4 t ts _ complaints cause rest h =>
    have within := declaration.consumes (t :: ts)
    rw [h] at within
    exact within
  | case5 => trivial

theorem advances_block (declaration : Rule (Option Stmt)) : (block declaration).Advances :=
  (advances_declarations _ _).bind fun _ => (consumes_expect _ _).advances.bind fun _ =>
    advances_pure _

theorem advances_elseFrom (branch : Rule Stmt) (condition : Expr) (yes : Stmt) :
    (elseFrom branch condition yes).Advances := by
  intro ts
  cases ts with
  | nil => exact Nat.le_refl _
  | cons t ts =>
    simp only [elseFrom]
    split
    · exact (within_of_tail (branch.consumes.advances.bind fun no =>
        advances_pure (Stmt.ifElse condition yes no)) t ts).mono (Nat.sub_le _ _) (Nat.le_refl _)
    · exact Nat.le_refl _

theorem advances_conditional (expression : Rule Expr) (branch : Rule Stmt) :
    (conditional expression branch).Advances :=
  (advances_condition _ _ _).bind fun c => branch.consumes.advances.bind fun yes =>
    advances_elseFrom branch c yes

theorem advances_loop (expression : Rule Expr) (body : Rule Stmt) :
    (loop expression body).Advances :=
  (advances_condition _ _ _).bind fun _ => body.consumes.advances.bind fun _ => advances_pure _

theorem consumes_statement (expression : Rule Expr) (inner : Rule Stmt)
    (declaration : Rule (Option Stmt)) : (statement expression inner declaration).Consumes := by
  intro ts
  cases ts with
  | nil => exact consumes_map _ (consumes_terminated _ _) []
  | cons t ts =>
    simp only [statement]
    split
    · exact within_of_tail (advances_map _ (consumes_terminated _ _).advances) t ts
    · split
      · exact within_of_tail (advances_block declaration) t ts
      · split
        · exact within_of_tail (advances_conditional expression inner) t ts
        · split
          · exact within_of_tail (advances_loop expression inner) t ts
          · exact consumes_map _ (consumes_terminated _ _) (t :: ts)

theorem consumes_declared (expression : Rule Expr) (statement : Rule Stmt) :
    (declared expression statement).Consumes := by
  intro ts
  cases ts with
  | nil => exact statement.consumes []
  | cons t ts =>
    simp only [declared]
    split
    · exact within_of_tail (advances_varDeclaration expression) t ts
    · exact statement.consumes (t :: ts)

theorem consumes_recovering {p : Parser Stmt} (hp : p.Consumes) : (recovering p).Consumes := by
  intro ts
  have within := hp ts
  unfold recovering
  split
  next h => rw [h] at within; exact within
  next complaints cause rest h =>
    rw [h] at within
    have := length_synchronize_le rest
    have le : rest.length ≤ ts.length := within
    show (synchronize rest).length ≤ ts.length - 1
    omega
  next => trivial

/-! ### Levels of nesting -/

/-- The rules at which a program nests. -/
structure Grammar where
  unary : Rule Expr
  expression : Rule Expr
  statement : Rule Stmt
  declaration : Rule (Option Stmt)

namespace Grammar

/-- Nothing nests any deeper. -/
def exhausted : Grammar := ⟨.tooDeep, .tooDeep, .tooDeep, .tooDeep⟩

/-- The rules of a level in terms of those one level further in. -/
def extend (inner : Grammar) : Grammar :=
  let unary : Rule Expr := ⟨_, consumes_unary inner.unary inner.expression⟩
  let factor : Rule Expr := ⟨_, consumes_chain isFactor unary⟩
  let term : Rule Expr := ⟨_, consumes_chain isTerm factor⟩
  let comparison : Rule Expr := ⟨_, consumes_chain isComparison term⟩
  let equality : Rule Expr := ⟨_, consumes_chain isEquality comparison⟩
  let expression : Rule Expr := ⟨_, consumes_assignment equality inner.expression⟩
  let statement : Rule Stmt := ⟨_, consumes_statement expression inner.statement inner.declaration⟩
  let declaration : Rule (Option Stmt) :=
    ⟨_, consumes_recovering (consumes_declared expression statement)⟩
  { unary, expression, statement, declaration }

/-- The rules for programs that nest at most this deep. -/
def ofDepth : Nat → Grammar
  | 0 => exhausted
  | depth + 1 => (ofDepth depth).extend

end Grammar

end Lox.Parser
