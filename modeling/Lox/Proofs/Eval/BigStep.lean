import Lox.Eval.Statement

/-!
# The semantics of programs

What it means to evaluate an expression and to execute a statement, as rules. The rules know no
depth, no rounds and no intermediate results: they relate the state before to the state after and
to how it ended, with a value or with the problem that is reported. They also do without the
functions that the evaluator is made of. What a name is bound to, what an assignment changes and
what an operator does with its operands are relations of their own.

A loop is executed as often as its condition holds, so what does not end has no derivation.
-/

namespace Lox.Semantics

/-! ### Scopes -/

/-- No scope binds the name. -/
def Unbound (name : String) (scopes : List Scope) : Prop := ∀ s ∈ scopes, name ∉ s.names

/-- The first scope that binds the name binds it to the value. -/
inductive Bound (name : String) (v : Value) : List Scope → Prop where
  | here {s : Scope} {outer : List Scope} : (name, v) ∈ s.bindings → Bound name v (s :: outer)
  | further {s : Scope} {outer : List Scope} :
    name ∉ s.names → Bound name v outer → Bound name v (s :: outer)

/-- The scope with the name bound to the value: in its place if it is bound, and otherwise last. -/
inductive Written (name : String) (v : Value) (s s' : Scope) : Prop where
  | old : name ∈ s.names →
    s'.bindings = s.bindings.map (fun b => if b.1 = name then (name, v) else b) →
    Written name v s s'
  | new : name ∉ s.names → s'.bindings = s.bindings ++ [(name, v)] → Written name v s s'

/-- The first scope that binds the name has it bound to the value, the others are as before. -/
inductive Assigned (name : String) (v : Value) : List Scope → List Scope → Prop where
  | here {s s' : Scope} {outer : List Scope} :
    name ∈ s.names → Written name v s s' → Assigned name v (s :: outer) (s' :: outer)
  | further {s : Scope} {outer outer' : List Scope} :
    name ∉ s.names → Assigned name v outer outer' → Assigned name v (s :: outer) (s :: outer')

/-! ### Values and operators -/

/-- All values but nil and false. -/
def Truthy (v : Value) : Prop := v ≠ .nil ∧ v ≠ .bool false

/-- The types of values. -/
inductive Ty where
  | nil | bool | num | str
  deriving DecidableEq

/-- The type of a value. -/
def typeOf : Value → Ty
  | .nil => .nil
  | .bool _ => .bool
  | .num _ => .num
  | .str _ => .str

/-- Whether two values are equal: values of the same type compare as such, and values of different
types are never equal. -/
inductive Compared : Value → Value → Bool → Prop where
  | nil : Compared .nil .nil true
  | bool (a b : Bool) : Compared (.bool a) (.bool b) (decide (a = b))
  | num (x y : Float) : Compared (.num x) (.num y) (x == y)
  | str (a b : String) : Compared (.str a) (.str b) (decide (a = b))
  | mixed {v w : Value} : typeOf v ≠ typeOf w → Compared v w false

/-- A literal and its value. -/
inductive Denotes (token : Token) : Value → Prop where
  | number : token.kind = .number → Denotes token token.literal
  | string : token.kind = .string → Denotes token token.literal
  | true : token.kind = .kwTrue → Denotes token (.bool true)
  | false : token.kind = .kwFalse → Denotes token (.bool false)
  | nil : token.kind = .kwNil → Denotes token .nil

/-- An operator before an operand gives a value. -/
inductive Negates (operator : Token) : Value → Value → Prop where
  | minus (x : Float) : operator.kind = .minus → Negates operator (.num x) (.num (-x))
  | truthy {v : Value} : operator.kind = .bang → Truthy v → Negates operator v (.bool false)
  | falsy {v : Value} : operator.kind = .bang → ¬ Truthy v → Negates operator v (.bool true)

/-- An operator between two operands gives a value. -/
inductive Combines (operator : Token) : Value → Value → Value → Prop where
  | sum (x y : Float) : operator.kind = .plus →
    Combines operator (.num x) (.num y) (.num (x + y))
  | text (a b : String) : operator.kind = .plus →
    Combines operator (.str a) (.str b) (.str (a ++ b))
  | difference (x y : Float) : operator.kind = .minus →
    Combines operator (.num x) (.num y) (.num (x - y))
  | product (x y : Float) : operator.kind = .star →
    Combines operator (.num x) (.num y) (.num (x * y))
  | quotient (x y : Float) : operator.kind = .slash →
    Combines operator (.num x) (.num y) (.num (x / y))
  | greater (x y : Float) : operator.kind = .greater →
    Combines operator (.num x) (.num y) (.bool (x > y))
  | greaterEqual (x y : Float) : operator.kind = .greaterEqual →
    Combines operator (.num x) (.num y) (.bool (x ≥ y))
  | less (x y : Float) : operator.kind = .less →
    Combines operator (.num x) (.num y) (.bool (x < y))
  | lessEqual (x y : Float) : operator.kind = .lessEqual →
    Combines operator (.num x) (.num y) (.bool (x ≤ y))
  | equal {v w : Value} {b : Bool} : operator.kind = .equalEqual → Compared v w b →
    Combines operator v w (.bool b)
  | unequal {v w : Value} {b : Bool} : operator.kind = .bangEqual → Compared v w b →
    Combines operator v w (.bool !b)

/-- The problem of an operator with its operands: where it is, on which line, and what is wrong. -/
def refusal (operator : Token) (message : String) : Diagnostic where
  category := .runtime
  message := message
  line := some operator.line
  place := " at '" ++ operator.lexeme ++ "'"
  lexeme := some operator.lexeme

/-- An operator before an operand of the wrong type. -/
inductive RefusesOne (operator : Token) (v : Value) : Diagnostic → Prop where
  | minus : operator.kind = .minus → typeOf v ≠ .num →
    RefusesOne operator v (refusal operator "Operand must be a number.")

/-- An operator between operands of the wrong types. -/
inductive RefusesTwo (operator : Token) (v w : Value) : Diagnostic → Prop where
  | plus : operator.kind = .plus → ¬ (typeOf v = .num ∧ typeOf w = .num) →
    ¬ (typeOf v = .str ∧ typeOf w = .str) →
    RefusesTwo operator v w (refusal operator "Operands must be two numbers or two strings.")
  | numeric : operator.kind ∈ [Kind.minus, .star, .slash, .greater, .greaterEqual, .less,
      .lessEqual] → ¬ (typeOf v = .num ∧ typeOf w = .num) →
    RefusesTwo operator v w (refusal operator "Operands must be numbers.")

/-- The problem of a name that is bound nowhere. -/
def undefined (name : Token) : Diagnostic where
  category := .runtime
  message := "Undefined variable '" ++ name.lexeme ++ "'."
  line := some name.line
  place := " at '" ++ name.lexeme ++ "'"
  lexeme := some name.lexeme

/-! ### Expressions -/

/-- In a chain of scopes an expression evaluates to a value, or fails with a problem, and leaves a
chain of scopes behind. -/
inductive Evaluates : Chain → Expr → Except Diagnostic Value → Chain → Prop where
  | literal {c : Chain} {token : Token} {v : Value} : Denotes token v →
    Evaluates c (.literal token) (.ok v) c
  | grouping {c c' : Chain} {inner : Expr} {o : Except Diagnostic Value} :
    Evaluates c inner o c' → Evaluates c (.grouping inner) o c'
  | ident {c : Chain} {name : Token} {v : Value} : Bound name.lexeme v c.scopes →
    Evaluates c (.ident name) (.ok v) c
  | identUnbound {c : Chain} {name : Token} : Unbound name.lexeme c.scopes →
    Evaluates c (.ident name) (.error (undefined name)) c
  | assign {c c' c'' : Chain} {name : Token} {value : Expr} {v : Value} :
    Evaluates c value (.ok v) c' → Assigned name.lexeme v c'.scopes c''.scopes →
    Evaluates c (.assign name value) (.ok v) c''
  | assignUnbound {c c' : Chain} {name : Token} {value : Expr} {v : Value} :
    Evaluates c value (.ok v) c' → Unbound name.lexeme c'.scopes →
    Evaluates c (.assign name value) (.error (undefined name)) c'
  | assignFails {c c' : Chain} {name : Token} {value : Expr} {d : Diagnostic} :
    Evaluates c value (.error d) c' → Evaluates c (.assign name value) (.error d) c'
  | unary {c c' : Chain} {operator : Token} {right : Expr} {v w : Value} :
    Evaluates c right (.ok v) c' → Negates operator v w →
    Evaluates c (.unary operator right) (.ok w) c'
  | unaryRefused {c c' : Chain} {operator : Token} {right : Expr} {v : Value} {d : Diagnostic} :
    Evaluates c right (.ok v) c' → RefusesOne operator v d →
    Evaluates c (.unary operator right) (.error d) c'
  | unaryFails {c c' : Chain} {operator : Token} {right : Expr} {d : Diagnostic} :
    Evaluates c right (.error d) c' → Evaluates c (.unary operator right) (.error d) c'
  | binary {c c' c'' : Chain} {left right : Expr} {operator : Token} {v w u : Value} :
    Evaluates c left (.ok v) c' → Evaluates c' right (.ok w) c'' → Combines operator v w u →
    Evaluates c (.binary left operator right) (.ok u) c''
  | binaryRefused {c c' c'' : Chain} {left right : Expr} {operator : Token} {v w : Value}
      {d : Diagnostic} :
    Evaluates c left (.ok v) c' → Evaluates c' right (.ok w) c'' → RefusesTwo operator v w d →
    Evaluates c (.binary left operator right) (.error d) c''
  | binaryRightFails {c c' c'' : Chain} {left right : Expr} {operator : Token} {v : Value}
      {d : Diagnostic} :
    Evaluates c left (.ok v) c' → Evaluates c' right (.error d) c'' →
    Evaluates c (.binary left operator right) (.error d) c''
  | binaryLeftFails {c c' : Chain} {left right : Expr} {operator : Token} {d : Diagnostic} :
    Evaluates c left (.error d) c' → Evaluates c (.binary left operator right) (.error d) c'

/-- An expression evaluates in the scopes of a machine, and its output stays. -/
inductive EvaluatesIn (m : Machine) (e : Expr) (o : Except Diagnostic Value) : Machine → Prop where
  | intro {c : Chain} : Evaluates m.chain e o c → EvaluatesIn m e o { m with chain := c }

/-! ### Statements -/

mutual

/-- In a machine a statement ends, normally or with a problem, and leaves a machine behind. -/
inductive Executes : Machine → Stmt → Except Diagnostic Unit → Machine → Prop where
  | expression {m m' : Machine} {e : Expr} {v : Value} : EvaluatesIn m e (.ok v) m' →
    Executes m (.expression e) (.ok ()) m'
  | expressionFails {m m' : Machine} {e : Expr} {d : Diagnostic} :
    EvaluatesIn m e (.error d) m' → Executes m (.expression e) (.error d) m'
  | print {m m' : Machine} {e : Expr} {v : Value} : EvaluatesIn m e (.ok v) m' →
    Executes m (.print e) (.ok ()) { m' with output := m'.output ++ v.text ++ "\n" }
  | printFails {m m' : Machine} {e : Expr} {d : Diagnostic} :
    EvaluatesIn m e (.error d) m' → Executes m (.print e) (.error d) m'
  | var {m : Machine} {name : Token} {inner : Scope} :
    Written name.lexeme .nil m.chain.inner inner →
    Executes m (.var name none) (.ok ()) { m with chain := ⟨inner, m.chain.outer⟩ }
  | varInitialized {m m' : Machine} {name : Token} {e : Expr} {v : Value} {inner : Scope} :
    EvaluatesIn m e (.ok v) m' → Written name.lexeme v m'.chain.inner inner →
    Executes m (.var name (some e)) (.ok ()) { m' with chain := ⟨inner, m'.chain.outer⟩ }
  | varFails {m m' : Machine} {name : Token} {e : Expr} {d : Diagnostic} :
    EvaluatesIn m e (.error d) m' → Executes m (.var name (some e)) (.error d) m'
  | block {m m' : Machine} {body : List Stmt} {o : Except Diagnostic Unit} {c : Chain} :
    ExecutesAll { m with chain := ⟨.empty, m.chain.scopes⟩ } body o m' →
    m'.chain.outer = c.scopes → Executes m (.block body) o { m' with chain := c }
  | ifThen {m m' m'' : Machine} {condition : Expr} {yes : Stmt} {v : Value}
      {o : Except Diagnostic Unit} :
    EvaluatesIn m condition (.ok v) m' → Truthy v → Executes m' yes o m'' →
    Executes m (.ifThen condition yes) o m''
  | ifThenSkips {m m' : Machine} {condition : Expr} {yes : Stmt} {v : Value} :
    EvaluatesIn m condition (.ok v) m' → ¬ Truthy v →
    Executes m (.ifThen condition yes) (.ok ()) m'
  | ifThenFails {m m' : Machine} {condition : Expr} {yes : Stmt} {d : Diagnostic} :
    EvaluatesIn m condition (.error d) m' → Executes m (.ifThen condition yes) (.error d) m'
  | ifElseYes {m m' m'' : Machine} {condition : Expr} {yes no : Stmt} {v : Value}
      {o : Except Diagnostic Unit} :
    EvaluatesIn m condition (.ok v) m' → Truthy v → Executes m' yes o m'' →
    Executes m (.ifElse condition yes no) o m''
  | ifElseNo {m m' m'' : Machine} {condition : Expr} {yes no : Stmt} {v : Value}
      {o : Except Diagnostic Unit} :
    EvaluatesIn m condition (.ok v) m' → ¬ Truthy v → Executes m' no o m'' →
    Executes m (.ifElse condition yes no) o m''
  | ifElseFails {m m' : Machine} {condition : Expr} {yes no : Stmt} {d : Diagnostic} :
    EvaluatesIn m condition (.error d) m' → Executes m (.ifElse condition yes no) (.error d) m'
  | loop {m m' : Machine} {condition : Expr} {body : Stmt} {o : Except Diagnostic Unit} :
    Repeats m condition body o m' → Executes m (.loop condition body) o m'

/-- Statements are executed in order, until one ends with a problem. -/
inductive ExecutesAll : Machine → List Stmt → Except Diagnostic Unit → Machine → Prop where
  | nil {m : Machine} : ExecutesAll m [] (.ok ()) m
  | cons {m m' m'' : Machine} {s : Stmt} {ss : List Stmt} {o : Except Diagnostic Unit} :
    Executes m s (.ok ()) m' → ExecutesAll m' ss o m'' → ExecutesAll m (s :: ss) o m''
  | fails {m m' : Machine} {s : Stmt} {ss : List Stmt} {d : Diagnostic} :
    Executes m s (.error d) m' → ExecutesAll m (s :: ss) (.error d) m'

/-- A body is executed as often as a condition holds, until one of them ends with a problem. -/
inductive Repeats : Machine → Expr → Stmt → Except Diagnostic Unit → Machine → Prop where
  | done {m m' : Machine} {condition : Expr} {body : Stmt} {v : Value} :
    EvaluatesIn m condition (.ok v) m' → ¬ Truthy v → Repeats m condition body (.ok ()) m'
  | again {m m' m'' m''' : Machine} {condition : Expr} {body : Stmt} {v : Value}
      {o : Except Diagnostic Unit} :
    EvaluatesIn m condition (.ok v) m' → Truthy v → Executes m' body (.ok ()) m'' →
    Repeats m'' condition body o m''' → Repeats m condition body o m'''
  | bodyFails {m m' m'' : Machine} {condition : Expr} {body : Stmt} {v : Value} {d : Diagnostic} :
    EvaluatesIn m condition (.ok v) m' → Truthy v → Executes m' body (.error d) m'' →
    Repeats m condition body (.error d) m''
  | conditionFails {m m' : Machine} {condition : Expr} {body : Stmt} {d : Diagnostic} :
    EvaluatesIn m condition (.error d) m' → Repeats m condition body (.error d) m'

end

end Lox.Semantics
