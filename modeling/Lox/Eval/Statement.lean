import Lox.Eval.Expression

/-!
# Executing statements

Statements change a machine: the chain of scopes and the text printed so far. A block runs in a
scope of its own, which is dropped however the block ends. A loop runs as long as its condition
holds; `fuel` bounds the rounds of each loop, so that execution is a total function, and a bound
that was too small is told apart from every answer (`Halt.outOfFuel`).
-/

namespace Lox

/-- What execution changes. -/
structure Machine where
  chain : Chain
  output : String
  deriving DecidableEq, Inhabited

namespace Machine

/-- Evaluates an expression in the machine's scopes. -/
def evaluate (e : Expr) (depth : Nat) : EStateM Halt Machine Value := fun m =>
  match e.evaluate depth m.chain with
  | .ok v chain => .ok v { m with chain }
  | .error halt chain => .error halt { m with chain }

/-- Prints a line. -/
def print (line : String) : EStateM Halt Machine Unit :=
  modify fun m => { m with output := m.output ++ line ++ "\n" }

/-- Binds a name in the innermost scope. -/
def define (name : String) (v : Value) : EStateM Halt Machine Unit :=
  modify fun m => { m with chain := m.chain.define name v }

/-- Runs a block in a new scope and drops the scope. -/
def inBlock (body : EStateM Halt Machine Unit) : EStateM Halt Machine Unit := fun m =>
  match body { m with chain := m.chain.push } with
  | .ok u m => .ok u { m with chain := m.chain.pop }
  | .error halt m => .error halt { m with chain := m.chain.pop }

/-- Runs a body as long as a condition holds, for at most the given number of rounds. -/
def iterate (condition : EStateM Halt Machine Bool) (body : EStateM Halt Machine Unit) :
    (fuel : Nat) → EStateM Halt Machine Unit
  | 0, m => .error .outOfFuel m
  | fuel + 1, m =>
    match condition m with
    | .error halt m => .error halt m
    | .ok false m => .ok () m
    | .ok true m =>
      match body m with
      | .error halt m => .error halt m
      | .ok () m => iterate condition body fuel m

/-- One round of a loop, and the rounds that are left. -/
theorem iterate_succ (condition : EStateM Halt Machine Bool) (body : EStateM Halt Machine Unit)
    (fuel : Nat) :
    iterate condition body (fuel + 1) = condition >>= fun holds =>
      if holds then body >>= fun _ => iterate condition body fuel else pure () := by
  funext m
  show _ = EStateM.bind condition _ m
  rw [iterate, EStateM.bind]
  cases condition m with
  | error halt m => rfl
  | ok holds m =>
    cases holds with
    | false => rfl
    | true =>
      show _ = EStateM.bind body _ m
      rw [EStateM.bind]
      dsimp only
      cases body m <;> rfl

end Machine

mutual

/-- Executes a statement that is at most `depth` high. -/
def Stmt.execute (fuel : Nat) : Stmt → (depth : Nat) → EStateM Halt Machine Unit
  | _, 0 => throw .tooDeep
  | .expression e, depth + 1 => do
    let _ ← Machine.evaluate e depth
  | .print e, depth + 1 => do
    let v ← Machine.evaluate e depth
    Machine.print v.text
  | .var name none, _ + 1 => Machine.define name.lexeme .nil
  | .var name (some e), depth + 1 => do
    let v ← Machine.evaluate e depth
    Machine.define name.lexeme v
  | .block body, depth + 1 => Machine.inBlock (Stmt.executeAll fuel body depth)
  | .ifThen condition yes, depth + 1 => do
    let v ← Machine.evaluate condition depth
    if v.isTruthy then yes.execute fuel depth
  | .ifElse condition yes no, depth + 1 => do
    let v ← Machine.evaluate condition depth
    if v.isTruthy then yes.execute fuel depth else no.execute fuel depth
  | .loop condition body, depth + 1 =>
    Machine.iterate (Value.isTruthy <$> Machine.evaluate condition depth)
      (body.execute fuel depth) fuel
  | .foreign label, _ + 1 => throw (.failure (.foreignStatement label))

/-- Executes statements in order. The first that halts ends the execution. -/
def Stmt.executeAll (fuel : Nat) : List Stmt → (depth : Nat) → EStateM Halt Machine Unit
  | [], _ => pure ()
  | s :: ss, depth => do
    s.execute fuel depth
    Stmt.executeAll fuel ss depth

end

end Lox
