import Lox.Console
import Lox.Eval.Statement
import Lox.Lexer
import Lox.Parser.Program

/-!
# Running a source

A source is scanned, parsed and executed in a chain of scopes. If scanning or parsing finds a
problem, nothing is executed; otherwise the statements are executed in order until one fails. All
problems go to the journal, and the result says whether there were none.
-/

namespace Lox

/-- How far a run may go: how deep programs nest, and how often the body of a loop runs. -/
structure Limits where
  nesting : Nat := 1000
  rounds : Nat := Nat.pow 10 15
  deriving DecidableEq

/-- A chain of scopes and a console: what a run changes. -/
structure Workspace where
  chain : Chain
  console : Console
  deriving DecidableEq

namespace Workspace

/-- Runs a console action. -/
def liftConsole {α : Type} (action : Interaction α) : EStateM Interrupt Workspace α := fun w =>
  match action w.console with
  | .ok a console => .ok a { w with console }
  | .error interrupt console => .error interrupt { w with console }

end Workspace

/-- The statements of a source and the problems found in it without running it. -/
structure Analysis where
  statements : List Stmt
  problems : List Diagnostic
  deriving DecidableEq

/-- Scans and parses a source. -/
def Analysis.ofSource (limits : Limits) (source : String) : Analysis :=
  let parsed := Parsed.ofTokens limits.nesting (Lexer.tokens source)
  ⟨parsed.statements, Lexer.diagnostics source ++ parsed.diagnostics⟩

/-- Reports why execution stopped early. A failure that no parsed program can have goes on its
way. -/
def Halt.conclude : Halt → Interaction Bool
  | .failure cause => do
    if cause.diagnostic.category = .runtime then
      Interaction.report cause.diagnostic
      return false
    else throw (.error cause.diagnostic)
  | .tooDeep => do
    Interaction.report (Diagnostic.tooDeep none)
    return false
  | .outOfFuel => throw .unfinished

/-- Executes statements, printing on the console. -/
def execute (limits : Limits) (statements : List Stmt) :
    EStateM Interrupt Workspace Bool := fun w =>
  match Stmt.executeAll limits.rounds statements limits.nesting ⟨w.chain, w.console.out⟩ with
  | .ok () m => .ok true ⟨m.chain, { w.console with out := m.output }⟩
  | .error halt m =>
    Workspace.liftConsole halt.conclude ⟨m.chain, { w.console with out := m.output }⟩

/-- Scans, parses and executes a source. Answers whether there was no problem. -/
def run (limits : Limits) (source : String) : EStateM Interrupt Workspace Bool := do
  let analysis := Analysis.ofSource limits source
  Workspace.liftConsole (Interaction.reportAll analysis.problems)
  if analysis.problems = [] then execute limits analysis.statements
  else return false

end Lox
