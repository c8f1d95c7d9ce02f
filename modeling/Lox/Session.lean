import Lox.Run
import Lox.Text.Utf8

/-!
# Sessions

A session runs sources one after another in one global scope. It belongs to a script file or to
the command line, whose path is a reserved name. Every run starts a fresh record of problems;
looking at the tokens or the statements of a source does not.
-/

namespace Lox

/-- The path of the command line. -/
def commandLinePath : String := "<in>"

/-- A session: the path shown for its sources, the source to run by default, scopes and console. -/
structure Session where
  path : String
  source : String
  workspace : Workspace
  deriving DecidableEq

namespace Session

/-- A problem with loading a script. -/
def loadError (message : String) : Diagnostic := { category := .io, message }

/-- The text of the script at a path, of which `contents` are the bytes if it can be opened. -/
def load (path : String) (contents : Option (List UInt8)) : Interaction String :=
  if path.contains '\x00' then throw (.crash "ValueError" "embedded null byte")
  else match contents with
    | none => throw (.error (loadError ("'" ++ path ++ "' could not be opened")))
    | some bytes => match Text.Utf8.scriptText bytes with
      | .ok text => pure text
      | .error fault => throw (.crash "UnicodeDecodeError" fault.message)

/-- Opens a session. Problems on the command line are never fatal. -/
def openAt (path : String) (onCommandLine : Bool) (contents : Option (List UInt8)) :
    Interaction Session := do
  if onCommandLine then Interaction.onJournal fun j => { j with fatal := false }
  let source ←
    if path ≠ commandLinePath then load path contents
    else if onCommandLine then pure ""
    else throw (.error (loadError ("'" ++ commandLinePath ++ "' is a reserved filename")))
  return { path, source, workspace := ⟨.global, ← get⟩ }

/-- An action on a session. -/
abbrev Action (α : Type) := EStateM Interrupt Session α

/-- Runs an action on the scopes and the console. -/
def onWorkspace {α : Type} (action : EStateM Interrupt Workspace α) : Action α := fun s =>
  match action s.workspace with
  | .ok a workspace => .ok a { s with workspace }
  | .error interrupt workspace => .error interrupt { s with workspace }

/-- Runs a console action. -/
def onConsole {α : Type} (action : Interaction α) : Action α :=
  onWorkspace (Workspace.liftConsole action)

/-- Runs a source, which becomes the session's, or the session's source. -/
def run (limits : Limits) (source : Option String := none) : Action Bool := do
  if let some text := source then modify fun s => { s with source := text }
  let s ← get
  onConsole (Interaction.onJournal fun j => j.reset.register s.path s.source)
  onWorkspace (Lox.run limits s.source)

/-- The tokens of a source, or of the session's source. Lexical problems are reported. -/
def tokens (source : Option String := none) : Action (List Token) := do
  let s ← get
  let text := source.getD s.source
  onConsole (Interaction.onJournal (·.register s.path text))
  onConsole (Interaction.reportAll (Lexer.diagnostics text))
  return Lexer.tokens text

/-- The statements of a source, or of the session's source. All problems found are reported. -/
def statements (limits : Limits) (source : Option String := none) : Action (List Stmt) := do
  let ts ← tokens source
  let parsed := Parsed.ofTokens limits.nesting ts
  onConsole (Interaction.reportAll parsed.diagnostics)
  return parsed.statements

/-- Runs an action of a session whose console is the current one. -/
def within {α : Type} (s : Session) (action : Action α) : Interaction α := fun console =>
  match action { s with workspace := { s.workspace with console } } with
  | .ok a s => .ok a s.workspace.console
  | .error interrupt s => .error interrupt s.workspace.console

end Session

end Lox
