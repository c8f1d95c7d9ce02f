import Lox.CommandLine.Options
import Lox.Shell
import Lox.Tree.Text

/-!
# The program

Without a file the program is a shell. With a file it runs the script, or shows its tokens or
trees instead of running it. Its exit status is that of the first problem reported, after all of
them have been.
-/

namespace Lox.CommandLine

/-- The line that tells how the program is called. -/
def usage : String := "usage: pylox [-h] [--tokens] [--ast] [--rpn] [file]\n"

/-- What the help option shows. -/
def helpText : String :=
  usage ++ "\n"
    ++ "positional arguments:\n"
    ++ "  file        file to interpret and run (if empty, goes to command-line mode)\n\n"
    ++ "options:\n"
    ++ "  -h, --help  show this help message and exit\n"
    ++ "  --tokens    print the token stream instead of running\n"
    ++ "  --ast       print each statement's syntax tree instead of running\n"
    ++ "  --rpn       like --ast, but print expressions in reverse Polish notation\n"

/-- What is done with a script. -/
inductive Mode where
  | run | tokens | trees | polish
  deriving DecidableEq

/-- The mode that a request asks for. Tokens win over trees, and Polish notation over plain trees.
-/
def Request.mode (r : Request) : Mode :=
  if r.tokens then .tokens
  else if r.polish then .polish
  else if r.trees then .trees
  else .run

/-- The text of a statement in a listing of trees, if it is not too high. With `polish`, a
statement that is about one expression is shown as that expression. -/
def listing? (limits : Limits) (polish : Bool) (s : Stmt) : Option String :=
  match polish, s.operand? with
  | true, some e => e.rpn? limits.nesting
  | _, _ => s.text? limits.nesting

/-- Prints the statements of a listing, one a line, up to the first that is too high. -/
def printTrees (limits : Limits) (polish : Bool) : List Stmt → Interaction Unit
  | [] => pure ()
  | s :: ss =>
    match listing? limits polish s with
    | none => throw .tooDeep
    | some line => do
      Interaction.print (line ++ "\n")
      printTrees limits polish ss

/-- Runs or shows the script of a session. -/
def process (limits : Limits) : Mode → Session.Action Unit
  | .run => do
    let _ ← Session.run limits
  | .tokens => do
    let ts ← Session.tokens
    Session.onConsole (Interaction.print (String.join (ts.map fun t => t.text ++ "\n")))
  | .trees => do
    let ss ← Session.statements limits
    Session.onConsole (printTrees limits false ss)
  | .polish => do
    let ss ← Session.statements limits
    Session.onConsole (printTrees limits true ss)

/-- Makes problems end the program at once, or lets it go on after them. -/
def setFatal (fatal : Bool) : Interaction Unit :=
  Interaction.onJournal fun j => { j with fatal }

/-- Loads a script and runs or shows it. A script that cannot be loaded ends the program; after
that, it may report all its problems. -/
def script (limits : Limits) (mode : Mode) (path : String) (contents : Option (List UInt8)) :
    Interaction Unit := do
  let s ← Session.openAt path false contents
  setFatal false
  s.within (process limits mode)

/-- Opens the shell and says so. -/
def openShell : Interaction Shell := do
  let session ← Session.openAt commandLinePath true none
  Interaction.print Shell.intro
  return { session }

/-- Runs the shell on lines. Problems in the shell were shown at once and do not count at the end.
-/
def shell (limits : Limits) (lines : List String) : Interaction Unit := do
  let s ← openShell
  s.within (Shell.interact limits lines)
  Interaction.onJournal Journal.reset

/-- The lines of standard input. A newline ends a line, and the last line need not have one. -/
def inputLines (input : String) : List String :=
  let lines := (Text.lines input.toList).map String.ofList
  if lines.getLast? = some "" then lines.dropLast else lines

/-- Carries out an invocation: `contents` are the bytes of the file, if it can be opened, and
`input` is standard input. Answers the exit status. -/
def perform (limits : Limits) (invocation : Invocation) (contents : Option (List UInt8))
    (input : String) : Interaction Int := do
  setFatal true
  match invocation with
  | .help =>
    Interaction.print helpText
    throw (.exit (some 0))
  | .misuse m =>
    Interaction.printError (usage ++ "pylox: error: " ++ m.message ++ "\n")
    throw (.exit (some 2))
  | .request r =>
    Interaction.guarded (match r.file with
      | some path => script limits r.mode path contents
      | none => shell limits (inputLines input))
    return (← get).journal.exitStatus

end Lox.CommandLine
