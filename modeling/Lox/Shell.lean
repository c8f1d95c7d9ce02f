import Lox.Session
import Lox.Text.Blank

/-!
# The shell

The shell reads lines. A line is a command if it starts with a command's word and goes on with
plain words; anything else is source. Source whose braces are not all closed waits for more lines,
and while it does, only the line that stands for the end of input is a command. Problems of one
entry never end the shell.
-/

namespace Lox

/-- The shell's commands. -/
inductive Command where
  | help | env | exit | endOfInput
  deriving DecidableEq

namespace Command

/-- The word of a command. -/
def word : Command → String
  | help => "help"
  | env => "env"
  | exit => "exit"
  | endOfInput => "EOF"

/-- All commands. -/
def all : List Command := [help, env, exit, endOfInput]

/-- The command with this word. -/
def ofWord? (word : String) : Option Command := all.find? fun c => c.word == word

end Command

/-- What a line means to the shell: a command with its argument, or nothing of the kind, and the
text of the line as it is passed on. -/
structure Entry where
  command : Option (Command × String)
  line : String
  deriving DecidableEq

namespace Entry

/-- The characters of a command's word. -/
def isWordChar (c : Char) : Bool := c.isAlphanum || c == '_'

/-- Splits a line into the command word that it starts with and the rest. -/
def split (line : List Char) : String × List Char :=
  (String.ofList (line.takeWhile isWordChar), Text.strip (line.dropWhile isWordChar))

/-- A line outside an unfinished entry. A question mark in front stands for the help command. -/
def ofFreshLine (text : String) : Entry :=
  let stripped := Text.strip text.toList
  let line := match stripped with
    | '?' :: rest => "help ".toList ++ rest
    | _ => stripped
  let (word, argument) := split line
  match Command.ofWord? word with
  | some command =>
    if (Text.words argument).all Text.isIdentifier then
      ⟨some (command, String.ofList argument), String.ofList line⟩
    else ⟨none, String.ofList line⟩
  | none => ⟨none, String.ofList line⟩

/-- A line after the pending text of an unfinished entry, which is empty if there is none. -/
def ofLine (pending text : String) : Entry :=
  if pending ≠ "" ∧ text ≠ "EOF" then ⟨none, text⟩ else ofFreshLine text

end Entry

/-- The prompt for a new entry. -/
def Shell.primaryPrompt : String := "> "

/-- The prompt for a line of an unfinished entry. -/
def Shell.secondaryPrompt : String := ". "

/-- A shell: its session, the text of the unfinished entry, and the prompt for the next line. -/
structure Shell where
  session : Session
  pending : String := ""
  prompt : String := Shell.primaryPrompt
  deriving DecidableEq

namespace Shell

/-- What the shell says at the start. -/
def intro : String := "Lox interpreter :: Python backend\nType 'help' for more information.\n"

/-- What the help command says. -/
def helpText : String :=
  "Welcome to the Lox interpreter!\n\n"
    ++ "Lox is a small dynamically-typed scripting language. This interpreter supports \n"
    ++ "numbers, strings, booleans and nil, arithmetic and comparison operators, \n"
    ++ "variables with block scope, and if/else, while and print statements.\n\n"
    ++ "Try it out by typing 'var greeting = \"hello\";'. Next, try typing \n"
    ++ "'print greeting + \" world\";'. Type 'env' to list global variables.\n"

/-- An action on a shell. -/
abbrev Action (α : Type) := EStateM Interrupt Shell α

/-- Runs an action on the session. -/
def onSession {α : Type} (action : Session.Action α) : Action α := fun s =>
  match action s.session with
  | .ok a session => .ok a { s with session }
  | .error interrupt session => .error interrupt { s with session }

/-- Runs a console action. -/
def onConsole {α : Type} (action : Interaction α) : Action α :=
  onSession (Session.onConsole action)

/-- Takes a line of source: runs the entry if its braces are closed, and keeps it otherwise. -/
def feed (limits : Limits) (line : String) : Action Unit := do
  let text := (← get).pending ++ line ++ "\n"
  if 0 < Lexer.openBraces text then
    modify fun s => { s with pending := text, prompt := secondaryPrompt }
  else
    modify fun s => { s with pending := "", prompt := primaryPrompt }
    let _ ← onSession (Session.run limits (some text))

/-- Takes a line of source and reports what interrupts it. -/
def source (limits : Limits) (line : String) : Action Unit := fun s =>
  match feed limits line s with
  | .ok () s => .ok () s
  | .error interrupt s => onConsole (Interaction.absorb interrupt) s

/-- Leaves the shell, unless there is an argument. -/
def leave (argument : String) : Action Bool :=
  if argument = "" then pure true
  else do
    onConsole (Interaction.warn ("unrecognized argument to exit: '" ++ argument ++ "'"))
    return false

/-- Carries out a command. Answers whether to leave. -/
def perform (command : Command) (argument : String) : Action Bool :=
  match command with
  | .help => do
    onConsole (Interaction.print helpText)
    return false
  | .env => do
    let chain := (← get).session.workspace.chain
    onConsole (Interaction.print (chain.text ++ "\n"))
    return false
  | .exit => leave argument
  | .endOfInput => do
    onConsole (Interaction.print "\n")
    leave argument

/-- Takes a line. Answers whether to leave. -/
def onLine (limits : Limits) (line : String) : Action Bool := do
  let entry := Entry.ofLine (← get).pending line
  if entry.line = "" then return false
  else match entry.command with
    | some (command, argument) => perform command argument
    | none =>
      source limits entry.line
      return false

/-- Prompts for and takes lines until one of them leaves. The end of the lines counts as a line,
and that line always leaves. -/
def interact (limits : Limits) : List String → Action Unit
  | [] => do
    onConsole (Interaction.print (← get).prompt)
    let _ ← onLine limits Command.endOfInput.word
  | line :: lines => do
    onConsole (Interaction.print (← get).prompt)
    let leaving ← onLine limits line
    if leaving then pure () else interact limits lines

/-- Runs an action of a shell whose console is the current one. -/
def within {α : Type} (s : Shell) (action : Action α) : Interaction α :=
  s.session.within fun session =>
    match action { s with session } with
    | .ok a s => .ok a s.session
    | .error interrupt s => .error interrupt s.session

end Shell

end Lox
