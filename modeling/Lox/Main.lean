import Lox.CommandLine.Program

/-!
# The command

Reads the file or the lines that an invocation needs, carries it out and prints what it printed.
The shell is fed line by line, so that each answer is seen before the next line is typed.
-/

namespace Lox.CommandLine

/-- Prints what a console has gathered. -/
def flush (c : Console) : IO Unit := do
  let out ← IO.getStdout
  let err ← IO.getStderr
  out.putStr c.out
  out.flush
  err.putStr c.err
  err.flush

/-- The exit status that an interrupt leaves behind. -/
def statusOf : Interrupt → UInt32
  | .exit (some status) => status.toNat.toUInt32
  | .exit none => 0
  | _ => 1

/-- Prompts for and takes lines until one of them leaves. -/
partial def talk (input : IO.FS.Stream) (s : Shell) (journal : Journal) : IO UInt32 := do
  IO.print s.prompt
  (← IO.getStdout).flush
  let line ← input.getLine
  let text := if line.isEmpty then Command.endOfInput.word
    else if line.endsWith "\n" then (line.dropEnd 1).toString else line
  let step : Interaction (Bool × Shell) := s.within fun s =>
    match Shell.onLine {} text s with
    | .ok leaving s => .ok (leaving, s) s
    | .error interrupt s => .error interrupt s
  match step { journal } with
  | .ok (leaving, s) c =>
    flush c
    if leaving then return 0 else talk input s c.journal
  | .error interrupt c =>
    flush c
    return statusOf interrupt

/-- The bytes of a file, if it can be opened. -/
def readScript (path : String) : IO (Option (List UInt8)) :=
  try return some (← IO.FS.readBinFile path).toList
  catch _ => return none

/-- Carries out an invocation. -/
def execute (invocation : Invocation) : IO UInt32 := do
  let console : Console := { journal := {} }
  match invocation with
  | .request { file := none, .. } =>
    match openShell console with
    | .ok s c =>
      flush c
      talk (← IO.getStdin) s c.journal
    | .error interrupt c =>
      flush c
      return statusOf interrupt
  | _ =>
    let contents ← match invocation.path? with
      | some path => readScript path
      | none => pure none
    match perform {} invocation contents "" console with
    | .ok status c =>
      flush c
      return status.toNat.toUInt32
    | .error interrupt c =>
      flush c
      return statusOf interrupt

end Lox.CommandLine

/-- The program. -/
def main (arguments : List String) : IO UInt32 :=
  Lox.CommandLine.execute (Lox.CommandLine.Invocation.ofArguments arguments)
