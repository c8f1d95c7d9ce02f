import Lox.Journal

/-!
# Talking to the user

A console is a journal and what has been printed on the two output streams. Actions on it may be
cut short by an interrupt: a problem on its way to the journal, a request to exit, or a failure
from outside. The console is kept as it was at that moment.
-/

namespace Lox

/-- A journal and the text printed so far. -/
structure Console where
  journal : Journal
  out : String := ""
  err : String := ""
  deriving DecidableEq

/-- What cuts an action short. -/
inductive Interrupt where
  /-- A problem that is still to be reported. -/
  | error (d : Diagnostic)
  /-- A request to exit with a status. -/
  | exit (status : Option Int)
  /-- The user's request to stop. -/
  | keyboard
  /-- Nesting over the limit. -/
  | tooDeep
  /-- A failure that is none of the language's, with its name. -/
  | crash (name message : String)
  /-- The fuel for a loop was used up: the result is not known. -/
  | unfinished
  deriving DecidableEq

/-- An action on a console. -/
abbrev Interaction (α : Type) := EStateM Interrupt Console α

namespace Interaction

/-- Changes the journal. -/
def onJournal (change : Journal → Journal) : Interaction Unit :=
  modify fun c => { c with journal := change c.journal }

/-- Prints on the output stream. -/
def print (s : String) : Interaction Unit := modify fun c => { c with out := c.out ++ s }

/-- Prints on the error stream. -/
def printError (s : String) : Interaction Unit := modify fun c => { c with err := c.err ++ s }

/-- Records a problem and prints it. With a fatal journal this is the end of the program. -/
def report (d : Diagnostic) (isInternal : Bool := false) : Interaction Unit := do
  onJournal (·.record d)
  let journal := (← get).journal
  if journal.echo then printError (journal.reportText d isInternal)
  if journal.fatal then
    throw (.exit (some (if isInternal then 1 else journal.exitStatus)))

/-- Reports problems in order. -/
def reportAll : List Diagnostic → Interaction Unit
  | [] => pure ()
  | d :: ds => do
    report d
    reportAll ds

/-- Prints a warning, which is not recorded. -/
def warn (message : String) (line : Option Int := none) : Interaction Unit := do
  let journal := (← get).journal
  if journal.echo then print (journal.warningText message line)

/-- Turns an interrupt into a report. A request to exit goes on its way, and so does a failure from
outside after it has been reported as internal. -/
def absorb : Interrupt → Interaction Unit
  | .error d => report d
  | .keyboard => report { message := "keyboard interrupt" }
  | .tooDeep => report (Diagnostic.tooDeep none)
  | .crash name message => do
    report { message := "unknown error: '" ++ name ++ ": " ++ message ++ "'" } true
    throw (.crash name message)
  | .exit status => throw (.exit status)
  | .unfinished => throw .unfinished

/-- Runs an action and absorbs its interrupt, if there is one. -/
def guarded (action : Interaction Unit) : Interaction Unit := fun console =>
  match action console with
  | .ok () console => .ok () console
  | .error interrupt console => absorb interrupt console

end Interaction

end Lox
