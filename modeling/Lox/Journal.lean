import Lox.Diagnostic
import Lox.Text.Search
import Lox.Text.Split
import Lox.Text.Style

/-!
# The journal of problems

A journal records the problems of a run in order and decides the exit status from the first of
them. It knows the source of the run, if one is registered, and shows the line of a problem with
the blamed text underlined. Whether it prints, in which style, and whether the first problem ends
the program are settings that change nothing of what it records.
-/

namespace Lox

/-- Settings, the problems recorded since the last reset, and the registered source. -/
structure Journal where
  fatal : Bool := false
  echo : Bool := true
  styled : Bool := false
  errors : List Diagnostic := []
  /-- The path and the text of the source. -/
  source : Option (String × String) := none
  deriving DecidableEq

namespace Journal

/-- Makes a source the one whose lines are shown. -/
def register (j : Journal) (path text : String) : Journal := { j with source := some (path, text) }

/-- Forgets the problems. -/
def reset (j : Journal) : Journal := { j with errors := [] }

/-- Records a problem. -/
def record (j : Journal) (d : Diagnostic) : Journal := { j with errors := j.errors ++ [d] }

/-- Whether a problem is recorded. -/
def hadError (j : Journal) : Bool := !j.errors.isEmpty

/-- The exit status that goes with the recorded problems. The first decides. -/
def exitStatus (j : Journal) : Nat :=
  match j.errors with
  | [] => 0
  | d :: _ => d.category.exitStatus

@[simp] theorem errors_record (j : Journal) (d : Diagnostic) :
    (j.record d).errors = j.errors ++ [d] := rfl

@[simp] theorem errors_reset (j : Journal) : j.reset.errors = [] := rfl

theorem hadError_iff {j : Journal} : j.hadError = true ↔ j.errors ≠ [] := by
  simp [hadError]

theorem exitStatus_eq_zero_iff {j : Journal} : j.exitStatus = 0 ↔ j.errors = [] := by
  unfold exitStatus
  split
  next h => simp [h]
  next d _ h =>
    have : d.category.exitStatus ≠ 0 := by cases d.category <;> decide
    simp [h, this]

/-- Once there is a problem, further ones do not change the exit status. -/
theorem exitStatus_record_of_hadError {j : Journal} (h : j.hadError = true) (d : Diagnostic) :
    (j.record d).exitStatus = j.exitStatus := by
  obtain ⟨first, rest, e⟩ := List.exists_cons_of_ne_nil (hadError_iff.1 h)
  simp [exitStatus, record, e]

/-- The registered line with this number. The first line has number 1. -/
def lineAt? (j : Journal) (number : Int) : Option (List Char) :=
  j.source.bind fun (_, text) =>
    if 0 < number then (Text.lines text.toList)[number.toNat - 1]? else none

/-- A line with `length` characters from column `start` on highlighted and underlined. -/
def underlined (styled : Bool) (line : List Char) (start length : Nat) : String :=
  let mark (cs : List Char) := Text.bold styled (some .red) (String.ofList cs)
  "  " ++ String.ofList (line.take start) ++ mark ((line.drop start).take length)
    ++ String.ofList (line.drop (start + length)) ++ "\n"
    ++ "  " ++ String.ofList (List.replicate start ' ')
    ++ mark ('^' :: List.replicate (length - 1) '~')

/-- The line of a problem with the first occurrence of the blamed text underlined, if there is
one. -/
def diagnose? (j : Journal) (d : Diagnostic) : Option String := do
  let number ← d.line
  let line ← j.lineAt? number
  let lexeme ← d.lexeme
  if lexeme.isEmpty then none
  else
    let start ← Text.occurrence? lexeme.toList line
    return underlined j.styled line start lexeme.length

/-- The line number in front of a report. -/
def lineLabel (j : Journal) : Option Int → String
  | none => ""
  | some line => Text.bold j.styled none ("[line " ++ toString line ++ "] ")

/-- What is printed for a problem. An internal problem is marked as such and not located. -/
def reportText (j : Journal) (d : Diagnostic) (isInternal : Bool) : String :=
  let kind :=
    if isInternal then Text.bold j.styled (some .red) "[internal] "
    else if d.category = .general then ""
    else d.category.word ++ " "
  let head := j.lineLabel d.line ++ kind ++ Text.bold j.styled (some .red) "error"
    ++ d.place ++ ": " ++ d.message ++ "\n"
  match if isInternal then none else j.diagnose? d with
  | none => head
  | some diagnosis => head ++ diagnosis ++ "\n"

/-- What is printed for a warning. -/
def warningText (j : Journal) (message : String) (line : Option Int) : String :=
  j.lineLabel line ++ Text.bold j.styled (some .magenta) "warning: " ++ message ++ "\n"

end Journal

end Lox
