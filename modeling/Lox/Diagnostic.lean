import Lox.Token
import Lox.Text.Quoted

/-!
# Diagnostics

A problem that is reported to the user: in which stage it arose, what is wrong, and where. The
stages have causes of their own; a diagnostic is what they all turn into when they are reported.
-/

namespace Lox

/-- The stage a problem belongs to. `general` is for problems of no particular stage. -/
inductive Category where
  | general | lexical | grammatical | runtime | io
  deriving DecidableEq, Inhabited

namespace Category

/-- The word for the category in reports. -/
def word : Category → String
  | general => "error"
  | lexical => "lexical"
  | grammatical => "syntax"
  | runtime => "runtime"
  | io => "io"

/-- The name under which a problem of the category is shown with its fields. -/
def label : Category → String
  | general => "LoxError"
  | lexical => "ScanError"
  | grammatical => "ParseError"
  | runtime => "LoxRuntimeError"
  | io => "LoadError"

/-- All categories. -/
def all : List Category := [general, lexical, grammatical, runtime, io]

/-- The category with this word. -/
def ofWord? (word : String) : Option Category :=
  all.find? fun c => c.word == word

/-- The exit status of a program whose first problem is of this category. -/
def exitStatus : Category → Nat
  | lexical | grammatical => 65
  | io => 66
  | runtime => 70
  | general => 1

end Category

/-- A reported problem. -/
structure Diagnostic where
  category : Category := .general
  message : String
  line : Option Int := none
  /-- The place within the line as words: empty, ` at end` or ` at '…'`. -/
  place : String := ""
  /-- The source text that is blamed. -/
  lexeme : Option String := none
  deriving DecidableEq, Inhabited

namespace Diagnostic

/-- The place of a lexeme as words. -/
def placeOf (lexeme : String) : String := " at '" ++ lexeme ++ "'"

/-- A problem located at a token. The closing token has no text to blame. -/
def atToken (category : Category) (token : Token) (message : String) : Diagnostic :=
  if token.kind = .eof then ⟨category, message, some token.line, " at end", none⟩
  else ⟨category, message, some token.line, placeOf token.lexeme, some token.lexeme⟩

@[simp] theorem category_atToken (category : Category) (token : Token) (message : String) :
    (atToken category token message).category = category := by
  unfold atToken
  split <;> rfl

/-- A problem located by line and words. A place that starts as that of a lexeme names the lexeme.
-/
def atPlace (category : Category) (line : Option Int) (place message : String) : Diagnostic :=
  let start := " at '".toList
  let lexeme := if start.isPrefixOf place.toList
    then some (String.ofList (place.toList.drop start.length).dropLast) else none
  ⟨category, message, line, place, lexeme⟩

/-- The nesting of a program, or of its execution, went over the limit. -/
def tooDeep (line : Option Int) : Diagnostic :=
  ⟨.general, "maximum recursion depth exceeded", line, "", none⟩

/-- One line that tells line, place and message, or the message alone if there is no line. -/
def text (d : Diagnostic) : String :=
  match d.line with
  | none => d.message
  | some line => "[line " ++ toString line ++ "] Error" ++ d.place ++ ": " ++ d.message

/-- The category's label with message and line. -/
def fields (d : Diagnostic) : String :=
  let line := match d.line with
    | none => "None"
    | some line => toString line
  d.category.label ++ "(" ++ Text.quoted d.message ++ ", line=" ++ line ++ ")"

end Diagnostic

end Lox
