import Lox.Parser.Grammar

/-!
# Parsing a program

The parser sees the tokens before the first end token. It answers with the statements that it
could read and with all its complaints; if the program nests too deep there are no statements, and
the complaints made until then stay.
-/

namespace Lox

open Lox.Parser

/-- What parsing a token list gives. -/
structure Parsed where
  statements : List Stmt
  complaints : List Complaint
  /-- The token at which nesting went over the limit. -/
  overflow : Option Token
  /-- The end token. -/
  eof : Token
  deriving DecidableEq

namespace Parsed

/-- The tokens before the first end token. -/
def body (tokens : List Token) : List Token := tokens.takeWhile (·.kind ≠ .eof)

/-- The first end token. A list without one is closed on the first line. -/
def closing (tokens : List Token) : Token := (tokens.find? (·.kind = .eof)).getD (Token.eof 1)

/-- Reads declarations up to the end, nested at most `depth` deep. -/
def program (depth : Nat) : Parser (List Stmt) :=
  declarations (fun _ => false) (Grammar.ofDepth depth).declaration

/-- What a reply of the whole-program parser means. -/
def ofReply (eof : Token) (reply : Reply (List Stmt)) : Parsed :=
  match reply with
  | ⟨complaints, .done statements _⟩ => ⟨statements, complaints, none, eof⟩
  | ⟨complaints, .failed cause rest⟩ => ⟨[], complaints ++ [⟨cause, rest.head?⟩], none, eof⟩
  | ⟨complaints, .tooDeep rest⟩ => ⟨[], complaints, some (rest.head?.getD eof), eof⟩

/-- Parses a token list, nested at most `depth` deep. -/
def ofTokens (depth : Nat) (tokens : List Token) : Parsed :=
  ofReply (closing tokens) (program depth (body tokens))

/-- The problems as they are reported: the complaints in the order in which they arose, then
nesting. -/
def diagnostics (p : Parsed) : List Diagnostic :=
  p.complaints.map (Complaint.diagnostic p.eof)
    ++ p.overflow.toList.map fun t => Diagnostic.tooDeep (some t.line)

end Parsed

end Lox
