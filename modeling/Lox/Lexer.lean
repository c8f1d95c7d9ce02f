import Lox.Diagnostic

/-!
# From source text to tokens

A source is cut from left to right into *pieces*, each the longest beginning of what is left that
has a lexical form: a mark, a number, a string, a word, a comment, a blank, a newline. Two forms
are faulty: a character that begins nothing (`stray`), and a quote that is never closed
(`unclosed`), which takes all that is left. Nothing is lost on the way: the pieces put together
are the source (`flatten_pieces`).

The tokens and the lexical faults are read off the pieces. Each carries the line on which its
piece ends.
-/

namespace Lox.Lexer

/-! ### Characters -/

/-- A decimal digit. -/
def isDigit (c : Char) : Bool := '0' ≤ c && c ≤ '9'

/-- A letter of ASCII or the underscore. -/
def isAlpha (c : Char) : Bool := ('a' ≤ c && c ≤ 'z') || ('A' ≤ c && c ≤ 'Z') || c == '_'

/-- A character that continues a word. -/
def isAlphanumeric (c : Char) : Bool := isAlpha c || isDigit c

/-- A blank that does not end a line. -/
def isBlank (c : Char) : Bool := c == ' ' || c == '\r' || c == '\t'

/-- Marks that stand for themselves whatever follows. -/
def single? : Char → Option Kind
  | '(' => some .leftParen
  | ')' => some .rightParen
  | '\x7b' => some .leftBrace
  | '\x7d' => some .rightBrace
  | ',' => some .comma
  | '.' => some .dot
  | '-' => some .minus
  | '+' => some .plus
  | ';' => some .semicolon
  | '*' => some .star
  | _ => none

/-- Marks that an equals sign extends: the kinds without and with it. -/
def extensible? : Char → Option (Kind × Kind)
  | '!' => some (.bang, .bangEqual)
  | '=' => some (.equal, .equalEqual)
  | '<' => some (.less, .lessEqual)
  | '>' => some (.greater, .greaterEqual)
  | _ => none

/-! ### Pieces -/

/-- The lexical form of a piece of source. -/
inductive Form where
  | mark (kind : Kind)
  | number | string | word
  | comment | blank | newline
  | stray | unclosed
  deriving DecidableEq

/-- A piece of source with its form. -/
structure Piece where
  form : Form
  text : List Char
  deriving DecidableEq

/-- Cuts a number whose first digit is `c`. A point belongs to it only if a digit follows. -/
def cutNumber (c : Char) (cs : List Char) : Piece × List Char :=
  let whole := c :: cs.takeWhile isDigit
  match cs.dropWhile isDigit with
  | '.' :: d :: rest =>
    if isDigit d then
      (⟨.number, whole ++ '.' :: d :: rest.takeWhile isDigit⟩, rest.dropWhile isDigit)
    else (⟨.number, whole⟩, '.' :: d :: rest)
  | rest => (⟨.number, whole⟩, rest)

/-- Cuts a string after its opening quote `c`. -/
def cutString (c : Char) (cs : List Char) : Piece × List Char :=
  match cs.dropWhile (· ≠ '"') with
  | [] => (⟨.unclosed, c :: cs⟩, [])
  | quote :: rest => (⟨.string, c :: cs.takeWhile (· ≠ '"') ++ [quote]⟩, rest)

/-- Cuts the first piece off `c :: cs`. -/
def cut (c : Char) (cs : List Char) : Piece × List Char :=
  match single? c, extensible? c with
  | some kind, _ => (⟨.mark kind, [c]⟩, cs)
  | none, some (plain, extended) =>
    match cs with
    | '=' :: rest => (⟨.mark extended, [c, '=']⟩, rest)
    | _ => (⟨.mark plain, [c]⟩, cs)
  | none, none =>
    if c = '/' then
      match cs with
      | '/' :: rest =>
        (⟨.comment, c :: '/' :: rest.takeWhile (· ≠ '\n')⟩, rest.dropWhile (· ≠ '\n'))
      | _ => (⟨.mark .slash, [c]⟩, cs)
    else if c = '\n' then (⟨.newline, [c]⟩, cs)
    else if isBlank c then (⟨.blank, [c]⟩, cs)
    else if c = '"' then cutString c cs
    else if isDigit c then cutNumber c cs
    else if isAlpha c then
      (⟨.word, c :: cs.takeWhile isAlphanumeric⟩, cs.dropWhile isAlphanumeric)
    else (⟨.stray, [c]⟩, cs)

theorem cutNumber_append (c : Char) (cs : List Char) :
    (cutNumber c cs).1.text ++ (cutNumber c cs).2 = c :: cs := by
  have whole := List.takeWhile_append_dropWhile (p := isDigit) (l := cs)
  unfold cutNumber
  split
  next d rest h =>
    rw [h] at whole
    have fraction := List.takeWhile_append_dropWhile (p := isDigit) (l := rest)
    split <;> simp [whole, fraction]
  next => simp [whole]

theorem cutString_append (c : Char) (cs : List Char) :
    (cutString c cs).1.text ++ (cutString c cs).2 = c :: cs := by
  have whole := List.takeWhile_append_dropWhile (p := (· ≠ '"')) (l := cs)
  unfold cutString
  split
  next => simp
  next quote rest h => rw [h] at whole; simpa using whole

/-- A cut loses nothing. -/
theorem cut_append (c : Char) (cs : List Char) :
    (cut c cs).1.text ++ (cut c cs).2 = c :: cs := by
  unfold cut
  split
  next => simp
  next => split <;> simp
  next =>
    split
    · split <;> simp
    · split
      · simp
      · split
        · simp
        · split
          · exact cutString_append c cs
          · split
            · exact cutNumber_append c cs
            · split <;> simp

/-- A piece is never empty: it starts with the first character. -/
theorem cut_text_ne_nil (c : Char) (cs : List Char) : (cut c cs).1.text ≠ [] := by
  unfold cut cutString cutNumber
  repeat' split
  all_goals simp

theorem length_cut_lt (c : Char) (cs : List Char) : (cut c cs).2.length < (c :: cs).length := by
  have whole := congrArg List.length (cut_append c cs)
  have positive := List.length_pos_iff.2 (cut_text_ne_nil c cs)
  rw [List.length_append] at whole
  omega

/-- Cuts a source into pieces. -/
def pieces : List Char → List Piece
  | [] => []
  | c :: cs => (cut c cs).1 :: pieces (cut c cs).2
termination_by cs => cs.length
decreasing_by exact length_cut_lt c cs

@[simp] theorem pieces_nil : pieces [] = [] := by rw [pieces]

theorem pieces_cons (c : Char) (cs : List Char) :
    pieces (c :: cs) = (cut c cs).1 :: pieces (cut c cs).2 := by rw [pieces]

/-- The pieces put together are the source. -/
theorem flatten_pieces (cs : List Char) : (pieces cs).flatMap Piece.text = cs := by
  fun_induction pieces cs with
  | case1 => rfl
  | case2 c cs ih => rw [List.flatMap_cons, ih, cut_append]

/-! ### Tokens and faults -/

namespace Piece

/-- The number of lines that the piece ends. -/
def newlines (p : Piece) : Nat := p.text.count '\n'

/-- The value of a number's text. -/
def numberValue (text : List Char) : Float :=
  Number.ofDigits (text.takeWhile isDigit) ((text.dropWhile isDigit).drop 1) 0

/-- The token of a piece that ends on the given line, if its form has one. -/
def token? (p : Piece) (line : Int) : Option Token :=
  let lexeme := String.ofList p.text
  match p.form with
  | .mark kind => some ⟨kind, lexeme, line, .nil⟩
  | .number => some ⟨.number, lexeme, line, .num (numberValue p.text)⟩
  | .string => some ⟨.string, lexeme, line, .str (String.ofList (p.text.drop 1).dropLast)⟩
  | .word => some ⟨(keywords.lookup lexeme).getD .identifier, lexeme, line, .nil⟩
  | _ => none

end Piece

/-- What is wrong with a faulty piece. -/
inductive Cause where
  | unexpected (c : Char)
  | unterminated
  deriving DecidableEq

/-- The message for a cause. -/
def Cause.message : Cause → String
  | unexpected c => "Unexpected character '" ++ String.singleton c ++ "'."
  | unterminated => "Unterminated string."

/-- A lexical fault. -/
structure Fault where
  cause : Cause
  line : Int
  deriving DecidableEq

/-- A lexical fault as it is reported: by its line alone. -/
def Fault.diagnostic (f : Fault) : Diagnostic :=
  Diagnostic.atPlace .lexical (some f.line) "" f.cause.message

/-- The fault of a piece that ends on the given line, if its form has one. -/
def Piece.fault? (p : Piece) (line : Int) : Option Fault :=
  match p.form, p.text with
  | .stray, c :: _ => some ⟨.unexpected c, line⟩
  | .unclosed, _ => some ⟨.unterminated, line⟩
  | _, _ => none

/-- The tokens of pieces that start on the given line, closed by the end token. -/
def tokensFrom (line : Int) : List Piece → List Token
  | [] => [Token.eof line]
  | p :: ps => (p.token? (line + p.newlines)).toList ++ tokensFrom (line + p.newlines) ps

/-- The faults of pieces that start on the given line. -/
def faultsFrom (line : Int) : List Piece → List Fault
  | [] => []
  | p :: ps => (p.fault? (line + p.newlines)).toList ++ faultsFrom (line + p.newlines) ps

/-- The tokens of a source. -/
def tokens (source : String) : List Token := tokensFrom 1 (pieces source.toList)

/-- The lexical faults of a source. -/
def faults (source : String) : List Fault := faultsFrom 1 (pieces source.toList)

/-- The lexical faults of a source as they are reported. -/
def diagnostics (source : String) : List Diagnostic := (faults source).map Fault.diagnostic

/-! A point without a digit after it is a token of its own, and a comment ends with its line. -/

example : (tokens "1.5.x//y\n>=").map Token.text =
    ["NUMBER 1.5 1.5", "DOT .", "IDENTIFIER x", "GREATER_EQUAL >=", "EOF "] := by
  decide +kernel

example : (diagnostics "@\n\"a").map Diagnostic.text =
    ["[line 1] Error: Unexpected character '@'.", "[line 2] Error: Unterminated string."] := by
  decide +kernel

/-- There is always an end token. -/
theorem tokens_ne_nil (source : String) : tokens source ≠ [] := by
  suffices ∀ line ps, tokensFrom line ps ≠ [] from this _ _
  intro line ps
  induction ps generalizing line with
  | nil => simp [tokensFrom]
  | cons p ps ih => simp [tokensFrom, ih]

/-- How many braces of a token list are opened and not closed. -/
def braceBalance (ts : List Token) : Int :=
  (ts.countP (·.kind = .leftBrace) : Int) - ts.countP (·.kind = .rightBrace)

/-- How many braces of a source are opened and not closed. Those in strings and comments do not
count. -/
def openBraces (source : String) : Int := braceBalance (tokens source)

end Lox.Lexer
