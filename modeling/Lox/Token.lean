import Lox.Value

/-!
# Tokens

The lexical units that the lexer produces and the parser and evaluator consume:

    punctuation  ( ) { } , . - + ; / *
    operator     ! != = == > >= < <=
    number       digits, with a fraction only if a digit follows the point
    string       text between double quotes, which may span lines and has no escapes
    identifier   a letter or underscore, then letters, underscores and digits
    keyword      one of sixteen reserved identifiers

A list of tokens is closed by one of kind `eof`.
-/

namespace Lox

/-- The kind of a token. -/
inductive Kind where
  | leftParen | rightParen | leftBrace | rightBrace
  | comma | dot | minus | plus | semicolon | slash | star
  | bang | bangEqual | equal | equalEqual | greater | greaterEqual | less | lessEqual
  | identifier | string | number
  | kwAnd | kwClass | kwElse | kwFalse | kwFor | kwFun | kwIf | kwNil | kwOr | kwPrint | kwReturn
  | kwSuper | kwThis | kwTrue | kwVar | kwWhile
  | eof
  deriving DecidableEq, Inhabited

namespace Kind

/-- The name of a kind in a token listing. -/
def name : Kind → String
  | leftParen => "LEFT_PAREN"
  | rightParen => "RIGHT_PAREN"
  | leftBrace => "LEFT_BRACE"
  | rightBrace => "RIGHT_BRACE"
  | comma => "COMMA"
  | dot => "DOT"
  | minus => "MINUS"
  | plus => "PLUS"
  | semicolon => "SEMICOLON"
  | slash => "SLASH"
  | star => "STAR"
  | bang => "BANG"
  | bangEqual => "BANG_EQUAL"
  | equal => "EQUAL"
  | equalEqual => "EQUAL_EQUAL"
  | greater => "GREATER"
  | greaterEqual => "GREATER_EQUAL"
  | less => "LESS"
  | lessEqual => "LESS_EQUAL"
  | identifier => "IDENTIFIER"
  | string => "STRING"
  | number => "NUMBER"
  | kwAnd => "AND"
  | kwClass => "CLASS"
  | kwElse => "ELSE"
  | kwFalse => "FALSE"
  | kwFor => "FOR"
  | kwFun => "FUN"
  | kwIf => "IF"
  | kwNil => "NIL"
  | kwOr => "OR"
  | kwPrint => "PRINT"
  | kwReturn => "RETURN"
  | kwSuper => "SUPER"
  | kwThis => "THIS"
  | kwTrue => "TRUE"
  | kwVar => "VAR"
  | kwWhile => "WHILE"
  | eof => "EOF"

/-- All kinds. -/
def all : List Kind :=
  [leftParen, rightParen, leftBrace, rightBrace, comma, dot, minus, plus, semicolon, slash, star,
    bang, bangEqual, equal, equalEqual, greater, greaterEqual, less, lessEqual,
    identifier, string, number,
    kwAnd, kwClass, kwElse, kwFalse, kwFor, kwFun, kwIf, kwNil, kwOr, kwPrint, kwReturn, kwSuper,
    kwThis, kwTrue, kwVar, kwWhile, eof]

/-- No kind is missing from `all`. -/
theorem mem_all (k : Kind) : k ∈ all := by
  cases k <;> decide

/-- The kind with this name. -/
def ofName? (name : String) : Option Kind :=
  all.find? fun k => k.name == name

end Kind

/-- The reserved identifiers. -/
def keywords : List (String × Kind) :=
  [("and", .kwAnd), ("class", .kwClass), ("else", .kwElse), ("false", .kwFalse), ("for", .kwFor),
    ("fun", .kwFun), ("if", .kwIf), ("nil", .kwNil), ("or", .kwOr), ("print", .kwPrint),
    ("return", .kwReturn), ("super", .kwSuper), ("this", .kwThis), ("true", .kwTrue),
    ("var", .kwVar), ("while", .kwWhile)]

/-- A lexical unit: its kind, its text in the source, the line on which it ends, and the value of a
number or string. -/
structure Token where
  kind : Kind
  lexeme : String
  line : Int
  literal : Value := .nil
  deriving DecidableEq, Inhabited

namespace Token

/-- The token that closes a list whose source ends on this line. -/
def eof (line : Int) : Token := ⟨.eof, "", line, .nil⟩

/-- A token in a listing: kind, lexeme and, unless it is nil, literal. -/
def text (t : Token) : String :=
  let head := t.kind.name ++ " " ++ t.lexeme
  match t.literal with
  | .nil => head
  | v => head ++ " " ++ v.literalText

end Token

end Lox
