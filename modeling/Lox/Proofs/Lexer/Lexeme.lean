import Lox.Proofs.Lexer.Marks

/-!
# What a lexeme tells of its token

The lexer finds kind and value of a token in its text alone: the text is a piece that a rule of the
lexical grammar allows, and a text is cut in one way. So tokens with the same lexeme differ at most
in their lines (`Token.Lexical.relocate_eq`).

Lexemes can also be read off a larger text, as long as a blank, a closing parenthesis or nothing
follows them: the lexer, which goes for the longest piece, stops there (`IsLexeme.append_inj`).
-/

namespace Lox

open Lexer

/-! ### Tokens of the lexer -/

/-- The token is that of a lawful piece. -/
def Token.Lexical (t : Token) : Prop := ∃ p : Piece, p.Lawful ∧ p.token? t.line = some t

namespace Token.Lexical

variable {t u : Token}

/-- The tokens of a source are lexical, but for the end token. -/
theorem of_mem {source : String} (mem : t ∈ tokens source) (ne_eof : t.kind ≠ .eof) :
    t.Lexical := by
  obtain ⟨before, p, after, split, token⟩ := exists_piece_of_mem mem ne_eof
  have among : p ∈ pieces source.toList := by simp [split]
  have at_line : p.token? t.line = some t := by rw [(Piece.of_token? token).1, token]
  refine ⟨p, ?_, at_line⟩
  rcases mem_pieces_cases among with lawful | ⟨c, rfl, -⟩ | ⟨body, rfl, -⟩
  · exact lawful
  · cases at_line
  · cases at_line

/-- A mark of the grammar, as a token. -/
theorem mark (text : List Char) (kind : Kind) (known : (text, kind) ∈ marks) (line : Int) :
    Token.Lexical ⟨kind, String.ofList text, line, .nil⟩ :=
  ⟨⟨.mark kind, text⟩, .mark known, rfl⟩

/-- **A lexeme tells its token**, but for the line. -/
theorem relocate_eq (ht : t.Lexical) (hu : u.Lexical) (same : t.lexeme = u.lexeme) (line : Int) :
    t.relocate (fun _ => line) = u.relocate fun _ => line := by
  obtain ⟨p, hp, tp⟩ := ht
  obtain ⟨q, hq, uq⟩ := hu
  have text : p.text = q.text := by
    rw [(Piece.of_token? tp).2, (Piece.of_token? uq).2] at same
    exact String.ofList_injective same
  have piece : p = q := by
    cases split : p.text with
    | nil => exact absurd split hp.text_ne_nil
    | cons c cs =>
      have first : cut c cs = (p, []) := hp.cut_eq split
      have second : cut c cs = (q, []) := hq.cut_eq (text ▸ split)
      exact congrArg Prod.fst (first.symm.trans second)
  have there (v : Token) (pv : p.token? v.line = some v) :
      p.token? line = some (v.relocate fun _ => line) := by
    rw [p.token?_relocate (fun _ => line) v.line, pv, Option.map_some]
  have eq : some (t.relocate fun _ => line) = some (u.relocate fun _ => line) :=
    (there t tp).symm.trans (there u (piece ▸ uq))
  exact Option.some.inj eq

theorem kind_eq (ht : t.Lexical) (hu : u.Lexical) (same : t.lexeme = u.lexeme) : t.kind = u.kind :=
  (congrArg Token.kind (ht.relocate_eq hu same 0) :)

/-- A lexeme that is a mark is that of a token with the mark's kind. -/
theorem kind_of_mark (ht : t.Lexical) (text : List Char) {kind : Kind}
    (known : (text, kind) ∈ marks) (lexeme : t.lexeme = String.ofList text) : t.kind = kind :=
  ht.kind_eq (mark text kind known 0) lexeme

end Token.Lexical

/-! ### Lexemes in a larger text -/

/-- Letters in a row are a word. -/
theorem lawful_of_letters {text : List Char} (nonempty : text ≠ [])
    (letters : text.all isAlpha = true) : Piece.Lawful ⟨.word, text⟩ := by
  obtain ⟨c, cs, rfl⟩ := List.exists_cons_of_ne_nil nonempty
  rw [List.all_cons, Bool.and_eq_true] at letters
  refine .word letters.1 fun d mem => ?_
  rw [isAlphanumeric, List.all_eq_true.1 letters.2 d mem, Bool.true_or]

/-- The text is a piece of source, but no comment. -/
def IsLexeme (text : String) : Prop :=
  ∃ p : Piece, p.Lawful ∧ p.form ≠ .comment ∧ p.text = text.toList

/-- What can follow a lexeme: nothing, a blank, or a closing parenthesis. -/
def Delimits (rest : List Char) : Prop := ∀ c ∈ rest.head?, c = ' ' ∨ c = ')'

theorem delimits_nil : Delimits [] := nofun

theorem delimits_space (rest : List Char) : Delimits (' ' :: rest) := by simp [Delimits]

theorem Token.Lexical.isLexeme {t : Token} (h : t.Lexical) : IsLexeme t.lexeme := by
  obtain ⟨p, lawful, token⟩ := h
  refine ⟨p, lawful, ?_, ?_⟩
  · intro comment
    simp [Piece.token?, comment] at token
  · rw [(Piece.of_token? token).2, String.toList_ofList]

namespace IsLexeme

variable {s t : String} {r q : List Char}

theorem of_letters (nonempty : s.toList ≠ []) (letters : s.toList.all isAlpha = true) :
    IsLexeme s :=
  ⟨⟨.word, s.toList⟩, lawful_of_letters nonempty letters, nofun, rfl⟩

theorem of_mark (text : List Char) (kind : Kind) (known : (text, kind) ∈ marks) :
    IsLexeme (String.ofList text) :=
  ⟨⟨.mark kind, text⟩, .mark known, nofun, String.toList_ofList.symm⟩

/-- The lexer cuts a lexeme off, whatever follows. -/
theorem exists_cut (h : IsLexeme s) : ∃ p c cs, p.text = s.toList ∧ s.toList = c :: cs ∧
    ∀ r, Delimits r → cut c (cs ++ r) = (p, r) := by
  obtain ⟨p, lawful, no_comment, text⟩ := h
  obtain ⟨c, cs, split⟩ := List.exists_cons_of_ne_nil lawful.text_ne_nil
  refine ⟨p, c, cs, text, text ▸ split, fun r delimits => ?_⟩
  refine lawful.cut_append no_comment split fun x follows => ?_
  rcases delimits x follows with rfl | rfl <;> decide

/-- **A lexeme can be told from what follows it.** -/
theorem append_inj (hs : IsLexeme s) (ht : IsLexeme t) (hr : Delimits r) (hq : Delimits q)
    (same : s.toList ++ r = t.toList ++ q) : s = t ∧ r = q := by
  obtain ⟨p, c, cs, ptext, stext, cut_s⟩ := hs.exists_cut
  obtain ⟨p', c', cs', ptext', ttext, cut_t⟩ := ht.exists_cut
  rw [stext, ttext, List.cons_append, List.cons_append] at same
  obtain ⟨rfl, tails⟩ := List.cons.inj same
  have cuts : (p, r) = (p', q) := by rw [← cut_s r hr, ← cut_t q hq, tails]
  obtain ⟨rfl, rfl⟩ := Prod.mk.inj cuts
  exact ⟨String.toList_injective (ptext.symm.trans ptext'), rfl⟩

/-- Only the opening parenthesis itself starts with one. -/
theorem head_ne_paren (h : IsLexeme s) (ne : s ≠ "(") (hr : Delimits r) (tail : List Char) :
    s.toList ++ r ≠ '(' :: tail := by
  intro same
  obtain ⟨p, c, cs, text, split, first⟩ := h.exists_cut
  rw [split, List.cons_append] at same
  obtain ⟨rfl, -⟩ := List.cons.inj same
  have paren : p = ⟨.mark .leftParen, ['(']⟩ := congrArg Prod.fst (first r hr).symm
  rw [paren] at text
  exact ne (String.toList_injective text.symm)

end IsLexeme

end Lox
