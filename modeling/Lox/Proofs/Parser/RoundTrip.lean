import Lox.Lexer
import Lox.Proofs.Parser.Depth
import Lox.Proofs.Parser.Statement

/-!
# Parsing and writing are inverse

The parser without complaint and the written form of trees are two sides of one relation
(`program_eq_done`): a program is read as some statements exactly if it is a writing of them, the
grammar derives them, and they do not nest too deep. Two laws of the whole parser follow.

* **Soundness** (`Parsed.flatten_of_diagnostics`): a parse without problems has left out no token
  and put none in, and its trees are those of the grammar.
* **Completeness** (`Parsed.ofTokens_of_flatten`): every writing of trees of the grammar is read
  back as these trees, unless the limit on nesting is in the way.
-/

namespace Lox

/-! ### The end token is no part of a tree -/

theorem Stmt.kind_ne_eof {s : Stmt} (h : s.WellFormed) : ∀ y ∈ s.flatten, y.kind ≠ .eof :=
  h.loose.kind_ne_eof

theorem Stmt.kind_ne_eof_all {ss : List Stmt} (h : Stmt.AllWellFormed ss) :
    ∀ y ∈ Stmt.flattenAll ss, y.kind ≠ .eof :=
  h.loose.kind_ne_eof

theorem kind_ne_eof_of_forall₂ {ys : List Symbol} {ts : List Token}
    (h : List.Forall₂ Symbol.Fits ys ts) (ne : ∀ y ∈ ys, y.kind ≠ .eof) :
    ∀ t ∈ ts, t.kind ≠ .eof := by
  induction h with
  | nil => simp
  | cons fits _ ih =>
    obtain ⟨ne_head, ne_tail⟩ := List.forall_mem_cons.1 ne
    exact List.forall_mem_cons.2 ⟨fits.kind_eq ▸ ne_head, ih ne_tail⟩

/-! ### Programs -/

open Lox.Parser

namespace Parsed

/-- **What the parser reads without complaint**, as a relation between tokens and statements. -/
theorem program_eq_done {depth : Nat} {ts rest : List Token} {ss : List Stmt} :
    program depth ts = .done ss rest ↔
      List.Forall₂ Symbol.Fits (Stmt.flattenAll ss) ts ∧ Stmt.AllWellFormed ss
        ∧ Stmt.nestingAll ss ≤ depth ∧ rest = [] := by
  rw [program, declarations_eq_done (Grammar.readsWithin_ofDepth depth).declaration closesRow_never]
  have closed_iff : Closed (fun _ => false) rest ↔ rest = [] := by
    cases rest <;> simp [Closed]
  rw [closed_iff]
  constructor
  · rintro ⟨reads, wellFormed, nesting_le, rfl⟩
    exact ⟨reads_all_iff.1 reads, wellFormed, nesting_le, rfl⟩
  · rintro ⟨fits, wellFormed, nesting_le, rfl⟩
    exact ⟨reads_all_iff.2 fits, wellFormed, nesting_le, rfl⟩

/-- A parse has no problems exactly if its reply has a value and no complaint. -/
theorem diagnostics_ofReply_eq_nil {eof : Token} {r : Reply (List Stmt)} :
    (ofReply eof r).diagnostics = [] ↔ ∃ ss rest, r = .done ss rest := by
  obtain ⟨complaints, outcome⟩ := r
  cases outcome <;> simp [ofReply, diagnostics, Reply.done]

theorem overflow_ofReply_ne_none {eof : Token} {r : Reply (List Stmt)} (h : r.TooDeep) :
    (ofReply eof r).overflow ≠ none := by
  obtain ⟨complaints, outcome⟩ := r
  obtain ⟨rest, rfl⟩ := h
  exact Option.some_ne_none _

/-- The parse of a program that has statements and no problems. -/
theorem ofTokens_eq_iff {depth : Nat} {tokens : List Token} {ss : List Stmt} :
    (ofTokens depth tokens).diagnostics = [] ∧ (ofTokens depth tokens).statements = ss ↔
      List.Forall₂ Symbol.Fits (Stmt.flattenAll ss) (body tokens) ∧ Stmt.AllWellFormed ss
        ∧ Stmt.nestingAll ss ≤ depth := by
  constructor
  · rintro ⟨clean, rfl⟩
    obtain ⟨ss, rest, done⟩ := diagnostics_ofReply_eq_nil.1 clean
    obtain ⟨fits, wellFormed, nesting_le, -⟩ := program_eq_done.1 done
    rw [ofTokens, done]
    exact ⟨fits, wellFormed, nesting_le⟩
  · rintro ⟨fits, wellFormed, nesting_le⟩
    have done := program_eq_done.2 ⟨fits, wellFormed, nesting_le, rfl⟩
    rw [ofTokens, done]
    exact ⟨rfl, rfl⟩

theorem body_append_eof {ts after : List Token} {eof : Token} (h : ∀ t ∈ ts, t.kind ≠ .eof)
    (heof : eof.kind = .eof) : body (ts ++ eof :: after) = ts := by
  rw [body, List.takeWhile_append_of_pos (by simpa using h), List.takeWhile_cons]
  simp [heof]

theorem closing_append_eof {ts after : List Token} {eof : Token} (h : ∀ t ∈ ts, t.kind ≠ .eof)
    (heof : eof.kind = .eof) : closing (ts ++ eof :: after) = eof := by
  have none : ts.find? (fun t => decide (t.kind = .eof)) = none := by
    simpa using h
  rw [closing, List.find?_append, none, List.find?_cons]
  simp [heof]

/-! ### Soundness -/

/-- **Soundness.** A parse without problems accounts for every token before the end: its trees,
written out, are these tokens, and each tree is one that the grammar derives. -/
theorem flatten_of_diagnostics (depth : Nat) (tokens : List Token)
    (clean : (ofTokens depth tokens).diagnostics = []) :
    List.Forall₂ Symbol.Fits (Stmt.flattenAll (ofTokens depth tokens).statements) (body tokens)
      ∧ ∀ s ∈ (ofTokens depth tokens).statements, s.WellFormed := by
  obtain ⟨fits, wellFormed, -⟩ := ofTokens_eq_iff.1 ⟨clean, rfl⟩
  exact ⟨fits, Stmt.allWellFormed_iff.1 wellFormed⟩

/-- A chain on the right of an assignment, in the first branch of the inner conditional. -/
theorem flatten_of_diagnostics_conditional :
    let tokens := Lexer.tokens "if (a) if (b) c = d - e * f; else print g;"
    (ofTokens 9 tokens).diagnostics = [] ∧
      List.Forall₂ Symbol.Fits (Stmt.flattenAll (ofTokens 9 tokens).statements) (body tokens)
      ∧ ∀ s ∈ (ofTokens 9 tokens).statements, s.WellFormed := by
  intro tokens
  have clean : (ofTokens 9 tokens).diagnostics = [] := by decide +kernel
  exact ⟨clean, flatten_of_diagnostics 9 tokens clean⟩

/-! ### Completeness -/

/-- **Completeness.** Statements that the grammar derives, written out with any tokens that fit and
closed by an end token, are read back as they were, unless nesting is over the limit. -/
theorem ofTokens_of_flatten (depth : Nat) (ss : List Stmt) (ts after : List Token) (eof : Token)
    (wellFormed : ∀ s ∈ ss, s.WellFormed)
    (fits : List.Forall₂ Symbol.Fits (Stmt.flattenAll ss) ts) (heof : eof.kind = .eof)
    (within : (ofTokens depth (ts ++ eof :: after)).overflow = none) :
    ofTokens depth (ts ++ eof :: after) =
      { statements := ss, complaints := [], overflow := none, eof } := by
  have all := Stmt.allWellFormed_iff.2 wellFormed
  have ne := kind_ne_eof_of_forall₂ fits (Stmt.kind_ne_eof_all all)
  rw [ofTokens, body_append_eof ne heof, closing_append_eof ne heof] at within ⊢
  -- a limit that is high enough reads the statements, and the given one does not differ from it
  have done : program (max depth (Stmt.nestingAll ss)) ts = .done ss [] :=
    program_eq_done.2 ⟨fits, all, Nat.le_max_right _ _, rfl⟩
  rcases program_below (Nat.le_max_left depth (Stmt.nestingAll ss)) ts with deep | agree
  · exact absurd within (overflow_ofReply_ne_none deep)
  · rw [agree, done]
    rfl

/-- A loop around a conditional with both branches, on two lines, read back at the least limit. -/
theorem ofTokens_of_flatten_loop :
    let a : Token := ⟨.identifier, "a", 1, .nil⟩
    let minus : Token := ⟨.minus, "-", 2, .nil⟩
    let ss : List Stmt :=
      [.loop (.ident a)
        (.ifElse (.ident a) (.expression (.assign a (.unary minus (.ident a)))) (.block []))]
    let ts : List Token :=
      [⟨.kwWhile, "while", 1, .nil⟩, ⟨.leftParen, "(", 1, .nil⟩, a, ⟨.rightParen, ")", 1, .nil⟩,
        ⟨.kwIf, "if", 1, .nil⟩, ⟨.leftParen, "(", 1, .nil⟩, a, ⟨.rightParen, ")", 1, .nil⟩,
        a, ⟨.equal, "=", 1, .nil⟩, minus, a, ⟨.semicolon, ";", 2, .nil⟩,
        ⟨.kwElse, "else", 2, .nil⟩, ⟨.leftBrace, "\x7b", 2, .nil⟩, ⟨.rightBrace, "\x7d", 2, .nil⟩]
    (∀ s ∈ ss, s.WellFormed) ∧ List.Forall₂ Symbol.Fits (Stmt.flattenAll ss) ts
      ∧ (ofTokens 5 (ts ++ [Token.eof 2])).overflow = none
      ∧ ofTokens 5 (ts ++ [Token.eof 2]) =
        { statements := ss, complaints := [], overflow := none, eof := Token.eof 2 } := by
  intro a minus ss ts
  have wellFormed : ∀ s ∈ ss, s.WellFormed := by decide
  have fits : List.Forall₂ Symbol.Fits (Stmt.flattenAll ss) ts := by
    simp [ss, ts, Stmt.flattenAll, Stmt.flatten, Expr.flatten, Expr.flattenCondition]
  have within : (ofTokens 5 (ts ++ [Token.eof 2])).overflow = none := by decide +kernel
  refine ⟨wellFormed, fits, within, ?_⟩
  exact ofTokens_of_flatten 5 ss ts [] (Token.eof 2) wellFormed fits rfl within

end Parsed

end Lox
