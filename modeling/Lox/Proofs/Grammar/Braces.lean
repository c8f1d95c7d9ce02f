import Lox.Proofs.Run.Append

/-!
# Braces are balanced

Braces come in pairs in the written form of every statement: as many are closed as are opened, and
never more up to any point (`Stmt.balanced`). So a source without problems opens as many as it
closes (`Analysis.openBraces_of_clean`), and a count of open braces over some lines tells that these
are not a whole program. Only the kinds of the symbols matter for this.
-/

namespace Lox

/-- What a token of this kind adds to the count of open braces. -/
def Kind.brace : Kind → Int
  | .leftBrace => 1
  | .rightBrace => -1
  | _ => 0

/-- The count of open braces over kinds. -/
def Kind.braces : List Kind → Int
  | [] => 0
  | k :: ks => k.brace + braces ks

namespace Kind

theorem braces_append (ks ls : List Kind) : braces (ks ++ ls) = braces ks + braces ls := by
  induction ks with
  | nil => simp [braces]
  | cons k ks ih => rw [List.cons_append, braces, braces, ih, Int.add_assoc]

/-- No brace is closed that is not open, and none is left open. -/
structure Balanced (ks : List Kind) : Prop where
  total : braces ks = 0
  front : ∀ front, front <+: ks → 0 ≤ braces front

namespace Balanced

variable {k : Kind} {ks ls front : List Kind}

theorem nil : Balanced [] where
  total := rfl
  front front h := by rw [List.prefix_nil.1 h]; exact Int.le_refl 0

/-- A kind that is no brace in front. -/
theorem cons (other : k.brace = 0) (h : Balanced ks) : Balanced (k :: ks) where
  total := by rw [braces, other, h.total, Int.add_zero]
  front front start := by
    rcases List.prefix_cons_iff.1 start with rfl | ⟨rest, rfl, within⟩
    · exact Int.le_refl 0
    · have rest_front := h.front rest within
      rw [braces]
      omega

theorem append (h : Balanced ks) (h' : Balanced ls) : Balanced (ks ++ ls) where
  total := by rw [braces_append, h.total, h'.total, Int.add_zero]
  front front start := by
    rcases List.prefix_or_prefix_of_prefix start (List.prefix_append ks ls) with
      within | ⟨rest, rfl⟩
    · exact h.front front within
    · have rest_front := h'.front rest ((List.prefix_append_right_inj ks).1 start)
      rw [braces_append, h.total]
      omega

theorem of_no_braces (none : ∀ k ∈ ks, k.brace = 0) : Balanced ks := by
  induction ks with
  | nil => exact nil
  | cons k ks ih =>
    obtain ⟨here, later⟩ := List.forall_mem_cons.1 none
    exact cons here (ih later)

/-- **Within a pair of braces** one is open. -/
theorem pos_of_front (h : Balanced ks) (start : front <+: ks) :
    0 < braces (.leftBrace :: front) := by
  have front_nonneg := h.front front start
  rw [braces, brace]
  omega

/-- A pair of braces around. -/
theorem enclosed (h : Balanced ks) : Balanced (.leftBrace :: (ks ++ [.rightBrace])) where
  total := by
    rw [braces, braces_append, h.total]
    rfl
  front front start := by
    rcases List.prefix_cons_iff.1 start with rfl | ⟨rest, rfl, behind⟩
    · exact Int.le_refl 0
    rcases List.prefix_concat_iff.1 behind with rfl | within
    · rw [braces, braces_append, h.total]
      exact Int.le_refl 0
    · exact Int.le_of_lt (h.pos_of_front within)

end Balanced

end Kind

namespace Lexer

theorem braceBalance_eq (ts : List Token) :
    braceBalance ts = Kind.braces (ts.map Token.kind) := by
  induction ts with
  | nil => rfl
  | cons t ts ih =>
    rw [List.map_cons, Kind.braces, ← ih, braceBalance, braceBalance, List.countP_cons,
      List.countP_cons]
    obtain ⟨kind, lexeme, line, literal⟩ := t
    cases kind <;> simp [Kind.brace] <;> omega

end Lexer

/-! ### Written forms -/

/-- The kinds of symbols. -/
def Symbol.kinds (ss : List Symbol) : List Kind := ss.map Symbol.kind

/-- A writing of symbols has their kinds. -/
theorem Symbol.map_kind_of_fits {ss : List Symbol} {ts : List Token}
    (fits : List.Forall₂ Fits ss ts) : ts.map Token.kind = kinds ss := by
  induction fits with
  | nil => rfl
  | cons first _ ih => rw [List.map_cons, ih, first.kind_eq, kinds, kinds, List.map_cons]

theorem Symbol.kinds_append (ss rs : List Symbol) : kinds (ss ++ rs) = kinds ss ++ kinds rs :=
  List.map_append

open Lox.Symbol (kinds kinds_append)

/-- An expression has no braces. -/
theorem Expr.no_braces {e : Expr} (h : e.Stratified) : ∀ k ∈ kinds e.flatten, k.brace = 0 := by
  induction e with
  | binary left operator right ihl ihr =>
    obtain ⟨⟨n, infix_level, -⟩, hl, hr⟩ := h
    have operator_kind : operator.kind.brace = 0 := by
      revert infix_level
      cases operator.kind <;> simp [Kind.infixLevel?, Kind.brace]
    rw [flatten, kinds_append]
    exact List.forall_mem_append.2 ⟨ihl hl, List.forall_mem_cons.2 ⟨operator_kind, ihr hr⟩⟩
  | unary operator right ih =>
    obtain ⟨operator_kind, -, hr⟩ := h
    have operator_brace : operator.kind.brace = 0 := by
      revert operator_kind
      cases operator.kind <;> simp [Kind.brace]
    exact List.forall_mem_cons.2 ⟨operator_brace, ih hr⟩
  | grouping inner ih =>
    refine List.forall_mem_cons.2 ⟨rfl, ?_⟩
    change ∀ k ∈ kinds (inner.flatten ++ _), k.brace = 0
    rw [kinds_append]
    exact List.forall_mem_append.2 ⟨ih h, List.forall_mem_singleton.2 rfl⟩
  | literal token =>
    refine List.forall_mem_singleton.2 ?_
    have token_kind : token.kind ∈ [Kind.number, .string, .kwTrue, .kwFalse, .kwNil] := h
    show token.kind.brace = 0
    revert token_kind
    cases token.kind <;> simp [Kind.brace]
  | ident name =>
    refine List.forall_mem_singleton.2 ?_
    show name.kind.brace = 0
    rw [show name.kind = .identifier from h]
    rfl
  | assign name value ih =>
    refine List.forall_mem_cons.2 ⟨?_, List.forall_mem_cons.2 ⟨rfl, ih h.2⟩⟩
    show name.kind.brace = 0
    rw [h.1]
    rfl
  | foreign _ => cases h

theorem Expr.balanced {e : Expr} (h : e.Stratified) : Kind.Balanced (kinds e.flatten) :=
  .of_no_braces (no_braces h)

theorem Expr.balanced_condition {e : Expr} (h : e.Stratified) :
    Kind.Balanced (kinds e.flattenCondition) := by
  refine .cons rfl ?_
  change Kind.Balanced (kinds (e.flatten ++ _))
  rw [kinds_append]
  exact (balanced h).append (.cons rfl .nil)

/-- An expression that a semicolon ends. -/
theorem Expr.balanced_terminated {e : Expr} (h : e.Stratified) :
    Kind.Balanced (kinds (e.flatten ++ [.implied .semicolon])) := by
  rw [kinds_append]
  exact (balanced h).append (.cons rfl .nil)

mutual

/-- **The braces of a statement are balanced.** -/
theorem Stmt.balanced : ∀ {s : Stmt}, s.WellFormed → Kind.Balanced (kinds s.flatten)
  | .expression e, h => Expr.balanced_terminated (e := e) h
  | .print e, h => .cons rfl (Expr.balanced_terminated (e := e) h)
  | .var name none, h => by
    have name_kind : name.kind = .identifier := h
    exact .cons rfl (.cons (by rw [Symbol.kind, name_kind]; rfl) (.cons rfl .nil))
  | .var name (some e), h => by
    refine .cons rfl (.cons (by rw [Symbol.kind, h.1]; rfl) (.cons rfl ?_))
    exact Expr.balanced_terminated h.2
  | .block body, h => by
    have within : Kind.Balanced (kinds (Stmt.flattenAll body)) := Stmt.balanced_all h
    rw [Stmt.flatten, kinds, List.map_cons, ← kinds, kinds_append]
    exact within.enclosed
  | .ifThen condition yes, h => by
    refine .cons rfl ?_
    rw [← kinds, kinds_append]
    exact (Expr.balanced_condition h.1).append (Stmt.balanced h.2.2)
  | .ifElse condition yes no, h => by
    refine .cons rfl ?_
    rw [← kinds, kinds_append, kinds_append]
    exact (Expr.balanced_condition h.1).append
      ((Stmt.balanced h.2.1.2.2).append (.cons rfl (Stmt.balanced h.2.2.2)))
  | .loop condition body, h => by
    refine .cons rfl ?_
    rw [← kinds, kinds_append]
    exact (Expr.balanced_condition h.1).append (Stmt.balanced h.2.2)

theorem Stmt.balanced_all : ∀ {ss : List Stmt}, Stmt.AllWellFormed ss →
    Kind.Balanced (kinds (Stmt.flattenAll ss))
  | [], _ => .nil
  | s :: ss, h => by
    rw [Stmt.flattenAll, kinds_append]
    exact (Stmt.balanced h.1).append (Stmt.balanced_all h.2)

end

/-! ### Sources -/

/-- The kinds of a source without problems, but for the end, are those of its statements. -/
theorem Analysis.kinds_of_clean {limits : Limits} {source : String}
    (clean : (ofSource limits source).problems = []) :
    (Lexer.tokens source).dropLast.map Token.kind =
        kinds (Stmt.flattenAll (ofSource limits source).statements) ∧
      Stmt.AllWellFormed (ofSource limits source).statements := by
  obtain ⟨-, fits, wellFormed, -⟩ := clean_iff.1 ⟨clean, rfl⟩
  exact ⟨Symbol.map_kind_of_fits fits, wellFormed⟩

/-- **A source without problems** closes the braces that it opens. -/
theorem Analysis.openBraces_of_clean {limits : Limits} {source : String}
    (clean : (ofSource limits source).problems = []) : Lexer.openBraces source = 0 := by
  obtain ⟨kinds_eq, wellFormed⟩ := kinds_of_clean clean
  obtain ⟨ts, -, eq⟩ := Lexer.tokens_eq_append_eof source
  rw [eq, List.dropLast_concat] at kinds_eq
  rw [Lexer.openBraces, Lexer.braceBalance_eq, eq, List.map_append, kinds_eq, Kind.braces_append,
    (Stmt.balanced_all wellFormed).total]
  rfl

end Lox
