import Lox.Proofs.Grammar.Shape
import Lox.Proofs.Grammar.Written

/-!
# Changing the tokens of a tree

`map` applies a function to every token that a tree keeps. The shape of a tree does not show what
is in its tokens besides their kinds: as long as a function keeps the kinds, it takes trees of the
grammar to trees of the grammar, and writings to writings.
-/

namespace Lox

/-- The tree with another token in the place of each. -/
def Expr.map (f : Token → Token) : Expr → Expr
  | .binary left operator right => .binary (left.map f) (f operator) (right.map f)
  | .unary operator right => .unary (f operator) (right.map f)
  | .grouping inner => .grouping (inner.map f)
  | .literal token => .literal (f token)
  | .ident name => .ident (f name)
  | .assign name value => .assign (f name) (value.map f)
  | .foreign label => .foreign label

mutual

/-- The statement with another token in the place of each. -/
def Stmt.map (f : Token → Token) : Stmt → Stmt
  | .expression e => .expression (e.map f)
  | .print e => .print (e.map f)
  | .var name none => .var (f name) none
  | .var name (some e) => .var (f name) (some (e.map f))
  | .block body => .block (Stmt.mapAll f body)
  | .ifThen condition yes => .ifThen (condition.map f) (yes.map f)
  | .ifElse condition yes no => .ifElse (condition.map f) (yes.map f) (no.map f)
  | .loop condition body => .loop (condition.map f) (body.map f)
  | .foreign label => .foreign label

/-- The statements with another token in the place of each. -/
def Stmt.mapAll (f : Token → Token) : List Stmt → List Stmt
  | [] => []
  | s :: ss => s.map f :: Stmt.mapAll f ss

end

/-- The symbol with another token in the place of the kept one. -/
def Symbol.map (f : Token → Token) : Symbol → Symbol
  | stored token => stored (f token)
  | implied kind => implied kind

/-! ### Written forms -/

variable (f : Token → Token)

theorem Expr.flatten_map (e : Expr) : (e.map f).flatten = e.flatten.map (Symbol.map f) := by
  induction e with
  | binary left operator right ihl ihr =>
    simp only [Expr.map, flatten, ihl, ihr, List.map_append, List.map_cons, Symbol.map]
  | unary operator right ih => simp only [Expr.map, flatten, ih, List.map_cons, Symbol.map]
  | grouping inner ih =>
    simp only [Expr.map, flatten, ih, List.map_append, List.map_cons, List.map_nil, Symbol.map]
  | literal token => rfl
  | ident name => rfl
  | assign name value ih => simp only [Expr.map, flatten, ih, List.map_cons, Symbol.map]
  | foreign label => rfl

theorem Expr.flattenCondition_map (c : Expr) :
    (c.map f).flattenCondition = c.flattenCondition.map (Symbol.map f) :=
  Expr.flatten_map f (.grouping c)

mutual

theorem Stmt.flatten_map : ∀ s : Stmt, (s.map f).flatten = s.flatten.map (Symbol.map f)
  | .expression e => by
    simp only [Stmt.map, Stmt.flatten, e.flatten_map, List.map_append, List.map_cons,
      List.map_nil, Symbol.map]
  | .print e => by
    simp only [Stmt.map, Stmt.flatten, e.flatten_map, List.map_append, List.map_cons,
      List.map_nil, Symbol.map]
  | .var name none => rfl
  | .var name (some e) => by
    simp only [Stmt.map, Stmt.flatten, e.flatten_map, List.map_append, List.map_cons,
      List.map_nil, Symbol.map]
  | .block body => by
    simp only [Stmt.map, Stmt.flatten, Stmt.flattenAll_map body, List.map_append, List.map_cons,
      List.map_nil, Symbol.map]
  | .ifThen c yes => by
    simp only [Stmt.map, Stmt.flatten, c.flattenCondition_map, Stmt.flatten_map yes,
      List.map_append, List.map_cons, Symbol.map]
  | .ifElse c yes no => by
    simp only [Stmt.map, Stmt.flatten, c.flattenCondition_map, Stmt.flatten_map yes,
      Stmt.flatten_map no, List.map_append, List.map_cons, Symbol.map]
  | .loop c body => by
    simp only [Stmt.map, Stmt.flatten, c.flattenCondition_map, Stmt.flatten_map body,
      List.map_append, List.map_cons, Symbol.map]
  | .foreign _ => rfl

theorem Stmt.flattenAll_map :
    ∀ ss : List Stmt, Stmt.flattenAll (Stmt.mapAll f ss) = (Stmt.flattenAll ss).map (Symbol.map f)
  | [] => rfl
  | s :: ss => by
    simp only [Stmt.mapAll, Stmt.flattenAll, Stmt.flatten_map s, Stmt.flattenAll_map ss,
      List.map_append]

end

/-! ### Nesting -/

theorem Expr.nesting_map (e : Expr) : (e.map f).nesting = e.nesting := by
  induction e with
  | binary left operator right ihl ihr => simp only [Expr.map, nesting, ihl, ihr]
  | unary operator right ih => simp only [Expr.map, nesting, ih]
  | grouping inner ih => simp only [Expr.map, nesting, ih]
  | literal | ident | foreign => rfl
  | assign name value ih => simp only [Expr.map, nesting, ih]

mutual

theorem Stmt.nesting_map : ∀ s : Stmt, (s.map f).nesting = s.nesting
  | .expression e | .print e | .var _ (some e) => e.nesting_map f
  | .var _ none | .foreign _ => rfl
  | .block body => congrArg (· + 1) (Stmt.nestingAll_map body)
  | .ifThen c yes => by simp only [Stmt.map, Stmt.nesting, c.nesting_map, Stmt.nesting_map yes]
  | .ifElse c yes no => by
    simp only [Stmt.map, Stmt.nesting, c.nesting_map, Stmt.nesting_map yes, Stmt.nesting_map no]
  | .loop c body => by simp only [Stmt.map, Stmt.nesting, c.nesting_map, Stmt.nesting_map body]

theorem Stmt.nestingAll_map :
    ∀ ss : List Stmt, Stmt.nestingAll (Stmt.mapAll f ss) = Stmt.nestingAll ss
  | [] => rfl
  | s :: ss => by
    simp only [Stmt.mapAll, Stmt.nestingAll, Stmt.nesting_map s, Stmt.nestingAll_map ss]

end

/-! ### Shape -/

theorem Stmt.isVar_map (s : Stmt) : (s.map f).isVar = s.isVar := by
  cases s with
  | var name initializer => cases initializer <;> rfl
  | _ => rfl

theorem Stmt.endsOpen_map : ∀ s : Stmt, (s.map f).endsOpen = s.endsOpen
  | .ifElse _ _ no => Stmt.endsOpen_map no
  | .loop _ body => Stmt.endsOpen_map body
  | .expression _ | .print _ | .var _ none | .var _ (some _) | .block _ | .ifThen _ _
  | .foreign _ => rfl

section Kinds

variable {f} (hf : ∀ t, (f t).kind = t.kind)

include hf

theorem Symbol.Fits.map {s : Symbol} {t : Token} (h : s.Fits t) : (s.map f).Fits (f t) := by
  cases s with
  | stored token => exact congrArg f h
  | implied kind => exact (hf t).trans h

theorem forall₂_fits_map {ss : List Symbol} {ts : List Token} (h : List.Forall₂ Symbol.Fits ss ts) :
    List.Forall₂ Symbol.Fits (ss.map (Symbol.map f)) (ts.map f) := by
  induction h with
  | nil => exact .nil
  | cons fits _ ih => exact .cons (fits.map hf) ih

theorem Expr.level_map (e : Expr) : (e.map f).level = e.level := by
  cases e <;> simp [Expr.map, level, hf]

theorem Expr.Stratified.map {e : Expr} (h : e.Stratified) : (e.map f).Stratified := by
  induction e with
  | binary left operator right ihl ihr =>
    obtain ⟨binding, hleft, hright⟩ := h
    refine ⟨?_, ihl hleft, ihr hright⟩
    rw [hf, Expr.level_map hf, Expr.level_map hf]
    exact binding
  | unary operator right ih =>
    obtain ⟨kinds, tight, hright⟩ := h
    refine ⟨(hf operator).symm ▸ kinds, ?_, ih hright⟩
    rw [Expr.level_map hf]
    exact tight
  | grouping inner ih => exact ih h
  | literal token =>
    show (f token).kind ∈ _
    rw [hf]
    exact h
  | ident name => exact (hf name).trans h
  | assign name value ih => exact ⟨(hf name).trans h.1, ih h.2⟩
  | foreign label => exact h

end Kinds

mutual

theorem Stmt.WellFormed.map {f : Token → Token} (hf : ∀ t, (f t).kind = t.kind) :
    ∀ {s : Stmt}, s.WellFormed → (s.map f).WellFormed
  | .expression _, h => Expr.Stratified.map hf h
  | .print _, h => Expr.Stratified.map hf h
  | .var name none, h => (hf name).trans h
  | .var name (some _), ⟨k, he⟩ => ⟨(hf name).trans k, he.map hf⟩
  | .block _, h => Stmt.AllWellFormed.map hf h
  | .ifThen _ yes, ⟨hc, not_var, hyes⟩ =>
    ⟨hc.map hf, (yes.isVar_map f).trans not_var, hyes.map hf⟩
  | .ifElse _ yes no, ⟨hc, ⟨not_var, closed, hyes⟩, no_not_var, hno⟩ =>
    ⟨hc.map hf,
      ⟨(yes.isVar_map f).trans not_var, (yes.endsOpen_map f).trans closed, hyes.map hf⟩,
      (no.isVar_map f).trans no_not_var, hno.map hf⟩
  | .loop _ body, ⟨hc, not_var, hbody⟩ =>
    ⟨hc.map hf, (body.isVar_map f).trans not_var, hbody.map hf⟩
  | .foreign _, h => h

theorem Stmt.AllWellFormed.map {f : Token → Token} (hf : ∀ t, (f t).kind = t.kind) :
    ∀ {ss : List Stmt}, Stmt.AllWellFormed ss → Stmt.AllWellFormed (Stmt.mapAll f ss)
  | [], _ => trivial
  | _ :: _, ⟨hs, hss⟩ => ⟨hs.map hf, Stmt.AllWellFormed.map hf hss⟩

end

end Lox
