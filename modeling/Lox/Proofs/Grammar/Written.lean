import Mathlib.Data.List.Forall2
import Lox.Tree

/-!
# The written form of a tree

`flatten` writes a tree as the symbols of the grammar: the tokens that the tree keeps, and the
kinds of those that it leaves out (keywords, parentheses, braces, `=`, `;`). A list of tokens is a
writing of the tree if it fits these symbols one by one (`List.Forall₂ Symbol.Fits`).

A parser sees a writing only as the front of what it reads, so the proofs about parsers go by
`Reads`, which carries the tokens left. `reads_iff` ties the two together.
-/

namespace Lox

/-- A symbol of a written form: a token that the tree keeps, or the kind of one that it leaves
out. -/
inductive Symbol where
  | stored (token : Token)
  | implied (kind : Kind)
  deriving DecidableEq

namespace Symbol

/-- The kind of the tokens that a symbol stands for. -/
def kind : Symbol → Kind
  | stored token => token.kind
  | implied kind => kind

/-- A kept token stands for itself, a kind for any token of that kind. -/
def Fits : Symbol → Token → Prop
  | stored token, t => token = t
  | implied kind, t => t.kind = kind

instance (s : Symbol) (t : Token) : Decidable (s.Fits t) :=
  match s with
  | stored token => inferInstanceAs (Decidable (token = t))
  | implied kind => inferInstanceAs (Decidable (t.kind = kind))

@[simp] theorem fits_stored {token t : Token} : (stored token).Fits t ↔ token = t := Iff.rfl

@[simp] theorem fits_implied {kind : Kind} {t : Token} : (implied kind).Fits t ↔ t.kind = kind :=
  Iff.rfl

theorem Fits.kind_eq {s : Symbol} {t : Token} (h : s.Fits t) : t.kind = s.kind := by
  cases s with
  | stored token => rw [← fits_stored.1 h]; rfl
  | implied kind => exact h

end Symbol

/-- The symbols of an expression, from left to right. A node of no grammar has none. -/
def Expr.flatten : Expr → List Symbol
  | .binary left operator right => left.flatten ++ .stored operator :: right.flatten
  | .unary operator right => .stored operator :: right.flatten
  | .grouping inner => .implied .leftParen :: (inner.flatten ++ [.implied .rightParen])
  | .literal token => [.stored token]
  | .ident name => [.stored name]
  | .assign name value => .stored name :: .implied .equal :: value.flatten
  | .foreign _ => []

/-- The symbols of a condition between parentheses. -/
def Expr.flattenCondition (condition : Expr) : List Symbol :=
  .implied .leftParen :: (condition.flatten ++ [.implied .rightParen])

mutual

/-- The symbols of a statement, from left to right. A node of no grammar has none. -/
def Stmt.flatten : Stmt → List Symbol
  | .expression e => e.flatten ++ [.implied .semicolon]
  | .print e => .implied .kwPrint :: (e.flatten ++ [.implied .semicolon])
  | .var name none => [.implied .kwVar, .stored name, .implied .semicolon]
  | .var name (some e) =>
    .implied .kwVar :: .stored name :: .implied .equal :: (e.flatten ++ [.implied .semicolon])
  | .block body => .implied .leftBrace :: (Stmt.flattenAll body ++ [.implied .rightBrace])
  | .ifThen condition yes => .implied .kwIf :: (condition.flattenCondition ++ yes.flatten)
  | .ifElse condition yes no =>
    .implied .kwIf ::
      (condition.flattenCondition ++ (yes.flatten ++ .implied .kwElse :: no.flatten))
  | .loop condition body => .implied .kwWhile :: (condition.flattenCondition ++ body.flatten)
  | .foreign _ => []

/-- The symbols of statements in order. -/
def Stmt.flattenAll : List Stmt → List Symbol
  | [] => []
  | s :: ss => s.flatten ++ Stmt.flattenAll ss

end

theorem Stmt.flattenAll_append (ss rs : List Stmt) :
    Stmt.flattenAll (ss ++ rs) = Stmt.flattenAll ss ++ Stmt.flattenAll rs := by
  induction ss with
  | nil => rfl
  | cons s ss ih => simp only [List.cons_append, flattenAll, ih, List.append_assoc]

/-! ### Reading symbols off the front -/

/-- The front of `ts` is a writing of the symbols, and `rest` is what comes after it. -/
def Reads : List Symbol → List Token → List Token → Prop
  | [], ts, rest => ts = rest
  | _ :: _, [], _ => False
  | s :: ss, t :: ts, rest => s.Fits t ∧ Reads ss ts rest

@[simp] theorem reads_nil {ts rest : List Token} : Reads [] ts rest ↔ ts = rest := Iff.rfl

@[simp] theorem not_reads_nil {s : Symbol} {ss : List Symbol} {rest : List Token} :
    ¬ Reads (s :: ss) [] rest := id

@[simp] theorem reads_cons_cons {s : Symbol} {ss : List Symbol} {t : Token} {ts rest : List Token} :
    Reads (s :: ss) (t :: ts) rest ↔ s.Fits t ∧ Reads ss ts rest := Iff.rfl

theorem reads_cons {s : Symbol} {ss : List Symbol} {ts rest : List Token} :
    Reads (s :: ss) ts rest ↔ ∃ t mid, ts = t :: mid ∧ s.Fits t ∧ Reads ss mid rest := by
  cases ts with
  | nil => simp
  | cons t ts => simp

theorem reads_append {ss rs : List Symbol} {ts rest : List Token} :
    Reads (ss ++ rs) ts rest ↔ ∃ mid, Reads ss ts mid ∧ Reads rs mid rest := by
  induction ss generalizing ts with
  | nil => simp
  | cons s ss ih =>
    cases ts with
    | nil => simp
    | cons t ts =>
      simp only [List.cons_append, reads_cons_cons, ih]
      exact ⟨fun ⟨h, mid, h₁, h₂⟩ => ⟨mid, ⟨h, h₁⟩, h₂⟩, fun ⟨mid, ⟨h, h₁⟩, h₂⟩ => ⟨h, mid, h₁, h₂⟩⟩

/-- Reading symbols is splitting off a writing of them. -/
theorem reads_iff {ss : List Symbol} {ts rest : List Token} :
    Reads ss ts rest ↔ ∃ used, ts = used ++ rest ∧ List.Forall₂ Symbol.Fits ss used := by
  induction ss generalizing ts with
  | nil => simp
  | cons s ss ih =>
    rw [reads_cons]
    constructor
    · rintro ⟨t, mid, rfl, fits, h⟩
      obtain ⟨used, rfl, all⟩ := ih.1 h
      exact ⟨t :: used, rfl, .cons fits all⟩
    · rintro ⟨used, rfl, all⟩
      cases all with
      | cons fits all => exact ⟨_, _, rfl, fits, ih.2 ⟨_, rfl, all⟩⟩

theorem reads_all_iff {ss : List Symbol} {ts : List Token} :
    Reads ss ts [] ↔ List.Forall₂ Symbol.Fits ss ts := by
  simp [reads_iff]

end Lox
