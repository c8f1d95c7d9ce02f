import Lox.Proofs.Grammar.Shape
import Lox.Proofs.Grammar.Written

/-!
# Assignments to any equality

The grammar wants a name on the left of an assignment. The *loose* grammar lets any equality stand
there (`Expr.Loose`, `Stmt.Loose`). In a tree, an assignment to what is not a single name is a
binary node with the equals sign as its operator, so that the written form of such a tree is that of
any other, and the level of the node is that of an assignment.

`kept` is what is left of a tree if each assignment to no name is replaced by its left side, and
`badEquals` are the equals signs of these assignments, each behind those in its value.
-/

namespace Lox

namespace Expr

/-- Whether the expression is a single name. -/
def isName : Expr → Bool
  | ident _ => true
  | _ => false

/-- The loose grammar derives the expression. -/
def Loose : Expr → Prop
  | binary left operator right =>
    ((operator.kind = .equal ∧ 1 ≤ left.level ∧ left.isName = false)
      ∨ ∃ n ∈ operator.kind.infixLevel?, n ≤ left.level ∧ n < right.level)
      ∧ left.Loose ∧ right.Loose
  | unary operator right => operator.kind ∈ [Kind.bang, .minus] ∧ 5 ≤ right.level ∧ right.Loose
  | grouping inner => inner.Loose
  | literal token => token.kind ∈ [Kind.number, .string, .kwTrue, .kwFalse, .kwNil]
  | ident name => name.kind = .identifier
  | assign name value => name.kind = .identifier ∧ value.Loose
  | foreign _ => False

/-- Whether the loose grammar derives an expression can be computed. -/
instance decidableLoose : (e : Expr) → Decidable e.Loose
  | binary left operator right =>
    have := decidableLoose left
    have := decidableLoose right
    inferInstanceAs (Decidable (((operator.kind = .equal ∧ 1 ≤ left.level ∧ left.isName = false)
      ∨ ∃ n ∈ operator.kind.infixLevel?, n ≤ left.level ∧ n < right.level)
      ∧ left.Loose ∧ right.Loose))
  | unary operator right =>
    have := decidableLoose right
    inferInstanceAs (Decidable (operator.kind ∈ [Kind.bang, .minus] ∧ 5 ≤ right.level
      ∧ right.Loose))
  | grouping inner => decidableLoose inner
  | literal token =>
    inferInstanceAs (Decidable (token.kind ∈ [Kind.number, .string, .kwTrue, .kwFalse, .kwNil]))
  | ident name => inferInstanceAs (Decidable (name.kind = .identifier))
  | assign name value =>
    have := decidableLoose value
    inferInstanceAs (Decidable (name.kind = .identifier ∧ value.Loose))
  | foreign _ => inferInstanceAs (Decidable False)

/-- The expression with each assignment to no name replaced by its left side. -/
def kept : Expr → Expr
  | binary left operator right =>
    if operator.kind = .equal then left.kept else .binary left.kept operator right.kept
  | unary operator right => .unary operator right.kept
  | grouping inner => .grouping inner.kept
  | literal token => .literal token
  | ident name => .ident name
  | assign name value => .assign name value.kept
  | foreign label => .foreign label

/-- The equals signs of the assignments to no name. -/
def badEquals : Expr → List Token
  | binary left operator right =>
    left.badEquals ++ right.badEquals ++ if operator.kind = .equal then [operator] else []
  | unary _ right => right.badEquals
  | grouping inner => inner.badEquals
  | literal _ | ident _ | foreign _ => []
  | assign _ value => value.badEquals

theorem Stratified.loose {e : Expr} (h : e.Stratified) : e.Loose := by
  induction e with
  | binary left operator right ihl ihr => exact ⟨.inr h.1, ihl h.2.1, ihr h.2.2⟩
  | unary operator right ih => exact ⟨h.1, h.2.1, ih h.2.2⟩
  | grouping inner ih => exact ih h
  | literal | ident => exact h
  | assign name value ih => exact ⟨h.1, ih h.2⟩
  | foreign => exact h.elim

/-- What binds tighter than an assignment and is not a name is not left as a name. -/
theorem Loose.isName_kept {e : Expr} (h : e.Loose) (level : 1 ≤ e.level)
    (other : e.isName = false) : e.kept.isName = false := by
  cases e with
  | binary left operator right =>
    have infix_op : operator.kind ≠ .equal := by
      intro k
      rw [Expr.level, k] at level
      exact absurd level (by decide)
    rw [kept, if_neg infix_op]
    rfl
  | ident name' => cases other
  | assign => exact absurd level (by show ¬ 1 ≤ 0; decide)
  | unary | grouping | literal => rfl
  | foreign => exact h.elim

theorem flatten_pos {e : Expr} (h : e.Loose) : 1 ≤ e.flatten.length := by
  cases e with
  | foreign => exact h.elim
  | binary left operator right =>
    rw [flatten, List.length_append, List.length_cons]
    omega
  | unary | grouping | literal | ident | assign => simp [flatten]

/-- The loose grammar has no tree with an end token in it. -/
theorem Loose.kind_ne_eof {e : Expr} (h : e.Loose) : ∀ s ∈ e.flatten, s.kind ≠ .eof := by
  induction e with
  | binary left operator right ihl ihr =>
    obtain ⟨joined, hleft, hright⟩ := h
    have ne : operator.kind ≠ .eof := by
      intro k
      rw [k] at joined
      rcases joined with ⟨equal, -⟩ | ⟨n, binding, -⟩
      · cases equal
      · cases binding
    simp only [flatten, List.forall_mem_append, List.forall_mem_cons]
    exact ⟨ihl hleft, ne, ihr hright⟩
  | unary operator right ih =>
    obtain ⟨kinds, -, hright⟩ := h
    have ne : operator.kind ≠ .eof := by
      intro k
      rw [k] at kinds
      revert kinds
      decide
    simp only [flatten, List.forall_mem_cons]
    exact ⟨ne, ih hright⟩
  | grouping inner ih =>
    simp only [flatten, List.forall_mem_cons, List.forall_mem_append]
    exact ⟨by decide, ih h, by simp [Symbol.kind]⟩
  | literal token =>
    have ne : token.kind ≠ .eof := by
      intro k
      rw [Loose, k] at h
      revert h
      decide
    simpa [flatten, Symbol.kind] using ne
  | ident name =>
    have k : name.kind = .identifier := h
    simp [flatten, Symbol.kind, k]
  | assign name value ih =>
    obtain ⟨k, hvalue⟩ := h
    simp only [flatten, List.forall_mem_cons]
    exact ⟨by simp [Symbol.kind, k], by decide, ih hvalue⟩
  | foreign label => exact h.elim

/-- The first token of an expression tells that there is one. -/
theorem Loose.exists_start {e : Expr} {ts rest : List Token} (h : e.Loose)
    (reads : Reads e.flatten ts rest) :
    ∃ t mid, ts = t :: mid ∧ t.kind.startsExpression = true := by
  induction e generalizing rest with
  | binary left operator right ihl ihr =>
    obtain ⟨mid, hleft, -⟩ := reads_append.1 reads
    exact ihl h.2.1 hleft
  | unary operator right ih =>
    obtain ⟨t, mid, rfl, rfl, -⟩ := reads_cons.1 reads
    refine ⟨_, _, rfl, ?_⟩
    have kinds := h.1
    simp only [List.mem_cons, List.not_mem_nil, or_false] at kinds
    rcases kinds with k | k <;> rw [k] <;> rfl
  | grouping inner ih =>
    obtain ⟨t, mid, rfl, k, -⟩ := reads_cons.1 reads
    exact ⟨_, _, rfl, by rw [Symbol.fits_implied.1 k]; rfl⟩
  | literal token =>
    obtain ⟨t, mid, rfl, rfl, -⟩ := reads_cons.1 reads
    refine ⟨_, _, rfl, ?_⟩
    simp only [Loose, List.mem_cons, List.not_mem_nil, or_false] at h
    rcases h with k | k | k | k | k <;> rw [k] <;> rfl
  | ident name =>
    obtain ⟨t, mid, rfl, rfl, -⟩ := reads_cons.1 reads
    exact ⟨_, _, rfl, by rw [show name.kind = .identifier from h]; rfl⟩
  | assign name value ih =>
    obtain ⟨t, mid, rfl, rfl, -⟩ := reads_cons.1 reads
    exact ⟨_, _, rfl, by rw [h.1]; rfl⟩
  | foreign label => exact h.elim

end Expr

namespace Stmt

mutual

/-- The loose grammar derives the statement. Like the grammar as it is written down, it leaves open
to which conditional an `else` belongs. -/
def Loose : Stmt → Prop
  | expression e | print e => e.Loose
  | var name none => name.kind = .identifier
  | var name (some e) => name.kind = .identifier ∧ e.Loose
  | block body => AllLoose body
  | ifThen condition yes => condition.Loose ∧ yes.isVar = false ∧ yes.Loose
  | ifElse condition yes no =>
    condition.Loose ∧ (yes.isVar = false ∧ yes.Loose) ∧ no.isVar = false ∧ no.Loose
  | loop condition body => condition.Loose ∧ body.isVar = false ∧ body.Loose
  | foreign _ => False

/-- The loose grammar derives all the statements. -/
def AllLoose : List Stmt → Prop
  | [] => True
  | s :: ss => s.Loose ∧ AllLoose ss

end

mutual

/-- Whether the loose grammar derives a statement can be computed. -/
instance decidableLoose : (s : Stmt) → Decidable s.Loose
  | expression e | print e => inferInstanceAs (Decidable e.Loose)
  | var name none => inferInstanceAs (Decidable (name.kind = .identifier))
  | var name (some e) => inferInstanceAs (Decidable (name.kind = .identifier ∧ e.Loose))
  | block body => decidableAllLoose body
  | ifThen condition yes =>
    have := decidableLoose yes
    inferInstanceAs (Decidable (condition.Loose ∧ yes.isVar = false ∧ yes.Loose))
  | ifElse condition yes no =>
    have := decidableLoose yes
    have := decidableLoose no
    inferInstanceAs (Decidable (condition.Loose ∧ (yes.isVar = false ∧ yes.Loose)
      ∧ no.isVar = false ∧ no.Loose))
  | loop condition body =>
    have := decidableLoose body
    inferInstanceAs (Decidable (condition.Loose ∧ body.isVar = false ∧ body.Loose))
  | foreign _ => inferInstanceAs (Decidable False)

/-- Whether the loose grammar derives all the statements can be computed. -/
instance decidableAllLoose : (ss : List Stmt) → Decidable (AllLoose ss)
  | [] => inferInstanceAs (Decidable True)
  | s :: ss =>
    have := decidableLoose s
    have := decidableAllLoose ss
    inferInstanceAs (Decidable (s.Loose ∧ AllLoose ss))

end

mutual

/-- The statement with each assignment to no name replaced by its left side. -/
def kept : Stmt → Stmt
  | expression e => .expression e.kept
  | print e => .print e.kept
  | var name none => .var name none
  | var name (some e) => .var name (some e.kept)
  | block body => .block (keptAll body)
  | ifThen condition yes => .ifThen condition.kept yes.kept
  | ifElse condition yes no => .ifElse condition.kept yes.kept no.kept
  | loop condition body => .loop condition.kept body.kept
  | foreign label => .foreign label

/-- The statements with each assignment to no name replaced by its left side. -/
def keptAll : List Stmt → List Stmt
  | [] => []
  | s :: ss => s.kept :: keptAll ss

end

mutual

/-- The equals signs of the assignments to no name. -/
def badEquals : Stmt → List Token
  | expression e | print e => e.badEquals
  | var _ none => []
  | var _ (some e) => e.badEquals
  | block body => badEqualsAll body
  | ifThen condition yes => condition.badEquals ++ yes.badEquals
  | ifElse condition yes no => condition.badEquals ++ (yes.badEquals ++ no.badEquals)
  | loop condition body => condition.badEquals ++ body.badEquals
  | foreign _ => []

/-- The equals signs of the assignments to no name in the statements. -/
def badEqualsAll : List Stmt → List Token
  | [] => []
  | s :: ss => s.badEquals ++ badEqualsAll ss

end

mutual

theorem WellFormed.loose : ∀ {s : Stmt}, s.WellFormed → s.Loose
  | .expression _, h | .print _, h => Expr.Stratified.loose h
  | .var _ none, h => h
  | .var _ (some _), h => ⟨h.1, h.2.loose⟩
  | .block _, h => AllWellFormed.loose h
  | .ifThen _ _, ⟨hc, notVar, hyes⟩ => ⟨hc.loose, notVar, hyes.loose⟩
  | .ifElse _ _ _, ⟨hc, ⟨notVar, _, hyes⟩, notVar', hno⟩ =>
    ⟨hc.loose, ⟨notVar, hyes.loose⟩, notVar', hno.loose⟩
  | .loop _ _, ⟨hc, notVar, hbody⟩ => ⟨hc.loose, notVar, hbody.loose⟩
  | .foreign _, h => h.elim

theorem AllWellFormed.loose : ∀ {ss : List Stmt}, AllWellFormed ss → AllLoose ss
  | [], _ => trivial
  | _ :: _, ⟨hs, hss⟩ => ⟨hs.loose, hss.loose⟩

end

theorem allLoose_iff {ss : List Stmt} : AllLoose ss ↔ ∀ s ∈ ss, s.Loose := by
  induction ss with
  | nil => simp [AllLoose]
  | cons s ss ih => simp [AllLoose, ih]

theorem keptAll_eq_map (ss : List Stmt) : keptAll ss = ss.map kept := by
  induction ss with
  | nil => rfl
  | cons s ss ih => rw [keptAll, ih, List.map_cons]

theorem badEqualsAll_eq_flatMap (ss : List Stmt) : badEqualsAll ss = ss.flatMap badEquals := by
  induction ss with
  | nil => rfl
  | cons s ss ih => rw [badEqualsAll, ih, List.flatMap_cons]

theorem flatten_pos {s : Stmt} (h : s.Loose) : 1 ≤ s.flatten.length := by
  cases s with
  | var name initializer => cases initializer <;> simp [flatten]
  | foreign => exact h.elim
  | expression | print | block | ifThen | ifElse | loop => simp [flatten]

mutual

/-- The loose grammar has no tree with an end token in it. -/
theorem Loose.kind_ne_eof : ∀ {s : Stmt}, s.Loose → ∀ y ∈ s.flatten, y.kind ≠ .eof
  | .expression e, h => by
    simp only [Stmt.flatten, List.forall_mem_append]
    exact ⟨Expr.Loose.kind_ne_eof h, by simp [Symbol.kind]⟩
  | .print e, h => by
    simp only [Stmt.flatten, List.forall_mem_cons, List.forall_mem_append]
    exact ⟨by decide, Expr.Loose.kind_ne_eof h, by simp [Symbol.kind]⟩
  | .var name none, h => by
    have k : name.kind = .identifier := h
    simp [Stmt.flatten, Symbol.kind, k]
  | .var name (some e), h => by
    obtain ⟨k, he⟩ := h
    simp only [Stmt.flatten, List.forall_mem_cons, List.forall_mem_append]
    exact ⟨by decide, by simp [Symbol.kind, k], by decide, he.kind_ne_eof, by simp [Symbol.kind]⟩
  | .block body, h => by
    simp only [Stmt.flatten, List.forall_mem_cons, List.forall_mem_append]
    exact ⟨by decide, AllLoose.kind_ne_eof h, by simp [Symbol.kind]⟩
  | .ifThen c yes, ⟨hc, _, hyes⟩ => by
    simp only [Stmt.flatten, List.forall_mem_cons, List.forall_mem_append]
    exact ⟨by decide, Expr.Loose.kind_ne_eof (e := .grouping c) hc, Loose.kind_ne_eof hyes⟩
  | .ifElse c yes no, ⟨hc, ⟨_, hyes⟩, _, hno⟩ => by
    simp only [Stmt.flatten, List.forall_mem_cons, List.forall_mem_append]
    exact ⟨by decide, Expr.Loose.kind_ne_eof (e := .grouping c) hc, Loose.kind_ne_eof hyes,
      by decide, Loose.kind_ne_eof hno⟩
  | .loop c body, ⟨hc, _, hbody⟩ => by
    simp only [Stmt.flatten, List.forall_mem_cons, List.forall_mem_append]
    exact ⟨by decide, Expr.Loose.kind_ne_eof (e := .grouping c) hc, Loose.kind_ne_eof hbody⟩
  | .foreign _, h => h.elim

theorem AllLoose.kind_ne_eof :
    ∀ {ss : List Stmt}, AllLoose ss → ∀ y ∈ Stmt.flattenAll ss, y.kind ≠ .eof
  | [], _ => by simp [Stmt.flattenAll]
  | s :: ss, ⟨hs, hss⟩ => by
    simp only [Stmt.flattenAll, List.forall_mem_append]
    exact ⟨Loose.kind_ne_eof hs, AllLoose.kind_ne_eof hss⟩

end

end Stmt

end Lox
