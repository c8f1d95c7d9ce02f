import Lox.Proofs.Grammar.NearestElse
import Lox.Proofs.Parser.Depth
import Lox.Proofs.Parser.Statement

/-!
# A bad target does not derail the parser

The rules of the parser read the trees of the loose grammar, in which any equality may stand on the
left of an assignment, as they read those of the grammar: all of a tree's tokens are read, what is
returned is the tree with each assignment to no name replaced by its left side (`Expr.kept`), and
there is one complaint for each of them, about its equals sign (`Expr.badEquals`).

The lemmas go by the rules, level by level. What goes one level further in is shorter by a token at
least, so the length of what is written bounds the levels of nesting that it takes up.
-/

namespace Lox

namespace Parser

/-- One complaint about each of these equals signs. -/
def badTargets (signs : List Token) : List Complaint :=
  signs.map fun equals => ⟨.assignmentTarget, some equals⟩

@[simp] theorem badTargets_nil : badTargets [] = [] := rfl

@[simp] theorem badTargets_append (signs others : List Token) :
    badTargets (signs ++ others) = badTargets signs ++ badTargets others := List.map_append

/-! ### Replies with complaints -/

section
variable {α β : Type} {p : Parser α} {f : α → Parser β} {ts mid rest : List Token}
  {cs ds : List Complaint} {a : α} {b : β}

/-- Going on after a value adds complaints behind those made before. -/
theorem bind_eq_of (first : p ts = ⟨cs, .done a mid⟩) (second : f a mid = ⟨ds, .done b rest⟩) :
    (p >>= f) ts = ⟨cs ++ ds, .done b rest⟩ := by
  rw [bind_apply, first]
  show (f a mid).after cs = _
  rw [second]
  rfl

theorem map_eq_of (g : α → β) (first : p ts = ⟨cs, .done a rest⟩) :
    (g <$> p) ts = ⟨cs, .done (g a) rest⟩ := by
  have both := bind_eq_of (f := fun a => pure (g a)) first (pure_apply (g a) rest)
  rwa [List.append_nil] at both

theorem expect_eq_of {kind : Kind} {t : Token} (k : t.kind = kind) (cause : Cause) :
    expect kind cause (t :: rest) = ⟨[], .done t rest⟩ :=
  expect_eq_done.2 ⟨rfl, k⟩

/-- Reading the last token of what gives a value. -/
theorem expect_bind_pure {kind : Kind} {t : Token} (k : t.kind = kind) (cause : Cause) (a : α) :
    (do let _ ← expect kind cause; return a : Parser α) (t :: rest) = ⟨[], .done a rest⟩ :=
  bind_eq_of (expect_eq_of k cause) (pure_apply a rest)

end

/-! ### Expressions -/

/-- The loose grammar derives the expression at this level or tighter, and it is no longer than
this. -/
structure IsLoose (level length : Nat) (e : Expr) : Prop where
  loose : e.Loose
  level_le : level ≤ e.level
  length_le : e.flatten.length ≤ length

theorem IsLoose.mono {m n length : Nat} {e : Expr} (h : IsLoose n length e) (le : m ≤ n) :
    IsLoose m length e :=
  ⟨h.loose, Nat.le_trans le h.level_le, h.length_le⟩

/-- The parser reads the loose expressions of this level that are no longer than this. -/
def ReadsLoose (level length : Nat) (p : Parser Expr) : Prop :=
  ∀ ts e rest, Reads e.flatten ts rest → IsLoose level length e → Stops level rest →
    p ts = ⟨badTargets e.badEquals, .done e.kept rest⟩

section
variable {operand expression value : Rule Expr} {length : Nat}

/-- An expression and a token that does not go on with it. -/
theorem closed_of_loose {α : Type} (f : Expr → α) (h : ReadsLoose 0 length expression.parse)
    {kind : Kind} {cause : Cause} (stop : kind.continues 0 = false) {ts rest : List Token}
    {e : Expr} (reads : Reads (e.flatten ++ [.implied kind]) ts rest) (loose : IsLoose 0 length e) :
    (do let e ← expression.parse; let _ ← expect kind cause; return f e : Parser α) ts
      = ⟨badTargets e.badEquals, .done (f e.kept) rest⟩ := by
  obtain ⟨mid, reads_e, reads_last⟩ := reads_append.1 reads
  obtain ⟨t, mid', rfl, k, rfl⟩ := reads_cons.1 reads_last
  have stops : Stops 0 (t :: mid') := by rw [stops_cons, Symbol.fits_implied.1 k, stop]
  have first := h _ e _ reads_e loose stops
  rw [bind_eq_of first (expect_bind_pure k cause (f e.kept)), List.append_nil]

theorem primary_of_loose (h : ReadsLoose 0 length expression.parse) {ts rest : List Token}
    {e : Expr} (reads : Reads e.flatten ts rest) (loose : IsLoose 6 (length + 1) e) :
    primary expression ts = ⟨badTargets e.badEquals, .done e.kept rest⟩ := by
  obtain ⟨derived, level_le, length_le⟩ := loose
  cases e with
  | literal token =>
    obtain ⟨t, mid, rfl, rfl, rfl⟩ := reads_cons.1 reads
    simp only [primary, isLiteral_iff.2 derived, if_true]
    rfl
  | ident name =>
    obtain ⟨t, mid, rfl, rfl, rfl⟩ := reads_cons.1 reads
    have k : name.kind = .identifier := derived
    simp only [primary, k, isLiteral]
    rfl
  | grouping inner =>
    obtain ⟨t, mid, rfl, k, reads_inner⟩ := reads_cons.1 reads
    rw [Symbol.fits_implied] at k
    have shorter : inner.flatten.length ≤ length := by
      simp only [Expr.flatten, List.length_cons, List.length_append] at length_le
      omega
    simp only [primary, k, isLiteral]
    exact closed_of_loose Expr.grouping h (by rfl) reads_inner ⟨derived, Nat.zero_le _, shorter⟩
  | binary left operator right =>
    exact absurd (Nat.le_trans level_le Expr.level_binary_le) (by decide)
  | unary operator right => exact absurd level_le (by show ¬ 6 ≤ 5; decide)
  | assign name value => exact absurd level_le (by show ¬ 6 ≤ 0; decide)
  | foreign label => exact derived.elim

theorem unary_of_loose (hoperand : ReadsLoose 5 length operand.parse)
    (h : ReadsLoose 0 length expression.parse) :
    ReadsLoose 5 (length + 1) (unary operand expression) := by
  intro ts e rest reads loose _
  by_cases level : 6 ≤ e.level
  · obtain ⟨t, mid, rfl, start⟩ := loose.loose.exists_start reads
    have done := primary_of_loose h reads ⟨loose.loose, level, loose.length_le⟩
    -- the parser for primaries refuses the operators, and this one it has read
    have notUnary : isUnary t.kind = false := by
      by_contra k
      have mem := isUnary_iff.1 (Bool.not_eq_false _ ▸ k)
      simp only [List.mem_cons, List.not_mem_nil, or_false] at mem
      rcases mem with k | k <;> simp [primary, k, isLiteral, Reply.failed] at done
    simp only [unary, notUnary]
    exact done
  · cases e with
    | unary operator right =>
      obtain ⟨t, mid, rfl, rfl, hright⟩ := reads_cons.1 reads
      obtain ⟨kinds, level_le, derived⟩ := loose.loose
      have shorter : right.flatten.length ≤ length := by
        have := loose.length_le
        simp only [Expr.flatten, List.length_cons] at this
        omega
      have done := hoperand mid right rest hright ⟨derived, level_le, shorter⟩
        (stops_of_five_le (Nat.le_refl 5) rest)
      simp only [unary, isUnary_iff.2 kinds, if_true]
      exact map_eq_of (Expr.unary operator) done
    | binary left operator right =>
      exact absurd (Nat.le_trans loose.level_le Expr.level_binary_le) (by decide)
    | assign name value => exact absurd loose.level_le (by show ¬ 5 ≤ 0; decide)
    | grouping | literal | ident | foreign => exact absurd (Nat.le_refl 6) level

/-! ### Chains -/

section
variable {isOperator : Kind → Bool} {level : Nat}

/-- An expression of a chain's level is a chain of at least one operator, or it is tighter. -/
theorem IsLoose.cases (ops : OperatorsAt isOperator level) {e : Expr}
    (loose : IsLoose level length e) :
    IsLoose (level + 1) length e ∨
      ∃ left op right, e = .binary left op right ∧ op.kind.infixLevel? = some level
        ∧ IsLoose level length left ∧ IsLoose (level + 1) length right := by
  obtain ⟨derived, level_le, length_le⟩ := loose
  by_cases tight : level + 1 ≤ e.level
  · exact .inl ⟨derived, tight, length_le⟩
  right
  have one_le := ops.one_le
  have le_four := ops.le_four
  have exact_level : e.level = level := by omega
  cases e with
  | binary left op right =>
    simp only [Expr.flatten, List.length_append, List.length_cons] at length_le
    have binding : op.kind.infixLevel?.getD 0 = level := exact_level
    obtain ⟨⟨equal, -⟩ | ⟨n, found, hleft, hright⟩, dleft, dright⟩ := derived
    · -- an assignment is looser than any chain
      rw [equal] at binding
      exact absurd one_le (by rw [← binding]; decide)
    · rw [Option.mem_def.1 found] at binding
      obtain rfl : n = level := binding
      exact ⟨left, op, right, rfl, found, ⟨dleft, hleft, by omega⟩, ⟨dright, hright, by omega⟩⟩
  | assign | unary | grouping | literal | ident | foreign => simp [Expr.level] at exact_level; omega

/-- The loop of a chain comes by every left operand on the way. -/
theorem chain_of_loose (ops : OperatorsAt isOperator level)
    (h : ReadsLoose (level + 1) length operand.parse) {e : Expr} {ts rest : List Token}
    (reads : Reads e.flatten ts rest) (loose : IsLoose level length e)
    (stops : Stops (level + 1) rest) :
    chain isOperator operand ts =
      (chainFrom isOperator operand e.kept rest).after (badTargets e.badEquals) := by
  -- the left operand of a chain is the chain without its last operator
  induction hs : sizeOf e using Nat.strongRecOn generalizing e rest with
  | _ n ih =>
    rcases loose.cases ops with tight | ⟨left, op, right, rfl, binding, hleft, hright⟩
    · refine (bind_apply _ _ _).trans ?_
      rw [h ts e rest reads tight stops]
      rfl
    · obtain ⟨mid, reads_left, reads_op⟩ := reads_append.1 reads
      obtain ⟨t, mid, rfl, rfl, reads_right⟩ := reads_cons.1 reads_op
      have infix_op : op.kind ≠ .equal := by
        intro k
        rw [k] at binding
        cases binding
      rw [ih (sizeOf left) (by rw [← hs]; simp; omega) reads_left hleft
        (stops_operator binding) rfl]
      rw [chainFrom_cons, if_pos ((ops.iff _).2 binding), h mid right rest reads_right hright stops]
      simp only [Expr.kept, Expr.badEquals, if_neg infix_op, List.append_nil, badTargets_append]
      exact Reply.after_after _ _ _

theorem readsLoose_chain (ops : OperatorsAt isOperator level)
    (h : ReadsLoose (level + 1) length operand.parse) :
    ReadsLoose level length (chain isOperator operand) := by
  intro ts e rest reads loose stops
  obtain ⟨tighter, notOp⟩ := (stops_iff ops).1 stops
  have ended : chainFrom isOperator operand e.kept rest = .done e.kept rest := by
    cases rest with
    | nil => rw [chainFrom_nil]
    | cons t rest =>
      have : isOperator t.kind = false := notOp t rfl
      rw [chainFrom_cons, this]
      rfl
  rw [chain_of_loose ops h reads loose tighter, ended, Reply.done, Reply.after, List.append_nil]

end

/-! ### Assignments -/

/-- An expression of no chain or tighter level is an assignment, to a name or to something else. -/
theorem IsLoose.cases_zero {e : Expr} (loose : IsLoose 0 length e) :
    IsLoose 1 length e ∨ (∃ name v, e = .assign name v) ∨
      ∃ target equals v, e = .binary target equals v ∧ equals.kind = .equal := by
  obtain ⟨derived, -, length_le⟩ := loose
  cases e with
  | assign name v => exact .inr (.inl ⟨name, v, rfl⟩)
  | binary left op right =>
    rcases derived.1 with ⟨equal, -⟩ | ⟨n, binding, -⟩
    · exact .inr (.inr ⟨left, op, right, rfl, equal⟩)
    · refine .inl ⟨derived, ?_, length_le⟩
      show 1 ≤ op.kind.infixLevel?.getD 0
      rw [Option.mem_def.1 binding]
      exact (Kind.infixLevel?_bounds binding).1
  | foreign label => exact derived.elim
  | unary | grouping | literal | ident => exact .inl ⟨derived, by simp [Expr.level], length_le⟩

theorem assignTo_of_isName_eq_false {target : Expr} (other : target.isName = false)
    (equals : Token) (v : Expr) (ts : List Token) :
    assignTo equals target v ts = ⟨badTargets [equals], .done target ts⟩ := by
  unfold assignTo
  split
  next name => cases other
  next => rfl

theorem assignment_of_loose (h : ReadsLoose 1 (length + 1) operand.parse)
    (hvalue : ReadsLoose 0 length value.parse) :
    ReadsLoose 0 (length + 1) (assignment operand value) := by
  intro ts e rest reads loose stops
  obtain ⟨stops_one, notEqual⟩ := stops_zero_iff.1 stops
  have length_le := loose.length_le
  rcases loose.cases_zero with tight | ⟨name, v, rfl⟩ | ⟨target, equals, v, rfl, equal⟩
  · have ended : assignmentFrom value e.kept rest = ⟨[], .done e.kept rest⟩ := by
      cases rest with
      | nil => rfl
      | cons t rest =>
        simp only [assignmentFrom, if_neg (notEqual t rfl)]
        rfl
    have both := bind_eq_of (h ts e rest reads tight stops_one) ended
    rwa [List.append_nil] at both
  · obtain ⟨t, mid, rfl, rfl, reads_equals⟩ := reads_cons.1 reads
    obtain ⟨equals, mid, rfl, k, reads_v⟩ := reads_cons.1 reads_equals
    obtain ⟨kind, derived⟩ := loose.loose
    simp only [Expr.flatten, List.length_cons] at length_le
    -- the parser for chains reads the name alone, since it stops at the equals sign
    have hname := h (name :: equals :: mid) (.ident name) (equals :: mid) ⟨rfl, rfl⟩
      ⟨kind, by show 1 ≤ 6; decide, Nat.le_add_left _ _⟩
      (by rw [stops_cons, Symbol.fits_implied.1 k]; rfl)
    have hv := hvalue mid v rest reads_v ⟨derived, Nat.zero_le _, by omega⟩ stops
    have went : assignmentFrom value (.ident name) (equals :: mid) =
        ⟨badTargets v.badEquals ++ [], .done (.assign name v.kept) rest⟩ := by
      simp only [assignmentFrom, if_pos (Symbol.fits_implied.1 k)]
      exact bind_eq_of (f := assignTo equals (.ident name)) hv
        (pure_apply (Expr.assign name v.kept) rest)
    rw [List.append_nil] at went
    exact bind_eq_of hname went
  · obtain ⟨mid, reads_target, reads_equals⟩ := reads_append.1 reads
    obtain ⟨t, mid', rfl, rfl, reads_v⟩ := reads_cons.1 reads_equals
    obtain ⟨⟨-, level_le, other⟩ | ⟨n, binding, -⟩, dtarget, dv⟩ := loose.loose
    · simp only [Expr.flatten, List.length_append, List.length_cons] at length_le
      have htarget := h ts target (equals :: mid') reads_target ⟨dtarget, level_le, by omega⟩
        (by rw [stops_cons, equal]; rfl)
      have hv := hvalue mid' v rest reads_v ⟨dv, Nat.zero_le _, by omega⟩ stops
      have judged := assignTo_of_isName_eq_false (dtarget.isName_kept level_le other) equals
        v.kept rest
      have went : assignmentFrom value target.kept (equals :: mid') =
          ⟨badTargets v.badEquals ++ badTargets [equals], .done target.kept rest⟩ := by
        simp only [assignmentFrom, if_pos equal]
        exact bind_eq_of (f := assignTo equals target.kept) hv judged
      refine (bind_eq_of htarget went).trans ?_
      simp only [Expr.badEquals, Expr.kept, if_pos equal, badTargets_append, List.append_assoc]
    · rw [equal] at binding
      cases binding

/-! ### One level of nesting -/

theorem readsLoose_extend_expression {inner : Grammar}
    (hunary : ReadsLoose 5 length inner.unary.parse)
    (h : ReadsLoose 0 length inner.expression.parse) :
    ReadsLoose 0 (length + 1) inner.extend.expression.parse := by
  have unary : ReadsLoose 5 (length + 1) inner.extend.unary.parse := by
    rw [Grammar.extend_unary]
    exact unary_of_loose hunary h
  have factor : ReadsLoose 4 (length + 1) inner.factor.parse :=
    readsLoose_chain operatorsAt_factor unary
  have term : ReadsLoose 3 (length + 1) inner.term.parse :=
    readsLoose_chain operatorsAt_term factor
  have comparison : ReadsLoose 2 (length + 1) inner.comparison.parse :=
    readsLoose_chain operatorsAt_comparison term
  have equality : ReadsLoose 1 (length + 1) inner.equality.parse :=
    readsLoose_chain operatorsAt_equality comparison
  rw [Grammar.extend_expression]
  exact assignment_of_loose equality h

end

end Parser

end Lox
