import Lox.Proofs.Grammar.Loose
import Lox.Proofs.Parser.Clean
import Lox.Proofs.Parser.Level

/-!
# Rules of expressions read the expressions of their level

`ReadsLevel level depth p` says of a parser what it answers without complaint: the expressions at
the level or tighter that nest at most `depth` deep, each off the front of the tokens that write
it, and as far as it goes (`Stops`). The statement is an equivalence, so each combinator has one
lemma for soundness and completeness together.

Chains are the exception to the plain structure of the grammar. They are read from left to right
by a loop that carries the tree so far, while the tree itself has its *last* operand at the top.
`chain_eq_chainFrom` runs the loop up to a given left operand, by induction on that operand.
-/

namespace Lox

/-! ### Levels of operators and expressions -/

theorem Kind.infixLevel?_bounds {k : Kind} {n : Nat} (h : k.infixLevel? = some n) :
    1 ≤ n ∧ n ≤ 4 := by
  cases k <;> simp_all [Kind.infixLevel?] <;> omega

theorem Kind.continues_mono {k : Kind} {m n : Nat} (h : m ≤ n) (hk : k.continues n = true) :
    k.continues m = true := by
  unfold Kind.continues at hk ⊢
  split at hk
  · simp only [decide_eq_true_eq] at hk ⊢
    omega
  · simp only [Bool.and_eq_true, decide_eq_true_eq] at hk ⊢
    exact ⟨hk.1, by omega⟩

/-- An operator goes on with the operands on its own level, but not with tighter ones. -/
theorem Kind.continues_of_infixLevel? {k : Kind} {n : Nat} (h : k.infixLevel? = some n) (m : Nat) :
    k.continues m = decide (m ≤ n) := by
  simp only [Kind.continues, h]

theorem Expr.level_binary_le {left right : Expr} {operator : Token} :
    (Expr.binary left operator right).level ≤ 4 := by
  show operator.kind.infixLevel?.getD 0 ≤ 4
  cases h : operator.kind.infixLevel? with
  | none => exact Nat.zero_le _
  | some n => exact (Kind.infixLevel?_bounds h).2

theorem Expr.one_le_nesting (e : Expr) : 1 ≤ e.nesting := by
  induction e <;> simp only [Expr.nesting] <;> omega

/-- The first token of an expression tells that there is one. -/
theorem Expr.exists_start {e : Expr} {ts rest : List Token} (reads : Reads e.flatten ts rest)
    (h : e.Stratified) : ∃ t mid, ts = t :: mid ∧ t.kind.startsExpression = true :=
  h.loose.exists_start reads

namespace Parser

/-- The next token, if there is one, does not go on with an expression of this level. -/
def Stops (level : Nat) (rest : List Token) : Prop :=
  ∀ t ∈ rest.head?, t.kind.continues level = false

@[simp] theorem stops_nil (level : Nat) : Stops level [] := by simp [Stops]

@[simp] theorem stops_cons {level : Nat} {t : Token} {ts : List Token} :
    Stops level (t :: ts) ↔ t.kind.continues level = false := by simp [Stops]

theorem Stops.mono {m n : Nat} {rest : List Token} (h : Stops m rest) (le : m ≤ n) :
    Stops n rest := by
  intro t ht
  have := h t ht
  by_contra hn
  rw [Kind.continues_mono le (by simpa using hn)] at this
  cases this

/-- The grammar derives the expression at this level or tighter, within the limit on nesting. -/
structure IsPhrase (level depth : Nat) (e : Expr) : Prop where
  stratified : e.Stratified
  level_le : level ≤ e.level
  nesting_le : e.nesting ≤ depth

theorem IsPhrase.mono {m n depth : Nat} {e : Expr} (h : IsPhrase n depth e) (le : m ≤ n) :
    IsPhrase m depth e :=
  ⟨h.stratified, Nat.le_trans le h.level_le, h.nesting_le⟩

/-- Without complaint the parser reads the expressions of this level, as far as they go. -/
def ReadsLevel (level depth : Nat) (p : Parser Expr) : Prop :=
  ∀ ts e rest, p ts = .done e rest ↔
    Reads e.flatten ts rest ∧ IsPhrase level depth e ∧ Stops level rest

/-- No operator goes on with a unary expression or a primary. -/
theorem stops_of_five_le {level : Nat} (h : 5 ≤ level) (rest : List Token) : Stops level rest := by
  intro t _
  unfold Kind.continues
  split
  next n e =>
    have := (Kind.infixLevel?_bounds e).2
    simp only [decide_eq_false_iff_not]
    omega
  next => simp only [Bool.and_eq_false_imp, decide_eq_false_iff_not]; omega

theorem isLiteral_iff {k : Kind} :
    isLiteral k = true ↔ k ∈ [Kind.number, .string, .kwTrue, .kwFalse, .kwNil] := by
  simp [isLiteral, or_assoc]

theorem isUnary_iff {k : Kind} : isUnary k = true ↔ k ∈ [Kind.bang, .minus] := by
  simp [isUnary]

section
variable {operand expression value : Rule Expr} {depth : Nat}

/-- An expression and a token that does not go on with it. -/
theorem closed_eq_done {α : Type} (f : Expr → α) (h : ReadsLevel 0 depth expression.parse)
    {kind : Kind} {cause : Cause} (stop : kind.continues 0 = false) {ts rest : List Token} {v : α} :
    (do let e ← expression.parse; let _ ← expect kind cause; return f e : Parser α) ts
        = .done v rest ↔
      ∃ e, f e = v ∧ Reads (e.flatten ++ [.implied kind]) ts rest ∧ IsPhrase 0 depth e := by
  constructor
  · intro done
    obtain ⟨e, mid, he, done⟩ := bind_eq_done.1 done
    obtain ⟨t, mid', ht, done⟩ := bind_eq_done.1 done
    obtain ⟨rfl, rfl⟩ := Reply.done_eq_done.1 done
    obtain ⟨rfl, k⟩ := expect_eq_done.1 ht
    obtain ⟨reads, phrase, -⟩ := (h _ _ _).1 he
    exact ⟨e, rfl, reads_append.2 ⟨_, reads, k, rfl⟩, phrase⟩
  · rintro ⟨e, rfl, reads, phrase⟩
    obtain ⟨mid, reads_e, reads_last⟩ := reads_append.1 reads
    obtain ⟨t, mid', rfl, k, rfl⟩ := reads_cons.1 reads_last
    have stops : Stops 0 (t :: mid') := by rw [stops_cons, Symbol.fits_implied.1 k, stop]
    exact bind_eq_done.2 ⟨e, _, (h _ _ _).2 ⟨reads_e, phrase, stops⟩,
      bind_eq_done.2 ⟨t, mid', expect_eq_done.2 ⟨rfl, k⟩, rfl⟩⟩

/-! ### Primaries and unary expressions -/

theorem primary_sound (h : ReadsLevel 0 depth expression.parse) {ts rest : List Token} {e : Expr}
    (done : primary expression ts = .done e rest) :
    Reads e.flatten ts rest ∧ IsPhrase 6 (depth + 1) e := by
  cases ts with
  | nil => exact absurd done Reply.failed_ne_done
  | cons t ts =>
    simp only [primary] at done
    split at done
    next k =>
      obtain ⟨rfl, rfl⟩ := Reply.done_eq_done.1 done
      exact ⟨⟨rfl, rfl⟩, isLiteral_iff.1 k, Nat.le_refl _, Nat.le_add_left _ _⟩
    next =>
      split at done
      next k =>
        obtain ⟨rfl, rfl⟩ := Reply.done_eq_done.1 done
        exact ⟨⟨rfl, rfl⟩, k, Nat.le_refl _, Nat.le_add_left _ _⟩
      next =>
        split at done
        next k =>
          obtain ⟨inner, rfl, reads, phrase⟩ := (closed_eq_done Expr.grouping h (by rfl)).1 done
          exact ⟨⟨k, reads⟩, phrase.stratified, Nat.le_refl _, Nat.succ_le_succ phrase.nesting_le⟩
        next => exact absurd done Reply.failed_ne_done

theorem primary_complete (h : ReadsLevel 0 depth expression.parse) {ts rest : List Token}
    {e : Expr} (reads : Reads e.flatten ts rest) (phrase : IsPhrase 6 (depth + 1) e) :
    primary expression ts = .done e rest := by
  obtain ⟨stratified, level_le, nesting_le⟩ := phrase
  cases e with
  | literal token =>
    obtain ⟨t, mid, rfl, rfl, rfl⟩ := reads_cons.1 reads
    simp only [primary, isLiteral_iff.2 stratified, if_true]
  | ident name =>
    obtain ⟨t, mid, rfl, rfl, rfl⟩ := reads_cons.1 reads
    have k : name.kind = .identifier := stratified
    simp only [primary, k, isLiteral]
    rfl
  | grouping inner =>
    obtain ⟨t, mid, rfl, k, reads_inner⟩ := reads_cons.1 reads
    rw [Symbol.fits_implied] at k
    simp only [primary, k, isLiteral]
    exact (closed_eq_done Expr.grouping h (by rfl)).2 ⟨inner, rfl, reads_inner, stratified,
      Nat.zero_le _, Nat.le_of_succ_le_succ nesting_le⟩
  | binary left operator right =>
    exact absurd (Nat.le_trans level_le Expr.level_binary_le) (by decide)
  | unary operator right => exact absurd level_le (by show ¬ 6 ≤ 5; decide)
  | assign name value => exact absurd level_le (by show ¬ 6 ≤ 0; decide)
  | foreign label => exact stratified.elim

theorem unary_sound (hoperand : ReadsLevel 5 depth operand.parse)
    (h : ReadsLevel 0 depth expression.parse) {ts rest : List Token} {e : Expr}
    (done : unary operand expression ts = .done e rest) :
    Reads e.flatten ts rest ∧ IsPhrase 5 (depth + 1) e := by
  cases ts with
  | nil => exact absurd done Reply.failed_ne_done
  | cons t ts =>
    simp only [unary] at done
    split at done
    next k =>
      obtain ⟨right, mid, hright, done⟩ := bind_eq_done.1 done
      obtain ⟨rfl, rfl⟩ := Reply.done_eq_done.1 done
      obtain ⟨reads, phrase, -⟩ := (hoperand _ _ _).1 hright
      exact ⟨⟨rfl, reads⟩, ⟨isUnary_iff.1 k, phrase.level_le, phrase.stratified⟩, Nat.le_refl _,
        Nat.succ_le_succ phrase.nesting_le⟩
    next =>
      obtain ⟨reads, phrase⟩ := primary_sound h done
      exact ⟨reads, phrase.mono (by decide)⟩

theorem unary_complete (hoperand : ReadsLevel 5 depth operand.parse)
    (h : ReadsLevel 0 depth expression.parse) {ts rest : List Token} {e : Expr}
    (reads : Reads e.flatten ts rest) (phrase : IsPhrase 5 (depth + 1) e) :
    unary operand expression ts = .done e rest := by
  by_cases level : 6 ≤ e.level
  · obtain ⟨t, mid, rfl, start⟩ := e.exists_start reads phrase.stratified
    have done := primary_complete h reads ⟨phrase.stratified, level, phrase.nesting_le⟩
    -- the parser for primaries refuses the operators, and this one it has read
    have notUnary : isUnary t.kind = false := by
      by_contra k
      have mem := isUnary_iff.1 (Bool.not_eq_false _ ▸ k)
      simp only [List.mem_cons, List.not_mem_nil, or_false] at mem
      rcases mem with k | k <;> simp [primary, k, isLiteral] at done
    simp only [unary, notUnary]
    exact done
  · cases e with
    | unary operator right =>
      obtain ⟨t, mid, rfl, rfl, hright⟩ := reads_cons.1 reads
      obtain ⟨kinds, level_le, stratified⟩ := phrase.stratified
      have done := (hoperand mid right rest).2 ⟨hright,
        ⟨stratified, level_le, Nat.le_of_succ_le_succ phrase.nesting_le⟩,
        stops_of_five_le (Nat.le_refl 5) rest⟩
      simp only [unary, isUnary_iff.2 kinds, if_true]
      exact bind_eq_done.2 ⟨right, rest, done, rfl⟩
    | binary left operator right =>
      exact absurd (Nat.le_trans phrase.level_le Expr.level_binary_le) (by decide)
    | assign name value => exact absurd phrase.level_le (by show ¬ 5 ≤ 0; decide)
    | grouping | literal | ident | foreign => exact absurd (Nat.le_refl 6) level

theorem readsLevel_unary (hoperand : ReadsLevel 5 depth operand.parse)
    (h : ReadsLevel 0 depth expression.parse) :
    ReadsLevel 5 (depth + 1) (unary operand expression) := by
  intro ts e rest
  constructor
  · intro done
    obtain ⟨reads, phrase⟩ := unary_sound hoperand h done
    exact ⟨reads, phrase, stops_of_five_le (Nat.le_refl 5) rest⟩
  · rintro ⟨reads, phrase, -⟩
    exact unary_complete hoperand h reads phrase

/-! ### Chains -/

/-- The operators are those of one level of chains. -/
structure OperatorsAt (isOperator : Kind → Bool) (level : Nat) : Prop where
  one_le : 1 ≤ level
  le_four : level ≤ 4
  iff : ∀ k, isOperator k = true ↔ k.infixLevel? = some level

theorem operatorsAt_equality : OperatorsAt isEquality 1 :=
  ⟨by decide, by decide, fun k => by cases k <;> decide⟩

theorem operatorsAt_comparison : OperatorsAt isComparison 2 :=
  ⟨by decide, by decide, fun k => by cases k <;> decide⟩

theorem operatorsAt_term : OperatorsAt isTerm 3 :=
  ⟨by decide, by decide, fun k => by cases k <;> decide⟩

theorem operatorsAt_factor : OperatorsAt isFactor 4 :=
  ⟨by decide, by decide, fun k => by cases k <;> decide⟩

section
variable {isOperator : Kind → Bool} {level : Nat}

/-- Between a stop of the next level and one of this level there are only this level's operators. -/
theorem stops_iff (ops : OperatorsAt isOperator level) {rest : List Token} :
    Stops level rest ↔ Stops (level + 1) rest ∧ ∀ t ∈ rest.head?, isOperator t.kind = false := by
  have pos := ops.one_le
  have key (k : Kind) :
      k.continues level = false ↔ k.continues (level + 1) = false ∧ isOperator k = false := by
    rw [← Bool.not_eq_true (isOperator k), ops.iff]
    unfold Kind.continues
    cases k.infixLevel? with
    | none => simp; omega
    | some n => simp; omega
  simp only [Stops, key, imp_and, forall_and]

/-- An operator stops the operands of its level. -/
theorem stops_operator {op : Token} {ts : List Token} (h : op.kind.infixLevel? = some level) :
    Stops (level + 1) (op :: ts) := by
  rw [stops_cons, Kind.continues_of_infixLevel? h]
  simp

theorem IsPhrase.binary {left right : Expr} {op : Token}
    (binding : op.kind.infixLevel? = some level) (hleft : IsPhrase level depth left)
    (hright : IsPhrase (level + 1) depth right) : IsPhrase level depth (.binary left op right) := by
  refine ⟨⟨⟨level, binding, hleft.level_le, hright.level_le⟩, hleft.stratified,
    hright.stratified⟩, ?_, Nat.max_le.2 ⟨hleft.nesting_le, hright.nesting_le⟩⟩
  show level ≤ op.kind.infixLevel?.getD 0
  rw [binding]
  exact Nat.le_refl level

/-- An expression of a chain's level is a chain of at least one operator, or it is tighter. -/
theorem IsPhrase.cases (ops : OperatorsAt isOperator level) {e : Expr}
    (phrase : IsPhrase level depth e) :
    IsPhrase (level + 1) depth e ∨
      ∃ left op right, e = .binary left op right ∧ op.kind.infixLevel? = some level
        ∧ IsPhrase level depth left ∧ IsPhrase (level + 1) depth right := by
  obtain ⟨stratified, level_le, nesting_le⟩ := phrase
  by_cases tight : level + 1 ≤ e.level
  · exact .inl ⟨stratified, tight, nesting_le⟩
  right
  have one_le := ops.one_le
  have le_four := ops.le_four
  have exact_level : e.level = level := by omega
  cases e with
  | binary left op right =>
    obtain ⟨⟨n, binding, hleft, hright⟩, sleft, sright⟩ := stratified
    have same : n = level := by
      rw [← exact_level]
      show n = op.kind.infixLevel?.getD 0
      rw [Option.mem_def.1 binding]
      rfl
    subst same
    obtain ⟨nleft, nright⟩ := Nat.max_le.1 nesting_le
    exact ⟨left, op, right, rfl, binding, ⟨sleft, hleft, nleft⟩, ⟨sright, hright, nright⟩⟩
  | assign | unary | grouping | literal | ident | foreign => simp [Expr.level] at exact_level; omega

theorem chainFrom_sound (ops : OperatorsAt isOperator level)
    (h : ReadsLevel (level + 1) depth operand.parse) {left e : Expr} {ts rest : List Token}
    (phrase : IsPhrase level depth left) (stops : Stops (level + 1) ts)
    (done : chainFrom isOperator operand left ts = .done e rest) :
    (∃ tail, e.flatten = left.flatten ++ tail ∧ Reads tail ts rest)
      ∧ IsPhrase level depth e ∧ Stops level rest := by
  -- each operand shortens what is left, and the chain so far becomes the next left operand
  induction hn : ts.length using Nat.strongRecOn generalizing ts left with
  | _ n ih =>
    cases ts with
    | nil =>
      rw [chainFrom_nil] at done
      obtain ⟨rfl, rfl⟩ := Reply.done_eq_done.1 done
      exact ⟨⟨[], by simp⟩, phrase, stops_nil level⟩
    | cons op ts =>
      rw [chainFrom_cons] at done
      split at done
      next isOp =>
        obtain ⟨right, mid, hright, done⟩ := Reply.bind_eq_done.1 done
        have shorter := operand.length_rest_le hright
        obtain ⟨reads, phrase_right, stops'⟩ := (h _ _ _).1 hright
        have phrase' := phrase.binary ((ops.iff _).1 isOp) phrase_right
        obtain ⟨⟨tail, flat, tail_reads⟩, result⟩ := ih mid.length
          (by rw [← hn, List.length_cons]; omega) phrase' stops' done rfl
        refine ⟨⟨.stored op :: (right.flatten ++ tail), ?_, rfl, ?_⟩, result⟩
        · rw [flat]
          simp only [Expr.flatten, List.append_assoc, List.cons_append]
        · exact reads_append.2 ⟨mid, reads, tail_reads⟩
      next notOp =>
        obtain ⟨rfl, rfl⟩ := Reply.done_eq_done.1 done
        exact ⟨⟨[], by simp⟩, phrase, (stops_iff ops).2 ⟨stops, by simpa using notOp⟩⟩

/-- The loop of a chain comes by every left operand on the way. -/
theorem chain_eq_chainFrom (ops : OperatorsAt isOperator level)
    (h : ReadsLevel (level + 1) depth operand.parse) {e : Expr} {ts rest : List Token}
    (reads : Reads e.flatten ts rest) (phrase : IsPhrase level depth e)
    (stops : Stops (level + 1) rest) :
    chain isOperator operand ts = chainFrom isOperator operand e rest := by
  -- the left operand of a chain is the chain without its last operator
  induction hs : sizeOf e using Nat.strongRecOn generalizing e rest with
  | _ n ih =>
    rcases phrase.cases ops with tight | ⟨left, op, right, rfl, binding, hleft, hright⟩
    · have done := (h ts e rest).2 ⟨reads, tight, stops⟩
      exact (bind_apply _ _ _).trans (by rw [done]; rfl)
    · obtain ⟨mid, reads_left, reads_op⟩ := reads_append.1 reads
      obtain ⟨t, mid, rfl, rfl, reads_right⟩ := reads_cons.1 reads_op
      have done := (h mid right rest).2 ⟨reads_right, hright, stops⟩
      rw [ih (sizeOf left) (by rw [← hs]; simp; omega) reads_left hleft
        (stops_operator binding) rfl]
      rw [chainFrom_cons, if_pos ((ops.iff _).2 binding), done]
      rfl

theorem readsLevel_chain (ops : OperatorsAt isOperator level)
    (h : ReadsLevel (level + 1) depth operand.parse) :
    ReadsLevel level depth (chain isOperator operand) := by
  intro ts e rest
  constructor
  · intro done
    obtain ⟨left, mid, hleft, done⟩ := bind_eq_done.1 done
    obtain ⟨reads, phrase, stops⟩ := (h _ _ _).1 hleft
    obtain ⟨⟨tail, flat, tail_reads⟩, result⟩ :=
      chainFrom_sound ops h (phrase.mono (Nat.le_succ level)) stops done
    refine ⟨?_, result⟩
    rw [flat]
    exact reads_append.2 ⟨mid, reads, tail_reads⟩
  · rintro ⟨reads, phrase, stops⟩
    obtain ⟨tighter, notOp⟩ := (stops_iff ops).1 stops
    rw [chain_eq_chainFrom ops h reads phrase tighter]
    cases rest with
    | nil => rw [chainFrom_nil]
    | cons t rest =>
      have : isOperator t.kind = false := notOp t rfl
      rw [chainFrom_cons, this]
      rfl

end

/-! ### Assignments -/

theorem stops_zero_iff {rest : List Token} :
    Stops 0 rest ↔ Stops 1 rest ∧ ∀ t ∈ rest.head?, t.kind ≠ .equal := by
  have key (k : Kind) : k.continues 0 = false ↔ k.continues 1 = false ∧ k ≠ .equal := by
    cases k <;> decide
  simp only [Stops, key, imp_and, forall_and]

/-- An assignment without complaint has a bare name on its left. -/
theorem assignTo_eq_done {equals : Token} {target v e : Expr} {ts rest : List Token} :
    assignTo equals target v ts = .done e rest ↔
      ∃ name, target = .ident name ∧ e = .assign name v ∧ ts = rest := by
  constructor
  · intro done
    unfold assignTo at done
    split at done
    next name =>
      obtain ⟨rfl, rfl⟩ := Reply.done_eq_done.1 done
      exact ⟨name, rfl, rfl, rfl⟩
    next => exact absurd done complain_bind_ne_done
  · rintro ⟨name, rfl, rfl, rfl⟩
    rfl

/-- An expression of no chain or tighter level is an assignment. -/
theorem IsPhrase.cases_zero {e : Expr} (phrase : IsPhrase 0 depth e) :
    IsPhrase 1 depth e ∨ ∃ name v, e = .assign name v := by
  obtain ⟨stratified, -, nesting_le⟩ := phrase
  cases e with
  | assign name v => exact .inr ⟨name, v, rfl⟩
  | binary left op right =>
    obtain ⟨n, binding, -⟩ := stratified.1
    refine .inl ⟨stratified, ?_, nesting_le⟩
    show 1 ≤ op.kind.infixLevel?.getD 0
    rw [Option.mem_def.1 binding]
    exact (Kind.infixLevel?_bounds binding).1
  | foreign label => exact stratified.elim
  | unary | grouping | literal | ident => exact .inl ⟨stratified, by simp [Expr.level], nesting_le⟩

theorem assignment_sound (h : ReadsLevel 1 (depth + 1) operand.parse)
    (hvalue : ReadsLevel 0 depth value.parse) {ts rest : List Token} {e : Expr}
    (done : assignment operand value ts = .done e rest) :
    Reads e.flatten ts rest ∧ IsPhrase 0 (depth + 1) e ∧ Stops 0 rest := by
  obtain ⟨target, mid, htarget, done⟩ := bind_eq_done.1 done
  obtain ⟨reads, phrase, stops⟩ := (h _ _ _).1 htarget
  cases mid with
  | nil =>
    obtain ⟨rfl, rfl⟩ := Reply.done_eq_done.1 done
    exact ⟨reads, phrase.mono (Nat.zero_le _), stops_nil 0⟩
  | cons t mid =>
    simp only [assignmentFrom] at done
    split at done
    next k =>
      obtain ⟨v, mid', hv, done⟩ := bind_eq_done.1 done
      obtain ⟨name, rfl, rfl, rfl⟩ := assignTo_eq_done.1 done
      obtain ⟨reads_v, phrase_v, stops_v⟩ := (hvalue _ _ _).1 hv
      have written : Reads ((Expr.ident name).flatten ++ .implied .equal :: v.flatten) ts mid' :=
        reads_append.2 ⟨t :: mid, reads, k, reads_v⟩
      exact ⟨written, ⟨⟨phrase.stratified, phrase_v.stratified⟩, Nat.zero_le _,
        Nat.succ_le_succ phrase_v.nesting_le⟩, stops_v⟩
    next k =>
      obtain ⟨rfl, rfl⟩ := Reply.done_eq_done.1 done
      exact ⟨reads, phrase.mono (Nat.zero_le _), stops_zero_iff.2 ⟨stops, by simpa using k⟩⟩

theorem assignment_complete (h : ReadsLevel 1 (depth + 1) operand.parse)
    (hvalue : ReadsLevel 0 depth value.parse) {ts rest : List Token} {e : Expr}
    (reads : Reads e.flatten ts rest) (phrase : IsPhrase 0 (depth + 1) e) (stops : Stops 0 rest) :
    assignment operand value ts = .done e rest := by
  obtain ⟨stops_one, notEqual⟩ := stops_zero_iff.1 stops
  rcases phrase.cases_zero with tight | ⟨name, v, rfl⟩
  · refine bind_eq_done.2 ⟨e, rest, (h _ _ _).2 ⟨reads, tight, stops_one⟩, ?_⟩
    cases rest with
    | nil => rfl
    | cons t rest => simp only [assignmentFrom, if_neg (notEqual t rfl)]
  · obtain ⟨t, mid, rfl, rfl, reads_equals⟩ := reads_cons.1 reads
    obtain ⟨equals, mid, rfl, k, reads_v⟩ := reads_cons.1 reads_equals
    obtain ⟨kind, stratified⟩ := phrase.stratified
    -- the parser for chains reads the name alone, since it stops at the equals sign
    have hname : operand.parse (name :: equals :: mid) = .done (.ident name) (equals :: mid) := by
      refine (h _ _ _).2 ⟨⟨rfl, rfl⟩, ⟨kind, by show 1 ≤ 6; decide, Nat.le_add_left _ _⟩, ?_⟩
      rw [stops_cons, Symbol.fits_implied.1 k]
      rfl
    have hv := (hvalue mid v rest).2
      ⟨reads_v, ⟨stratified, Nat.zero_le _, Nat.le_of_succ_le_succ phrase.nesting_le⟩, stops⟩
    refine bind_eq_done.2 ⟨.ident name, equals :: mid, hname, ?_⟩
    simp only [assignmentFrom, if_pos (Symbol.fits_implied.1 k)]
    exact bind_eq_done.2 ⟨v, rest, hv, rfl⟩

theorem readsLevel_assignment (h : ReadsLevel 1 (depth + 1) operand.parse)
    (hvalue : ReadsLevel 0 depth value.parse) :
    ReadsLevel 0 (depth + 1) (assignment operand value) :=
  fun _ _ _ => ⟨assignment_sound h hvalue, fun ⟨reads, phrase, stops⟩ =>
    assignment_complete h hvalue reads phrase stops⟩

/-! ### One level of nesting -/

variable {inner : Grammar}

theorem readsLevel_extend_expression (hunary : ReadsLevel 5 depth inner.unary.parse)
    (h : ReadsLevel 0 depth inner.expression.parse) :
    ReadsLevel 0 (depth + 1) inner.extend.expression.parse := by
  have unary : ReadsLevel 5 (depth + 1) inner.extend.unary.parse := by
    rw [Grammar.extend_unary]
    exact readsLevel_unary hunary h
  have factor : ReadsLevel 4 (depth + 1) inner.factor.parse :=
    readsLevel_chain operatorsAt_factor unary
  have term : ReadsLevel 3 (depth + 1) inner.term.parse :=
    readsLevel_chain operatorsAt_term factor
  have comparison : ReadsLevel 2 (depth + 1) inner.comparison.parse :=
    readsLevel_chain operatorsAt_comparison term
  have equality : ReadsLevel 1 (depth + 1) inner.equality.parse :=
    readsLevel_chain operatorsAt_equality comparison
  rw [Grammar.extend_expression]
  exact readsLevel_assignment equality h

end

end Parser

end Lox
