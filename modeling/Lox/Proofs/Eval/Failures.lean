import Lox.Eval.Statement
import Lox.Proofs.Grammar.Shape

/-!
# What execution can fail with

Some failures show a tree that no parser builds: a literal that is none, an operator of the wrong
kind, a foreign node. `Executable` says that a tree has none of these, and the trees of the grammar
are executable. Executing such a tree can fail only for a reason that the program is to blame for,
and then at one of its own names and operators (`Stmt.executeAll_failsOnly`). It can also halt
without a failure, for depth or fuel.

`FailsOnly` states which failures an action can have. It composes along the way in which actions
are put together, so each proof below follows the recursion of the evaluator.
-/

namespace Lox

/-! ### Executable trees -/

namespace Expr

/-- Every stored token has a kind that the evaluator knows in its place. -/
def Executable : Expr → Prop
  | binary left operator right =>
    operator.kind.infixLevel?.isSome ∧ left.Executable ∧ right.Executable
  | unary operator right => operator.kind ∈ [Kind.bang, .minus] ∧ right.Executable
  | grouping inner => inner.Executable
  | literal token => token.kind ∈ [Kind.number, .string, .kwTrue, .kwFalse, .kwNil]
  | ident name => name.kind = .identifier
  | assign name value => name.kind = .identifier ∧ value.Executable
  | foreign _ => False

theorem Stratified.executable {e : Expr} (h : e.Stratified) : e.Executable := by
  induction e with
  | binary left operator right ihl ihr =>
    obtain ⟨⟨n, binding, -⟩, hleft, hright⟩ := h
    exact ⟨Option.isSome_iff_exists.2 ⟨n, binding⟩, ihl hleft, ihr hright⟩
  | unary operator right ih => exact ⟨h.1, ih h.2.2⟩
  | grouping inner ih => exact ih h
  | literal token => exact h
  | ident name => exact h
  | assign name value ih => exact ⟨h.1, ih h.2⟩
  | foreign label => exact h.elim

/-- The operators and names, where evaluation can fail. -/
def blamable : Expr → List Token
  | binary left operator right => left.blamable ++ operator :: right.blamable
  | unary operator right => operator :: right.blamable
  | grouping inner => inner.blamable
  | ident name => [name]
  | assign name value => name :: value.blamable
  | literal _ | foreign _ => []

end Expr

namespace Stmt

mutual

/-- Every expression in the statement is executable, and no node is foreign. -/
def Executable : Stmt → Prop
  | expression e | print e | var _ (some e) => e.Executable
  | var _ none => True
  | block body => AllExecutable body
  | ifThen condition yes => condition.Executable ∧ yes.Executable
  | ifElse condition yes no => condition.Executable ∧ yes.Executable ∧ no.Executable
  | loop condition body => condition.Executable ∧ body.Executable
  | foreign _ => False

/-- All the statements are executable. -/
def AllExecutable : List Stmt → Prop
  | [] => True
  | s :: ss => s.Executable ∧ AllExecutable ss

end

mutual

theorem WellFormed.executable : ∀ {s : Stmt}, s.WellFormed → s.Executable
  | .expression _, h => Expr.Stratified.executable h
  | .print _, h => Expr.Stratified.executable h
  | .var _ none, _ => trivial
  | .var _ (some _), h => Expr.Stratified.executable h.2
  | .block _, h => AllWellFormed.executable h
  | .ifThen _ _, ⟨hc, _, hyes⟩ => ⟨hc.executable, hyes.executable⟩
  | .ifElse _ _ _, ⟨hc, ⟨_, _, hyes⟩, _, hno⟩ => ⟨hc.executable, hyes.executable, hno.executable⟩
  | .loop _ _, ⟨hc, _, hbody⟩ => ⟨hc.executable, hbody.executable⟩
  | .foreign _, h => h.elim

theorem AllWellFormed.executable : ∀ {ss : List Stmt}, AllWellFormed ss → AllExecutable ss
  | [], _ => trivial
  | _ :: _, ⟨hs, hss⟩ => ⟨hs.executable, AllWellFormed.executable hss⟩

end

mutual

/-- The operators and names in the expressions of the statement. A declared name is not among them,
since declaring cannot fail. -/
def blamable : Stmt → List Token
  | expression e | print e | var _ (some e) => e.blamable
  | var _ none => []
  | block body => blamableAll body
  | ifThen condition yes => condition.blamable ++ yes.blamable
  | ifElse condition yes no => condition.blamable ++ (yes.blamable ++ no.blamable)
  | loop condition body => condition.blamable ++ body.blamable
  | foreign _ => []

/-- The operators and names in the expressions of the statements. -/
def blamableAll : List Stmt → List Token
  | [] => []
  | s :: ss => s.blamable ++ blamableAll ss

end

end Stmt

/-! ### Failures at a token -/

/-- The failure is reported at this token. -/
def Failure.LocatedAt : Failure → Token → Prop
  | .operandNotNumber operator, t | .operandsNotNumbers operator, t
  | .operandsMismatch operator, t => operator = t
  | .undefined name line, t => name = t.lexeme ∧ line = some t.line
  | _, _ => False

/-- The failure is reported at one of these tokens. -/
def Failure.LocatedIn (tokens : List Token) (cause : Failure) : Prop :=
  ∃ t ∈ tokens, cause.LocatedAt t

/-- A failure that is located at a token is the program's own. -/
theorem Failure.LocatedAt.category_eq {cause : Failure} {t : Token} (h : cause.LocatedAt t) :
    cause.diagnostic.category = .runtime := by
  have at_token (op : Token) (message : String) :
      (Diagnostic.atToken .runtime op message).category = .runtime := by
    unfold Diagnostic.atToken
    split <;> rfl
  cases cause with
  | operandNotNumber op => exact at_token op _
  | operandsNotNumbers op => exact at_token op _
  | operandsMismatch op => exact at_token op _
  | undefined name line => rfl
  | notLiteral | notUnary | notBinary | foreignExpression | foreignStatement => exact h.elim

theorem Failure.LocatedIn.category_eq {ts : List Token} {cause : Failure}
    (h : cause.LocatedIn ts) : cause.diagnostic.category = .runtime := by
  obtain ⟨t, -, located⟩ := h
  exact located.category_eq

theorem Failure.LocatedIn.mono {ts us : List Token} (sub : ts ⊆ us) {cause : Failure}
    (h : cause.LocatedIn ts) : cause.LocatedIn us := by
  obtain ⟨t, mem, located⟩ := h
  exact ⟨t, sub mem, located⟩

/-! ### Which failures an action can have -/

/-- Every failure of an action satisfies a predicate. To halt for depth or fuel is no failure. -/
def FailsOnly {σ α : Type} (P : Failure → Prop) (action : EStateM Halt σ α) : Prop :=
  ∀ ⦃s s' : σ⦄ ⦃cause : Failure⦄, action s = .error (.failure cause) s' → P cause

namespace FailsOnly

variable {σ α β : Type} {P Q : Failure → Prop}

theorem mono {action : EStateM Halt σ α} (h : FailsOnly P action)
    (imp : ∀ cause, P cause → Q cause) : FailsOnly Q action :=
  fun _ _ cause failed => imp cause (h failed)

/-- What fails only at some tokens fails only at more. -/
theorem widen {action : EStateM Halt σ α} {ts us : List Token}
    (h : FailsOnly (Failure.LocatedIn ts) action) (sub : ts ⊆ us) :
    FailsOnly (Failure.LocatedIn us) action :=
  h.mono fun _ => .mono sub

theorem pure (a : α) : FailsOnly P (Pure.pure a : EStateM Halt σ α) := by
  intro s s' cause failed
  cases failed

theorem get : FailsOnly P (MonadState.get : EStateM Halt σ σ) := by
  intro s s' cause failed
  cases failed

theorem modify (change : σ → σ) : FailsOnly P (modify change : EStateM Halt σ Unit) := by
  intro s s' cause failed
  cases failed

theorem tooDeep : FailsOnly P (throw .tooDeep : EStateM Halt σ α) := by
  intro s s' cause failed
  cases failed

theorem failure {cause : Failure} (h : P cause) :
    FailsOnly P (throw (.failure cause) : EStateM Halt σ α) := by
  intro s s' cause failed
  cases failed
  exact h

theorem bind {action : EStateM Halt σ α} {next : α → EStateM Halt σ β} (h : FailsOnly P action)
    (hnext : ∀ a, FailsOnly P (next a)) : FailsOnly P (action >>= next) := by
  intro s s' cause failed
  change EStateM.run (action >>= next) s = _ at failed
  rw [EStateM.run_bind] at failed
  cases result : action.run s with
  | ok a mid =>
    rw [result] at failed
    exact hnext a failed
  | error halt mid =>
    rw [result] at failed
    cases failed
    exact h result

theorem map {action : EStateM Halt σ α} (f : α → β) (h : FailsOnly P action) :
    FailsOnly P (f <$> action) := by
  rw [map_eq_pure_bind]
  exact h.bind fun a => .pure (f a)

theorem ofExcept {result : Except Failure α} (h : ∀ cause, result = .error cause → P cause) :
    FailsOnly P (Halt.ofExcept result : EStateM Halt σ α) := by
  cases result with
  | ok a => exact .pure a
  | error cause => exact .failure (h cause rfl)

end FailsOnly

/-! ### Expressions -/

theorem Operator.literal_failsOnly {P : Failure → Prop} {t : Token}
    (h : (Expr.literal t).Executable) (cause : Failure) :
    Operator.literal t = .error cause → P cause := by
  intro failed
  have kinds : t.kind ∈ [Kind.number, .string, .kwTrue, .kwFalse, .kwNil] := h
  simp only [List.mem_cons, List.not_mem_nil, or_false] at kinds
  rcases kinds with k | k | k | k | k <;> simp [Operator.literal, k] at failed

theorem Operator.unary_locatedAt {operator : Token} {v : Value} {cause : Failure}
    (h : operator.kind ∈ [Kind.bang, .minus]) (failed : Operator.unary operator v = .error cause) :
    cause.LocatedAt operator := by
  simp only [List.mem_cons, List.not_mem_nil, or_false] at h
  rcases h with k | k
  · simp [Operator.unary, k] at failed
  · simp only [Operator.unary, k] at failed
    cases v with
    | num x => cases failed
    | nil | bool | str =>
      cases failed
      rfl

theorem Operator.onNumbers_locatedAt {operator : Token} {f : Float → Float → Value} {v w : Value}
    {cause : Failure} (failed : Operator.onNumbers operator f v w = .error cause) :
    cause.LocatedAt operator := by
  unfold Operator.onNumbers at failed
  split at failed
  · cases failed
  · cases failed
    rfl

theorem Operator.binary_locatedAt {operator : Token} {v w : Value} {cause : Failure}
    (h : operator.kind.infixLevel?.isSome) (failed : Operator.binary operator v w = .error cause) :
    cause.LocatedAt operator := by
  unfold Operator.binary at failed
  split at failed
  case h_1 =>
    split at failed
    · cases failed
    · cases failed
    · cases failed
      rfl
  case h_9 | h_10 => cases failed
  case h_11 =>
    -- no other kind of token stands between two operands
    rename_i k
    revert h
    unfold Kind.infixLevel?
    split <;> simp_all
  all_goals exact Operator.onNumbers_locatedAt failed

/-- **Evaluation fails only at a name or an operator** of the expression. -/
theorem Expr.evaluate_failsOnly : ∀ {e : Expr}, e.Executable → ∀ depth,
    FailsOnly (Failure.LocatedIn e.blamable) (e.evaluate depth)
  | e, _, 0 => by
    rw [evaluate]
    exact .tooDeep
  | .binary left operator right, h, depth + 1 => by
    obtain ⟨known, hleft, hright⟩ := h
    have right_sub : right.blamable ⊆ (binary left operator right).blamable :=
      fun t mem => List.mem_append_right _ (List.mem_cons_of_mem _ mem)
    rw [evaluate]
    apply FailsOnly.bind
    · exact (evaluate_failsOnly hleft depth).widen (List.subset_append_left _ _)
    intro v
    apply FailsOnly.bind
    · exact (evaluate_failsOnly hright depth).widen right_sub
    intro w
    -- both operands have values, so it is the operator that refuses them
    apply FailsOnly.ofExcept
    intro cause failed
    refine ⟨operator, ?_, Operator.binary_locatedAt known failed⟩
    exact List.mem_append_right _ List.mem_cons_self
  | .unary operator right, h, depth + 1 => by
    obtain ⟨known, hright⟩ := h
    rw [evaluate]
    apply FailsOnly.bind
    · exact (evaluate_failsOnly hright depth).widen (List.subset_cons_self _ _)
    intro v
    apply FailsOnly.ofExcept
    intro cause failed
    exact ⟨operator, List.mem_cons_self, Operator.unary_locatedAt known failed⟩
  | .grouping inner, h, depth + 1 => by
    have executable : inner.Executable := h
    rw [evaluate]
    exact evaluate_failsOnly executable depth
  | .literal _, h, _ + 1 => .ofExcept (Operator.literal_failsOnly h)
  | .ident name, _, _ + 1 => by
    rw [evaluate]
    refine .bind .get fun chain => ?_
    split
    · exact .pure _
    · exact .failure ⟨name, List.mem_cons_self, rfl, rfl⟩
  | .assign name value, h, depth + 1 => by
    rw [evaluate]
    apply FailsOnly.bind
    · exact (evaluate_failsOnly h.2 depth).widen (List.subset_cons_self _ _)
    intro v
    refine .bind .get fun chain => ?_
    split
    · exact .bind (.modify _) fun _ => .pure v
    · exact .failure ⟨name, List.mem_cons_self, rfl, rfl⟩
  | .foreign _, h, _ + 1 => h.elim

/-! ### Statements -/

namespace Machine

variable {P : Failure → Prop}

theorem evaluate_failsOnly {e : Expr} {depth : Nat} (h : FailsOnly P (e.evaluate depth)) :
    FailsOnly P (evaluate e depth) := by
  intro m m' cause failed
  unfold evaluate at failed
  split at failed
  · cases failed
  next result =>
    cases failed
    exact h result

theorem inBlock_failsOnly {body : EStateM Halt Machine Unit} (h : FailsOnly P body) :
    FailsOnly P (inBlock body) := by
  intro m m' cause failed
  unfold inBlock at failed
  split at failed
  · cases failed
  next result =>
    cases failed
    exact h result

theorem iterate_failsOnly {condition : EStateM Halt Machine Bool}
    {body : EStateM Halt Machine Unit} (hcondition : FailsOnly P condition)
    (hbody : FailsOnly P body) (fuel : Nat) : FailsOnly P (iterate condition body fuel) := by
  induction fuel with
  | zero =>
    intro m m' cause failed
    cases failed
  | succ fuel ih =>
    rw [iterate_succ]
    refine hcondition.bind fun holds => ?_
    split
    · exact hbody.bind fun _ => ih
    · exact .pure _

end Machine

mutual

theorem Stmt.execute_failsOnly (fuel : Nat) : ∀ {s : Stmt}, s.Executable → ∀ depth,
    FailsOnly (Failure.LocatedIn s.blamable) (s.execute fuel depth)
  | s, _, 0 => by
    rw [Stmt.execute]
    exact .tooDeep
  | .expression e, h, depth + 1 => by
    rw [Stmt.execute]
    exact .bind (Machine.evaluate_failsOnly (e.evaluate_failsOnly h depth)) fun _ => .pure _
  | .print e, h, depth + 1 => by
    rw [Stmt.execute]
    exact .bind (Machine.evaluate_failsOnly (e.evaluate_failsOnly h depth)) fun _ => .modify _
  | .var name none, _, depth + 1 => by
    rw [Stmt.execute]
    exact .modify _
  | .var name (some e), h, depth + 1 => by
    rw [Stmt.execute]
    exact .bind (Machine.evaluate_failsOnly (e.evaluate_failsOnly h depth)) fun _ => .modify _
  | .block body, h, depth + 1 => by
    rw [Stmt.execute]
    exact Machine.inBlock_failsOnly (Stmt.executeAll_failsOnly fuel h depth)
  | .ifThen c yes, h, depth + 1 => by
    obtain ⟨hc, hyes⟩ := h
    rw [Stmt.execute]
    apply FailsOnly.bind
    · apply Machine.evaluate_failsOnly
      exact (c.evaluate_failsOnly hc depth).widen (List.subset_append_left _ _)
    intro v
    split
    · exact (Stmt.execute_failsOnly fuel hyes depth).widen (List.subset_append_right _ _)
    · exact .pure _
  | .ifElse c yes no, h, depth + 1 => by
    obtain ⟨hc, hyes, hno⟩ := h
    have branches_sub : yes.blamable ++ no.blamable ⊆ (Stmt.ifElse c yes no).blamable :=
      List.subset_append_right _ _
    obtain ⟨yes_sub, no_sub⟩ := List.append_subset.1 branches_sub
    rw [Stmt.execute]
    apply FailsOnly.bind
    · apply Machine.evaluate_failsOnly
      exact (c.evaluate_failsOnly hc depth).widen (List.subset_append_left _ _)
    intro v
    split
    · exact (Stmt.execute_failsOnly fuel hyes depth).widen yes_sub
    · exact (Stmt.execute_failsOnly fuel hno depth).widen no_sub
  | .loop c body, h, depth + 1 => by
    obtain ⟨hc, hbody⟩ := h
    rw [Stmt.execute]
    -- no round can fail otherwise, so the number of rounds does not matter
    apply Machine.iterate_failsOnly
    · apply FailsOnly.map
      apply Machine.evaluate_failsOnly
      exact (c.evaluate_failsOnly hc depth).widen (List.subset_append_left _ _)
    · exact (Stmt.execute_failsOnly fuel hbody depth).widen (List.subset_append_right _ _)
  | .foreign _, h, _ + 1 => h.elim

/-- **Execution fails only at a name or an operator** of the statements. -/
theorem Stmt.executeAll_failsOnly (fuel : Nat) : ∀ {ss : List Stmt}, Stmt.AllExecutable ss →
    ∀ depth, FailsOnly (Failure.LocatedIn (Stmt.blamableAll ss)) (Stmt.executeAll fuel ss depth)
  | [], _, _ => by
    rw [Stmt.executeAll]
    exact .pure _
  | s :: ss, h, depth => by
    obtain ⟨hs, hss⟩ := h
    rw [Stmt.executeAll]
    apply FailsOnly.bind
    · exact (Stmt.execute_failsOnly fuel hs depth).widen (List.subset_append_left _ _)
    intro _
    exact (Stmt.executeAll_failsOnly fuel hss depth).widen (List.subset_append_right _ _)

end

end Lox
