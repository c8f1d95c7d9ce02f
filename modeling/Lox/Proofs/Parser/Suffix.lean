import Lox.Proofs.Parser.Depth
import Lox.Proofs.Parser.Lookahead

/-!
# What a parser leaves

A parser works through its tokens from the front. However it ends, with a value, a failure or the
news that the program nests too deep, the tokens left are the end of those that it was given
(`LeavesSuffix`): none is skipped, repeated or made up. The rules at every depth have the property
(`Grammar.leavesSuffix_ofDepth`). A whole program is read to its end, if it does not nest too deep,
since its declarations catch every failure (`program_ends`).
-/

namespace Lox.Parser

variable {α β : Type}

/-- The tokens left. -/
def Outcome.rest : Outcome α → List Token
  | .done _ rest | .failed _ rest | .tooDeep rest => rest

/-- However the parser ends, what it leaves is the end of what it was given. -/
def LeavesSuffix (p : Parser α) : Prop := ∀ ts, (p ts).outcome.rest <:+ ts

theorem Reply.suffix_bind {r : Reply α} {next : α → List Token → Reply β} {ts : List Token}
    (h : r.outcome.rest <:+ ts)
    (hnext : ∀ value rest, r.outcome = .done value rest →
      (next value rest).outcome.rest <:+ rest) : (r.bind next).outcome.rest <:+ ts := by
  obtain ⟨complaints, outcome⟩ := r
  cases outcome with
  | done value rest => exact (hnext value rest rfl).trans h
  | failed cause rest => exact h
  | tooDeep rest => exact h

theorem Reply.outcome_bind {r : Reply α} {value : α} {rest : List Token}
    (done : r.outcome = .done value rest) (next : α → List Token → Reply β) :
    (r.bind next).outcome = (next value rest).outcome := by
  obtain ⟨complaints, outcome⟩ := r
  cases done
  rfl

/-- What a rule leaves after a value is shorter than what it was given, also with complaints. -/
theorem Rule.length_le_of_done (r : Rule α) {ts rest : List Token} {value : α}
    (done : (r.parse ts).outcome = .done value rest) : rest.length ≤ ts.length - 1 := by
  have within := r.consumes ts
  rw [done] at within
  exact within

/-- What a rule leaves after a value is the end of all tokens but the first. -/
theorem Rule.suffix_tail {r : Rule α} (h : LeavesSuffix r.parse) {t : Token}
    {ts rest : List Token} {value : α} (done : (r.parse (t :: ts)).outcome = .done value rest) :
    rest <:+ ts := by
  have shorter := r.length_le_of_done done
  have suffix := h (t :: ts)
  rw [done] at suffix
  rcases List.suffix_cons_iff.1 suffix with whole | tail
  · have same : rest = t :: ts := whole
    rw [same, List.length_cons] at shorter
    omega
  · exact tail

namespace LeavesSuffix

theorem pure (value : α) : LeavesSuffix (pure value : Parser α) := fun ts => List.suffix_refl ts

theorem fail (cause : Cause) : LeavesSuffix (fail cause : Parser α) :=
  fun ts => List.suffix_refl ts

theorem complain (c : Complaint) : LeavesSuffix (complain c) := fun ts => List.suffix_refl ts

theorem bind {p : Parser α} {next : α → Parser β} (h : LeavesSuffix p)
    (hnext : ∀ value, LeavesSuffix (next value)) : LeavesSuffix (p >>= next) :=
  fun ts => Reply.suffix_bind (h ts) fun value rest _ => hnext value rest

theorem map {p : Parser α} (f : α → β) (h : LeavesSuffix p) : LeavesSuffix (f <$> p) :=
  h.bind fun _ => pure _

theorem lookahead {fits : Kind → Prop} [DecidablePred fits] {next : Token → Parser α}
    {other : Parser α} (hnext : ∀ t, LeavesSuffix (next t)) (hother : LeavesSuffix other) :
    LeavesSuffix (lookahead fits next other) := by
  intro ts
  cases ts with
  | nil => exact hother []
  | cons t ts =>
    rw [lookahead_cons]
    split
    · exact (hnext t ts).trans (List.suffix_cons t ts)
    · exact hother (t :: ts)

theorem expect (kind : Kind) (cause : Cause) : LeavesSuffix (expect kind cause) := by
  rw [expect_eq]
  exact lookahead (fun _ => pure _) (fail cause)

end LeavesSuffix

/-! ### Expressions -/

section
variable {operand expression value : Rule Expr}

theorem leavesSuffix_chainFrom (isOperator : Kind → Bool) (h : LeavesSuffix operand.parse)
    (left : Expr) : LeavesSuffix (chainFrom isOperator operand left) := by
  intro ts
  -- every operand shortens what is left
  induction hn : ts.length using Nat.strongRecOn generalizing ts left with
  | _ n ih =>
    cases ts with
    | nil =>
      rw [chainFrom_nil]
      exact List.suffix_refl []
    | cons op ts =>
      rw [chainFrom_cons]
      split
      · have suffix : ((operand.parse ts).bind fun right rest =>
            chainFrom isOperator operand (.binary left op right) rest).outcome.rest <:+ ts := by
          refine Reply.suffix_bind (h ts) fun right rest done => ?_
          have shorter := operand.length_le_of_done done
          refine ih rest.length ?_ _ rest rfl
          rw [← hn, List.length_cons]
          omega
        exact suffix.trans (List.suffix_cons op ts)
      · exact List.suffix_refl (op :: ts)

theorem leavesSuffix_chain (isOperator : Kind → Bool) (h : LeavesSuffix operand.parse) :
    LeavesSuffix (chain isOperator operand) :=
  h.bind fun left => leavesSuffix_chainFrom isOperator h left

theorem leavesSuffix_primary (h : LeavesSuffix expression.parse) :
    LeavesSuffix (primary expression) := by
  rw [primary_eq]
  refine .lookahead (fun _ => .pure _) (.lookahead (fun _ => .pure _) ?_)
  refine .lookahead (fun _ => h.bind fun _ => ?_) (.fail _)
  exact (LeavesSuffix.expect _ _).bind fun _ => .pure _

theorem leavesSuffix_unary (hoperand : LeavesSuffix operand.parse)
    (h : LeavesSuffix expression.parse) : LeavesSuffix (unary operand expression) := by
  rw [unary_eq]
  exact .lookahead (fun _ => hoperand.bind fun _ => .pure _) (leavesSuffix_primary h)

theorem leavesSuffix_assignTo (equals : Token) (target v : Expr) :
    LeavesSuffix (assignTo equals target v) := by
  unfold assignTo
  split
  · exact .pure _
  · exact (LeavesSuffix.complain _).bind fun _ => .pure _

theorem leavesSuffix_assignmentFrom (h : LeavesSuffix value.parse) (target : Expr) :
    LeavesSuffix (assignmentFrom value target) := by
  rw [assignmentFrom_eq]
  exact .lookahead (fun _ => h.bind fun _ => leavesSuffix_assignTo _ _ _) (.pure target)

theorem leavesSuffix_assignment (h : LeavesSuffix operand.parse)
    (hvalue : LeavesSuffix value.parse) : LeavesSuffix (assignment operand value) :=
  h.bind fun target => leavesSuffix_assignmentFrom hvalue target

end

/-! ### Statements -/

section
variable {expression : Rule Expr} {inner : Rule Stmt} {declaration : Rule (Option Stmt)}

theorem leavesSuffix_terminated (cause : Cause) (h : LeavesSuffix expression.parse) :
    LeavesSuffix (terminated expression cause) :=
  h.bind fun _ => (LeavesSuffix.expect _ _).bind fun _ => .pure _

theorem leavesSuffix_condition (opening closing : Cause) (h : LeavesSuffix expression.parse) :
    LeavesSuffix (condition expression opening closing) :=
  (LeavesSuffix.expect _ _).bind fun _ => h.bind fun _ => (LeavesSuffix.expect _ _).bind fun _ =>
    .pure _

theorem leavesSuffix_optional (h : LeavesSuffix expression.parse) :
    LeavesSuffix (varDeclaration.optional expression) := by
  rw [optional_eq]
  exact .lookahead (fun _ => h.bind fun _ => .pure _) (.pure none)

theorem leavesSuffix_varDeclaration (h : LeavesSuffix expression.parse) :
    LeavesSuffix (varDeclaration expression) :=
  (LeavesSuffix.expect _ _).bind fun _ => (leavesSuffix_optional h).bind fun _ =>
    (LeavesSuffix.expect _ _).bind fun _ => .pure _

theorem leavesSuffix_declarations (closes : Kind → Bool) (h : LeavesSuffix declaration.parse) :
    LeavesSuffix (declarations closes declaration) := by
  intro ts
  induction hn : ts.length using Nat.strongRecOn generalizing ts with
  | _ n ih =>
    cases ts with
    | nil =>
      rw [declarations_nil]
      exact List.suffix_refl []
    | cons t ts =>
      rw [declarations_cons]
      split
      · exact List.suffix_refl (t :: ts)
      · refine Reply.suffix_bind (h (t :: ts)) fun s rest done => ?_
        have shorter := (Rule.suffix_tail h done).length_le
        refine Reply.suffix_bind (ih rest.length ?_ rest rfl) fun ss rest _ => List.suffix_refl rest
        rw [← hn, List.length_cons]
        omega

theorem leavesSuffix_block (h : LeavesSuffix declaration.parse) :
    LeavesSuffix (block declaration) :=
  (leavesSuffix_declarations _ h).bind fun _ => (LeavesSuffix.expect _ _).bind fun _ => .pure _

theorem leavesSuffix_elseFrom (c : Expr) (yes : Stmt) (hs : LeavesSuffix inner.parse) :
    LeavesSuffix (elseFrom inner c yes) := by
  rw [elseFrom_eq]
  exact .lookahead (fun _ => hs.bind fun _ => .pure _) (.pure _)

theorem leavesSuffix_conditional (h : LeavesSuffix expression.parse)
    (hs : LeavesSuffix inner.parse) : LeavesSuffix (conditional expression inner) :=
  (leavesSuffix_condition _ _ h).bind fun c => hs.bind fun yes => leavesSuffix_elseFrom c yes hs

theorem leavesSuffix_loop (h : LeavesSuffix expression.parse) (hs : LeavesSuffix inner.parse) :
    LeavesSuffix (loop expression inner) :=
  (leavesSuffix_condition _ _ h).bind fun _ => hs.bind fun _ => .pure _

theorem leavesSuffix_statement (h : LeavesSuffix expression.parse) (hs : LeavesSuffix inner.parse)
    (hd : LeavesSuffix declaration.parse) :
    LeavesSuffix (statement expression inner declaration) := by
  rw [statement_eq]
  refine .lookahead (fun _ => (leavesSuffix_terminated _ h).map _) ?_
  refine .lookahead (fun _ => leavesSuffix_block hd) ?_
  refine .lookahead (fun _ => leavesSuffix_conditional h hs) ?_
  exact .lookahead (fun _ => leavesSuffix_loop h hs) ((leavesSuffix_terminated _ h).map _)

theorem leavesSuffix_declared (h : LeavesSuffix expression.parse) (hs : LeavesSuffix inner.parse) :
    LeavesSuffix (declared expression inner) := by
  rw [declared_eq]
  exact .lookahead (fun _ => leavesSuffix_varDeclaration h) hs

end

/-! ### Recovery -/

theorem dropToStart_suffix (last : Token) (ts : List Token) : dropToStart last ts <:+ ts := by
  induction ts generalizing last with
  | nil => exact List.suffix_refl []
  | cons t ts ih =>
    simp only [dropToStart]
    split
    · exact List.suffix_refl (t :: ts)
    · exact (ih t).trans (List.suffix_cons t ts)

/-- Recovery drops tokens from the front, the first in any case. -/
theorem synchronize_suffix (ts : List Token) : synchronize ts <:+ ts.tail := by
  cases ts with
  | nil => exact List.suffix_refl []
  | cons t ts => exact dropToStart_suffix t ts

theorem leavesSuffix_recovering {p : Parser Stmt} (h : LeavesSuffix p) :
    LeavesSuffix (recovering p) := by
  intro ts
  have suffix := h ts
  unfold recovering
  split
  next reply => rw [reply] at suffix; exact suffix
  next complaints cause rest reply =>
    rw [reply] at suffix
    exact ((synchronize_suffix rest).trans (List.tail_suffix rest)).trans suffix
  next reply => rw [reply] at suffix; exact suffix

/-! ### Grammars -/

namespace Grammar

/-- All rules of the grammar leave the end of what they are given. -/
structure LeavesSuffix (g : Grammar) : Prop where
  unary : Parser.LeavesSuffix g.unary.parse
  expression : Parser.LeavesSuffix g.expression.parse
  statement : Parser.LeavesSuffix g.statement.parse
  declaration : Parser.LeavesSuffix g.declaration.parse

theorem leavesSuffix_exhausted : exhausted.LeavesSuffix := by
  refine ⟨?_, ?_, ?_, ?_⟩ <;> exact fun ts => List.suffix_refl ts

theorem LeavesSuffix.extend {g : Grammar} (h : g.LeavesSuffix) : g.extend.LeavesSuffix := by
  have unary : Parser.LeavesSuffix g.extend.unary.parse := by
    rw [extend_unary]
    exact leavesSuffix_unary h.unary h.expression
  have factor : Parser.LeavesSuffix g.factor.parse := leavesSuffix_chain isFactor unary
  have term : Parser.LeavesSuffix g.term.parse := leavesSuffix_chain isTerm factor
  have comparison : Parser.LeavesSuffix g.comparison.parse := leavesSuffix_chain isComparison term
  have equality : Parser.LeavesSuffix g.equality.parse := leavesSuffix_chain isEquality comparison
  have expression : Parser.LeavesSuffix g.extend.expression.parse := by
    rw [extend_expression]
    exact leavesSuffix_assignment equality h.expression
  have statement : Parser.LeavesSuffix g.extend.statement.parse := by
    rw [extend_statement]
    exact leavesSuffix_statement expression h.statement h.declaration
  refine ⟨unary, expression, statement, ?_⟩
  rw [extend_declaration]
  exact leavesSuffix_recovering (leavesSuffix_declared expression statement)

/-- **The rules at every depth leave the end of what they are given.** -/
theorem leavesSuffix_ofDepth (depth : Nat) : (ofDepth depth).LeavesSuffix := by
  induction depth with
  | zero => exact leavesSuffix_exhausted
  | succ depth ih => exact ih.extend

end Grammar

/-! ### Whole programs -/

/-- A declaration has a value, if only that there is no statement, or it nests too deep. -/
theorem Grammar.declaration_ends (depth : Nat) (ts : List Token) :
    (∃ o rest, ((ofDepth depth).declaration.parse ts).outcome = .done o rest) ∨
      ((ofDepth depth).declaration.parse ts).TooDeep := by
  cases depth with
  | zero => exact .inr ⟨ts, rfl⟩
  | succ depth =>
    rw [ofDepth, extend_declaration]
    unfold recovering
    split
    · exact .inl ⟨_, _, rfl⟩
    · exact .inl ⟨_, _, rfl⟩
    · exact .inr ⟨_, rfl⟩

/-- **A program is read to its end**, or it nests too deep. -/
theorem program_ends (depth : Nat) (ts : List Token) :
    (∃ ss, (Parsed.program depth ts).outcome = .done ss []) ∨
      (Parsed.program depth ts).TooDeep := by
  unfold Parsed.program
  -- each declaration shortens what is left
  induction hn : ts.length using Nat.strongRecOn generalizing ts with
  | _ n ih =>
    cases ts with
    | nil =>
      rw [declarations_nil]
      exact .inl ⟨[], rfl⟩
    | cons t ts =>
      rw [declarations_cons, if_neg Bool.false_ne_true]
      rcases Grammar.declaration_ends depth (t :: ts) with ⟨o, rest, done⟩ | deep
      · have shorter := Rule.length_le_of_done _ done
        rw [Reply.TooDeep, Reply.outcome_bind done]
        rcases ih rest.length (by rw [← hn]; simp only [List.length_cons] at shorter ⊢; omega)
          rest rfl with ⟨ss, done'⟩ | deep
        · exact .inl ⟨o.toList ++ ss, by rw [Reply.outcome_bind done']; rfl⟩
        · exact .inr (deep.bind _)
      · exact .inr (deep.bind _)

end Lox.Parser
