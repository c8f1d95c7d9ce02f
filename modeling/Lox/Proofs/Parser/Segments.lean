import Lox.Lexer
import Lox.Proofs.Parser.RoundTrip
import Lox.Proofs.Parser.Suffix

/-!
# Faults stay in their segment

A program may be cut into segments so that each is parsed as if it stood alone (`ofTokens_flatten`):
nothing in one segment loses a statement of another, adds a complaint there or hides one. A segment
is a row of declarations without fault, or it is `Flat`, with whatever faults: its only semicolon is
at its end, it has no braces, and no statement starts within it.

In a flat segment a parser can see the end coming. An expression goes up to a semicolon and never
over it, so what stands behind does not matter (`UpToSemicolon`). A statement goes through the
semicolon and no further, unless it fails before (`ThroughSemicolon`), and then recovery drops what
is left of the segment, since there is no other place to resume.
-/

namespace Lox

namespace Parser

variable {α β : Type}

/-! ### Replies with more tokens behind -/

/-- The outcome with more tokens behind those left. -/
def Outcome.append (tail : List Token) : Outcome α → Outcome α
  | .done value rest => .done value (rest ++ tail)
  | .failed cause rest => .failed cause (rest ++ tail)
  | .tooDeep rest => .tooDeep (rest ++ tail)

/-- The reply with more tokens behind those left. -/
def Reply.append (r : Reply α) (tail : List Token) : Reply α :=
  ⟨r.complaints, r.outcome.append tail⟩

/-- No complaint is about the end of the program. -/
def Reply.Located (r : Reply α) : Prop := ∀ c ∈ r.complaints, c.blamed ≠ none

/-- The tokens end where a value does and not where a failure is, and no complaint is about their
end. -/
def Reply.EndsAtValue (r : Reply α) : Prop :=
  r.Located ∧ match r.outcome with
    | .done _ rest => rest = []
    | .failed _ rest => rest ≠ []
    | .tooDeep _ => True

namespace Reply

@[simp] theorem append_done (value : α) (rest tail : List Token) :
    (done value rest).append tail = done value (rest ++ tail) := rfl

@[simp] theorem append_failed (cause : Cause) (rest tail : List Token) :
    (failed cause rest : Reply α).append tail = failed cause (rest ++ tail) := rfl

theorem append_append (r : Reply α) (mid tail : List Token) :
    (r.append mid).append tail = r.append (mid ++ tail) := by
  obtain ⟨complaints, outcome⟩ := r
  cases outcome <;> simp [append, Outcome.append]

theorem outcome_append_eq_done {r : Reply α} {tail rest : List Token} {value : α} :
    (r.append tail).outcome = .done value rest ↔
      ∃ mid, r.outcome = .done value mid ∧ rest = mid ++ tail := by
  obtain ⟨complaints, outcome⟩ := r
  cases outcome <;> simp [append, Outcome.append, eq_comm]

/-- Tokens behind stay behind if they do so at the value. -/
theorem bind_append {r : Reply α} {f g : α → List Token → Reply β} {tail : List Token}
    (h : ∀ value rest, r.outcome = .done value rest →
      f value (rest ++ tail) = (g value rest).append tail) :
    (r.append tail).bind f = (r.bind g).append tail := by
  obtain ⟨complaints, outcome⟩ := r
  cases outcome with
  | done value rest => exact congrArg (after complaints) (h value rest rfl)
  | failed cause rest => rfl
  | tooDeep rest => rfl

/-- With tokens behind, a failure is not at the end. -/
theorem ne_nil_of_append_failed {r : Reply α} {t : Token} {tail rest : List Token} {cause : Cause}
    (failed : (r.append (t :: tail)).outcome = .failed cause rest) : rest ≠ [] := by
  obtain ⟨complaints, outcome⟩ := r
  cases outcome with
  | done value mid => cases failed
  | failed cause' mid =>
    cases failed
    simp
  | tooDeep mid => cases failed

theorem after_bind (cs : List Complaint) (r : Reply α) (next : α → List Token → Reply β) :
    (r.after cs).bind next = (r.bind next).after cs := by
  obtain ⟨complaints, outcome⟩ := r
  cases outcome <;> simp [after, bind]

theorem bind_append_bind {γ : Type} {r : Reply α} {f : α → List Token → Reply β}
    {g : β → List Token → Reply γ} {next : α → List Token → Reply γ} {tail : List Token}
    (h : ∀ value rest, r.outcome = .done value rest →
      ((f value rest).append tail).bind g = next value (rest ++ tail)) :
    ((r.bind f).append tail).bind g = (r.append tail).bind next := by
  obtain ⟨complaints, outcome⟩ := r
  cases outcome with
  | done value rest =>
    show (((f value rest).append tail).after complaints).bind g =
      (next value (rest ++ tail)).after complaints
    rw [after_bind, h value rest rfl]
  | failed cause rest => rfl
  | tooDeep rest => rfl

theorem Located.bind {r : Reply α} {next : α → List Token → Reply β} (h : r.Located)
    (hnext : ∀ value rest, r.outcome = .done value rest → (next value rest).Located) :
    (r.bind next).Located := by
  obtain ⟨complaints, outcome⟩ := r
  cases outcome with
  | done value rest => exact List.forall_mem_append.2 ⟨h, hnext value rest rfl⟩
  | failed cause rest => exact h
  | tooDeep rest => exact h

theorem EndsAtValue.bind {r : Reply α} {next : α → List Token → Reply β} (located : r.Located)
    (failed : ∀ cause rest, r.outcome = .failed cause rest → rest ≠ [])
    (hnext : ∀ value rest, r.outcome = .done value rest → (next value rest).EndsAtValue) :
    (r.bind next).EndsAtValue := by
  refine ⟨located.bind fun value rest done => (hnext value rest done).1, ?_⟩
  obtain ⟨complaints, outcome⟩ := r
  cases outcome with
  | done value rest => exact (hnext value rest rfl).2
  | failed cause rest => exact failed cause rest rfl
  | tooDeep rest => trivial

theorem located_done (value : α) (rest : List Token) : (done value rest).Located := by
  simp [Located, done]

theorem located_failed (cause : Cause) (rest : List Token) :
    (failed cause rest : Reply α).Located := by
  simp [Located, failed]

end Reply

/-! ### Up to a semicolon -/

/-- The parser goes up to a semicolon and never over it, as if the tokens ended there. -/
structure UpToSemicolon (p : Parser α) : Prop where
  suffix : LeavesSuffix p
  located : ∀ ts, (p ts).Located
  append_eq : ∀ ts rest {semi : Token}, semi.kind = .semicolon →
    p (ts ++ semi :: rest) = (p ts).append (semi :: rest)

namespace UpToSemicolon

theorem pure (value : α) : UpToSemicolon (pure value : Parser α) where
  suffix := .pure value
  located ts := Reply.located_done value ts
  append_eq _ _ _ _ := rfl

theorem bind {p : Parser α} {next : α → Parser β} (h : UpToSemicolon p)
    (hnext : ∀ value, UpToSemicolon (next value)) : UpToSemicolon (p >>= next) where
  suffix := h.suffix.bind fun value => (hnext value).suffix
  located ts := (h.located ts).bind fun value rest _ => (hnext value).located rest
  append_eq ts rest semi k := by
    rw [bind_apply, bind_apply, h.append_eq ts rest k]
    exact Reply.bind_append fun value mid _ => (hnext value).append_eq mid rest k

theorem fail (cause : Cause) : UpToSemicolon (fail cause : Parser α) where
  suffix := .fail cause
  located ts := Reply.located_failed cause ts
  append_eq _ _ _ _ := rfl

theorem lookahead {fits : Kind → Prop} [DecidablePred fits] {next : Token → Parser α}
    {other : Parser α} (ne : ¬ fits .semicolon) (hnext : ∀ t, UpToSemicolon (next t))
    (hother : UpToSemicolon other) : UpToSemicolon (lookahead fits next other) where
  suffix := .lookahead (fun t => (hnext t).suffix) hother.suffix
  located ts := by
    cases ts with
    | nil => exact hother.located []
    | cons t ts =>
      rw [lookahead_cons]
      split
      · exact (hnext t).located ts
      · exact hother.located (t :: ts)
  append_eq ts rest semi k := by
    cases ts with
    | nil =>
      rw [List.nil_append, lookahead_cons, k, if_neg ne]
      exact hother.append_eq [] rest k
    | cons t ts =>
      rw [List.cons_append, lookahead_cons, lookahead_cons]
      split
      · exact (hnext t).append_eq ts rest k
      · exact hother.append_eq (t :: ts) rest k

theorem expect {kind : Kind} (ne : kind ≠ .semicolon) (cause : Cause) :
    UpToSemicolon (expect kind cause) := by
  rw [expect_eq]
  exact lookahead ne.symm (fun t => pure t) (fail cause)

end UpToSemicolon

/-! ### Expressions -/

section
variable {operand expression value : Rule Expr}

theorem located_chainFrom (isOperator : Kind → Bool) (h : ∀ ts, (operand.parse ts).Located)
    (left : Expr) (ts : List Token) : (chainFrom isOperator operand left ts).Located := by
  -- every operand shortens what is left
  induction hn : ts.length using Nat.strongRecOn generalizing ts left with
  | _ n ih =>
    cases ts with
    | nil =>
      rw [chainFrom_nil]
      exact Reply.located_done left []
    | cons op ts =>
      rw [chainFrom_cons]
      split
      · refine (h ts).bind fun right rest done => ih rest.length ?_ _ rest rfl
        have shorter := operand.length_le_of_done done
        rw [← hn, List.length_cons]
        omega
      · exact Reply.located_done left (op :: ts)

theorem chainFrom_append {isOperator : Kind → Bool} (ne : isOperator .semicolon = false)
    (h : UpToSemicolon operand.parse) (left : Expr) (ts rest : List Token) {semi : Token}
    (k : semi.kind = .semicolon) :
    chainFrom isOperator operand left (ts ++ semi :: rest) =
      (chainFrom isOperator operand left ts).append (semi :: rest) := by
  induction hn : ts.length using Nat.strongRecOn generalizing ts left with
  | _ n ih =>
    cases ts with
    | nil => simp [chainFrom_nil, chainFrom_cons, k, ne]
    | cons op ts =>
      rw [List.cons_append, chainFrom_cons, chainFrom_cons]
      split
      · rw [h.append_eq ts rest k]
        refine Reply.bind_append fun right mid done => ih mid.length ?_ _ mid rfl
        have shorter := operand.length_le_of_done done
        rw [← hn, List.length_cons]
        omega
      · rfl

theorem upToSemicolon_chain {isOperator : Kind → Bool} (ne : isOperator .semicolon = false)
    (h : UpToSemicolon operand.parse) : UpToSemicolon (chain isOperator operand) :=
  h.bind fun left =>
    { suffix := leavesSuffix_chainFrom isOperator h.suffix left
      located := located_chainFrom isOperator h.located left
      append_eq := fun ts rest _ k => chainFrom_append ne h left ts rest k }

theorem upToSemicolon_primary (h : UpToSemicolon expression.parse) :
    UpToSemicolon (primary expression) := by
  rw [primary_eq]
  refine .lookahead (by decide) (fun _ => .pure _) ?_
  refine .lookahead (by decide) (fun _ => .pure _) ?_
  refine .lookahead (by decide) (fun _ => h.bind fun _ => ?_) (.fail _)
  exact (UpToSemicolon.expect (by decide) _).bind fun _ => .pure _

theorem upToSemicolon_unary (hoperand : UpToSemicolon operand.parse)
    (h : UpToSemicolon expression.parse) : UpToSemicolon (unary operand expression) := by
  rw [unary_eq]
  exact .lookahead (by decide) (fun _ => hoperand.bind fun _ => .pure _) (upToSemicolon_primary h)

theorem upToSemicolon_assignTo (equals : Token) (target v : Expr) :
    UpToSemicolon (assignTo equals target v) := by
  unfold assignTo
  split
  · exact .pure _
  · refine UpToSemicolon.bind ⟨.complain _, fun ts => ?_, fun _ _ _ _ => rfl⟩ fun _ => .pure _
    simp [Reply.Located, complain]

theorem upToSemicolon_assignment (h : UpToSemicolon operand.parse)
    (hvalue : UpToSemicolon value.parse) : UpToSemicolon (assignment operand value) := by
  refine h.bind fun target => ?_
  rw [assignmentFrom_eq]
  refine .lookahead (by decide) (fun equals => ?_) (.pure target)
  exact hvalue.bind fun v => upToSemicolon_assignTo equals target v

theorem upToSemicolon_condition (opening closing : Cause) (h : UpToSemicolon expression.parse) :
    UpToSemicolon (condition expression opening closing) :=
  (UpToSemicolon.expect (by decide) _).bind fun _ => h.bind fun _ =>
    (UpToSemicolon.expect (by decide) _).bind fun _ => .pure _

theorem upToSemicolon_optional (h : UpToSemicolon expression.parse) :
    UpToSemicolon (varDeclaration.optional expression) := by
  rw [optional_eq]
  exact .lookahead (by decide) (fun _ => h.bind fun _ => .pure _) (.pure none)

end

/-! ### Through a semicolon -/

/-- The tokens have no semicolon and open no block. -/
def Plain (ts : List Token) : Prop := ∀ t ∈ ts, t.kind ≠ .semicolon ∧ t.kind ≠ .leftBrace

theorem Plain.of_suffix {ts rest : List Token} (h : Plain ts) (suffix : rest <:+ ts) :
    Plain rest :=
  fun t mem => h t (suffix.subset mem)

/-- No `else` follows. -/
def NotElse (rest : List Token) : Prop := ∀ t ∈ rest.head?, t.kind ≠ .kwElse

/-- Given plain tokens up to a semicolon, the parser goes through the semicolon and no further, as
if the tokens ended there. It does not fail behind it. -/
structure ThroughSemicolon (p : Parser α) : Prop where
  ends : ∀ ts {semi : Token}, Plain ts → semi.kind = .semicolon → (p (ts ++ [semi])).EndsAtValue
  append_eq : ∀ ts rest {semi : Token}, Plain ts → semi.kind = .semicolon → NotElse rest →
    p (ts ++ semi :: rest) = (p (ts ++ [semi])).append rest

namespace ThroughSemicolon

/-- What goes up to the semicolon may come first. -/
theorem after_upTo {p : Parser α} {next : α → Parser β} (h : UpToSemicolon p)
    (hnext : ∀ value, ThroughSemicolon (next value)) : ThroughSemicolon (p >>= next) := by
  -- what is left at the value is plain again up to the same semicolon
  have plain_mid {ts mid : List Token} {value : α} (plain : Plain ts)
      (done : (p ts).outcome = .done value mid) : Plain mid := by
    have suffix := h.suffix ts
    rw [done] at suffix
    exact plain.of_suffix suffix
  refine ⟨fun ts semi plain k => ?_, fun ts rest semi plain k notElse => ?_⟩
  · rw [bind_apply, h.append_eq ts [] k]
    refine Reply.EndsAtValue.bind (h.located ts) ?_ fun value left done => ?_
    · exact fun cause left failed => Reply.ne_nil_of_append_failed failed
    · obtain ⟨mid, read, rfl⟩ := Reply.outcome_append_eq_done.1 done
      exact (hnext value).ends mid (plain_mid plain read) k
  · rw [bind_apply, bind_apply, h.append_eq ts rest k, h.append_eq ts [] k,
      show semi :: rest = [semi] ++ rest from rfl, ← Reply.append_append]
    refine Reply.bind_append fun value left done => ?_
    obtain ⟨mid, read, rfl⟩ := Reply.outcome_append_eq_done.1 done
    rw [List.append_assoc]
    exact (hnext value).append_eq mid rest (plain_mid plain read) k notElse

/-- What reads nothing but an `else` may come last. -/
theorem bind {p : Parser α} {next : α → Parser β} {f : α → β} (h : ThroughSemicolon p)
    (hnext : ∀ value rest, NotElse rest → next value rest = .done (f value) rest) :
    ThroughSemicolon (p >>= next) := by
  have nothing : NotElse [] := by simp [NotElse]
  refine ⟨fun ts semi plain k => ?_, fun ts rest semi plain k notElse => ?_⟩
  · obtain ⟨located, atEnd⟩ := h.ends ts plain k
    refine Reply.EndsAtValue.bind located ?_ fun value left done => ?_
    · intro cause left failed
      rw [failed] at atEnd
      exact atEnd
    · rw [done] at atEnd
      rw [show left = [] from atEnd, hnext value [] nothing]
      exact ⟨Reply.located_done _ _, rfl⟩
  · rw [bind_apply, bind_apply, h.append_eq ts rest plain k notElse]
    refine Reply.bind_append fun value left done => ?_
    have atEnd := (h.ends ts plain k).2
    rw [done] at atEnd
    rw [show left = [] from atEnd, List.nil_append, hnext value rest notElse,
      hnext value [] nothing, Reply.append_done, List.nil_append]

theorem map {p : Parser α} (f : α → β) (h : ThroughSemicolon p) : ThroughSemicolon (f <$> p) :=
  h.bind fun _ _ _ => rfl

theorem expect (cause : Cause) : ThroughSemicolon (expect .semicolon cause) := by
  refine ⟨fun ts semi plain k => ?_, fun ts rest semi plain k _ => ?_⟩
  · cases ts with
    | nil =>
      simp only [List.nil_append, Parser.expect, if_pos k]
      exact ⟨Reply.located_done _ _, rfl⟩
    | cons t ts =>
      simp only [List.cons_append, Parser.expect, if_neg (plain t List.mem_cons_self).1]
      exact ⟨Reply.located_failed _ _, List.cons_ne_nil _ _⟩
  · cases ts with
    | nil => simp [Parser.expect, k]
    | cons t ts => simp [Parser.expect, (plain t List.mem_cons_self).1]

theorem lookahead {fits : Kind → Prop} [DecidablePred fits] {next : Token → Parser α}
    {other : Parser α} (ne : ¬ fits .semicolon)
    (hnext : ∀ t, fits t.kind → t.kind ≠ .leftBrace → ThroughSemicolon (next t))
    (hother : ThroughSemicolon other) : ThroughSemicolon (lookahead fits next other) := by
  refine ⟨fun ts semi plain k => ?_, fun ts rest semi plain k notElse => ?_⟩
  · cases ts with
    | nil =>
      rw [List.nil_append, lookahead_cons, k, if_neg ne]
      exact hother.ends [] plain k
    | cons t ts =>
      obtain ⟨head, tail⟩ := List.forall_mem_cons.1 plain
      rw [List.cons_append, lookahead_cons]
      split
      next fit => exact (hnext t fit head.2).ends ts tail k
      next => exact hother.ends (t :: ts) plain k
  · cases ts with
    | nil =>
      rw [List.nil_append, List.nil_append, lookahead_cons, lookahead_cons, k, if_neg ne, if_neg ne]
      exact hother.append_eq [] rest plain k notElse
    | cons t ts =>
      obtain ⟨head, tail⟩ := List.forall_mem_cons.1 plain
      rw [List.cons_append, List.cons_append, lookahead_cons, lookahead_cons]
      split
      next fit => exact (hnext t fit head.2).append_eq ts rest tail k notElse
      next => exact hother.append_eq (t :: ts) rest plain k notElse

end ThroughSemicolon

/-! ### Statements -/

section
variable {expression : Rule Expr} {inner : Rule Stmt} {declaration : Rule (Option Stmt)}

theorem throughSemicolon_terminated (cause : Cause) (h : UpToSemicolon expression.parse) :
    ThroughSemicolon (terminated expression cause) :=
  .after_upTo h fun _ => (ThroughSemicolon.expect cause).bind fun _ _ _ => rfl

theorem throughSemicolon_varDeclaration (h : UpToSemicolon expression.parse) :
    ThroughSemicolon (varDeclaration expression) := by
  refine .after_upTo (.expect (by decide) _) fun name => ?_
  refine .after_upTo (upToSemicolon_optional h) fun initializer => ?_
  exact (ThroughSemicolon.expect _).bind fun _ _ _ => rfl

theorem throughSemicolon_conditional (h : UpToSemicolon expression.parse)
    (hs : ThroughSemicolon inner.parse) : ThroughSemicolon (conditional expression inner) := by
  refine .after_upTo (upToSemicolon_condition _ _ h) fun c => ?_
  refine hs.bind (f := Stmt.ifThen c) fun yes rest notElse => ?_
  cases rest with
  | nil => rfl
  | cons t rest => exact if_neg (notElse t rfl)

theorem throughSemicolon_loop (h : UpToSemicolon expression.parse)
    (hs : ThroughSemicolon inner.parse) : ThroughSemicolon (loop expression inner) :=
  .after_upTo (upToSemicolon_condition _ _ h) fun _ => hs.bind fun _ _ _ => rfl

theorem throughSemicolon_statement (h : UpToSemicolon expression.parse)
    (hs : ThroughSemicolon inner.parse) :
    ThroughSemicolon (statement expression inner declaration) := by
  rw [statement_eq]
  refine .lookahead (by decide) (fun _ _ _ => (throughSemicolon_terminated _ h).map _) ?_
  refine .lookahead (by decide) (fun _ brace ne => absurd brace ne) ?_
  refine .lookahead (by decide) (fun _ _ _ => throughSemicolon_conditional h hs) ?_
  refine .lookahead (by decide) (fun _ _ _ => throughSemicolon_loop h hs) ?_
  exact (throughSemicolon_terminated _ h).map _

theorem throughSemicolon_declared (h : UpToSemicolon expression.parse)
    (hs : ThroughSemicolon inner.parse) : ThroughSemicolon (declared expression inner) := by
  rw [declared_eq]
  exact .lookahead (by decide) (fun _ _ _ => throughSemicolon_varDeclaration h) hs

end

/-! ### Grammars -/

/-- Expressions of the grammar go up to a semicolon, statements through it. -/
structure Grammar.Punctual (g : Grammar) : Prop where
  unary : UpToSemicolon g.unary.parse
  expression : UpToSemicolon g.expression.parse
  statement : ThroughSemicolon g.statement.parse

namespace Grammar

theorem punctual_exhausted : exhausted.Punctual := by
  have located {α : Type} (ts : List Token) : (Rule.tooDeep.parse ts : Reply α).Located := by
    simp [Reply.Located, Rule.tooDeep]
  have upTo {α : Type} : UpToSemicolon (Rule.tooDeep.parse : Parser α) :=
    ⟨fun ts => List.suffix_refl ts, located, fun _ _ _ _ => rfl⟩
  refine ⟨upTo, upTo, fun ts semi _ _ => ⟨located _, trivial⟩, fun ts rest semi _ _ _ => ?_⟩
  show (⟨[], .tooDeep (ts ++ semi :: rest)⟩ : Reply Stmt) = ⟨[], .tooDeep ((ts ++ [semi]) ++ rest)⟩
  rw [List.append_assoc]
  rfl

theorem Punctual.extend_expression {g : Grammar} (h : g.Punctual) :
    UpToSemicolon g.extend.expression.parse := by
  have unary : UpToSemicolon g.extend.unary.parse := by
    rw [extend_unary]
    exact upToSemicolon_unary h.unary h.expression
  have factor : UpToSemicolon g.factor.parse := upToSemicolon_chain (by rfl) unary
  have term : UpToSemicolon g.term.parse := upToSemicolon_chain (by rfl) factor
  have comparison : UpToSemicolon g.comparison.parse := upToSemicolon_chain (by rfl) term
  have equality : UpToSemicolon g.equality.parse := upToSemicolon_chain (by rfl) comparison
  rw [Grammar.extend_expression]
  exact upToSemicolon_assignment equality h.expression

theorem Punctual.extend {g : Grammar} (h : g.Punctual) : g.extend.Punctual := by
  refine ⟨?_, h.extend_expression, ?_⟩
  · rw [extend_unary]
    exact upToSemicolon_unary h.unary h.expression
  · rw [extend_statement]
    exact throughSemicolon_statement h.extend_expression h.statement

theorem punctual_ofDepth (depth : Nat) : (ofDepth depth).Punctual := by
  induction depth with
  | zero => exact punctual_exhausted
  | succ depth ih => exact ih.extend

end Grammar

/-! ### Flat segments -/

/-- The last token is the only semicolon, there are no braces, and no statement starts within. -/
structure Flat (ts : List Token) : Prop where
  last : ∃ t ∈ ts.getLast?, t.kind = .semicolon
  only : ∀ t ∈ ts.dropLast, t.kind ≠ .semicolon
  no_braces : ∀ t ∈ ts, t.kind ≠ .leftBrace ∧ t.kind ≠ .rightBrace
  no_start : ∀ t ∈ ts.tail, startsStatement t.kind = false

instance (ts : List Token) : Decidable (Flat ts) :=
  decidable_of_iff ((∃ t ∈ ts.getLast?, t.kind = .semicolon)
    ∧ (∀ t ∈ ts.dropLast, t.kind ≠ .semicolon)
    ∧ (∀ t ∈ ts, t.kind ≠ .leftBrace ∧ t.kind ≠ .rightBrace)
    ∧ ∀ t ∈ ts.tail, startsStatement t.kind = false)
    ⟨fun ⟨last, only, no_braces, no_start⟩ => ⟨last, only, no_braces, no_start⟩,
      fun ⟨last, only, no_braces, no_start⟩ => ⟨last, only, no_braces, no_start⟩⟩

theorem Flat.exists_semicolon {ts : List Token} (h : Flat ts) :
    ∃ init semi, ts = init ++ [semi] ∧ semi.kind = .semicolon ∧
      ∀ t ∈ init, t.kind ≠ .semicolon := by
  obtain ⟨semi, mem, k⟩ := h.last
  have eq : ts = ts.dropLast ++ [semi] := (List.dropLast_append_getLast? semi mem).symm
  exact ⟨ts.dropLast, semi, eq, k, h.only⟩

theorem tail_suffix_tail {ts rest : List Token} (suffix : rest <:+ ts) :
    rest.tail <:+ ts.tail := by
  obtain ⟨front, rfl⟩ := suffix
  cases front with
  | nil => exact List.suffix_refl rest.tail
  | cons t front => exact (List.tail_suffix rest).trans (List.suffix_append front rest)

theorem Flat.ne_nil {ts : List Token} (h : Flat ts) : ts ≠ [] := by
  obtain ⟨init, semi, rfl, -⟩ := h.exists_semicolon
  simp

theorem Flat.of_suffix {ts rest : List Token} (h : Flat ts) (suffix : rest <:+ ts)
    (ne : rest ≠ []) : Flat rest := by
  have no_start (t : Token) (mem : t ∈ rest.tail) : startsStatement t.kind = false :=
    h.no_start t ((tail_suffix_tail suffix).subset mem)
  have no_braces (t : Token) (mem : t ∈ rest) := h.no_braces t (suffix.subset mem)
  obtain ⟨init, semi, rfl, k, only⟩ := h.exists_semicolon
  rcases List.suffix_concat_iff.1 suffix with empty | ⟨mid, rfl, mid_suffix⟩
  · exact absurd empty ne
  · have only_mid (t : Token) (mem : t ∈ mid) := only t (mid_suffix.subset mem)
    exact ⟨by simpa using k, by simpa using only_mid, no_braces, no_start⟩

theorem dropToStart_semicolon {semi : Token} (k : semi.kind = .semicolon) (ts : List Token) :
    dropToStart semi ts = ts := by
  cases ts with
  | nil => rfl
  | cons t ts => simp [dropToStart, k]

theorem dropToStart_append {last semi : Token} {ts : List Token} (rest : List Token)
    (hlast : last.kind ≠ .semicolon) (only : ∀ t ∈ ts, t.kind ≠ .semicolon)
    (no_start : ∀ t ∈ ts, startsStatement t.kind = false) (k : semi.kind = .semicolon) :
    dropToStart last (ts ++ semi :: rest) = rest := by
  induction ts generalizing last with
  | nil => simp [dropToStart, hlast, k, startsStatement, dropToStart_semicolon k]
  | cons t ts ih =>
    obtain ⟨ht, hts⟩ := List.forall_mem_cons.1 only
    obtain ⟨st, sts⟩ := List.forall_mem_cons.1 no_start
    simp only [List.cons_append, dropToStart, hlast, st, decide_false, Bool.or_self]
    exact ih ht hts sts

/-- Recovery in a flat segment drops what is left of it and nothing more. -/
theorem Flat.synchronize_append {ts : List Token} (h : Flat ts) (rest : List Token) :
    synchronize (ts ++ rest) = rest := by
  obtain ⟨init, semi, rfl, k, only⟩ := h.exists_semicolon
  rw [List.append_assoc]
  cases init with
  | nil => exact dropToStart_semicolon k rest
  | cons t init =>
    obtain ⟨ht, hinit⟩ := List.forall_mem_cons.1 only
    have no_start : ∀ u ∈ init, startsStatement u.kind = false :=
      fun u mem => h.no_start u (List.mem_append_left _ mem)
    exact dropToStart_append rest ht hinit no_start k

/-- The parser reads a flat segment as if it stood alone. -/
def IsolatesFlat (p : Parser α) : Prop :=
  ∀ ts, Flat ts → (p ts).EndsAtValue ∧ ∀ rest, NotElse rest → p (ts ++ rest) = (p ts).append rest

theorem isolatesFlat_recovering {p : Parser Stmt} (h : ThroughSemicolon p)
    (leaves : LeavesSuffix p) : IsolatesFlat (recovering p) := by
  intro ts flat
  obtain ⟨init, semi, eq, k, only⟩ := flat.exists_semicolon
  have plain : Plain init := by
    intro t mem
    have inside : t ∈ ts := eq ▸ List.mem_append_left _ mem
    exact ⟨only t mem, (flat.no_braces t inside).1⟩
  have ends : (p ts).EndsAtValue := eq ▸ h.ends init plain k
  have append_eq (rest : List Token) (notElse : NotElse rest) :
      p (ts ++ rest) = (p ts).append rest := by
    rw [eq, List.append_assoc]
    exact h.append_eq init rest plain k notElse
  have suffix := leaves ts
  obtain ⟨complaints, outcome, reply⟩ : ∃ cs o, p ts = ⟨cs, o⟩ := ⟨_, _, rfl⟩
  rw [reply] at ends suffix append_eq
  obtain ⟨located, atEnd⟩ := ends
  cases outcome with
  | done s left =>
    have empty : left = [] := atEnd
    subst empty
    refine ⟨by simp only [recovering, reply]; exact ⟨located, rfl⟩, fun rest notElse => ?_⟩
    simp [recovering, reply, append_eq rest notElse, Reply.append, Outcome.append]
  | failed cause left =>
    have sync (rest : List Token) : synchronize (left ++ rest) = rest :=
      (flat.of_suffix suffix atEnd).synchronize_append rest
    obtain ⟨t, left, rfl⟩ := List.exists_cons_of_ne_nil atEnd
    have nothing_left : synchronize (t :: left) = [] := by simpa using sync []
    refine ⟨?_, fun rest notElse => ?_⟩
    · simp only [recovering, reply, nothing_left]
      exact ⟨List.forall_mem_append.2 ⟨located, by simp⟩, rfl⟩
    · have rest_left : synchronize (t :: (left ++ rest)) = rest := sync rest
      simp [recovering, reply, append_eq rest notElse, Reply.append, Outcome.append, nothing_left,
        rest_left]
  | tooDeep left =>
    refine ⟨by simp only [recovering, reply]; exact ⟨located, trivial⟩, fun rest notElse => ?_⟩
    simp [recovering, reply, append_eq rest notElse, Reply.append, Outcome.append]

theorem Grammar.isolatesFlat_declaration (depth : Nat) :
    IsolatesFlat (ofDepth depth).declaration.parse := by
  cases depth with
  | zero =>
    refine fun ts _ => ⟨⟨?_, trivial⟩, fun rest _ => rfl⟩
    exact fun c mem => nomatch mem
  | succ depth =>
    have punctual := punctual_ofDepth depth
    have leaves := (leavesSuffix_ofDepth (depth + 1))
    rw [ofDepth, extend_declaration]
    refine isolatesFlat_recovering ?_ (leavesSuffix_declared leaves.expression leaves.statement)
    exact throughSemicolon_declared punctual.extend_expression punctual.extend.statement

/-! ### Segments of a program -/

/-- A program with these tokens in front is read as if they stood alone, and then goes on. -/
structure Isolated (depth : Nat) (ts : List Token) : Prop where
  located : (Parsed.program depth ts).Located
  append_eq : ∀ rest, NotElse rest → Parsed.program depth (ts ++ rest) =
    ((Parsed.program depth ts).append rest).bind fun ss left =>
      (Parsed.program depth left).bind fun rs left => .done (ss ++ rs) left

theorem isolated_of_flat (depth : Nat) {ts : List Token} (flat : Flat ts) : Isolated depth ts := by
  obtain ⟨⟨located, atEnd⟩, append_eq⟩ := Grammar.isolatesFlat_declaration depth ts flat
  obtain ⟨t, us, rfl⟩ := List.exists_cons_of_ne_nil flat.ne_nil
  have program_nil : Parsed.program depth [] = .done [] [] := declarations_nil _ _
  have program_cons (ts : List Token) : Parsed.program depth (t :: ts) =
      ((Grammar.ofDepth depth).declaration.parse (t :: ts)).bind fun o left =>
        (Parsed.program depth left).bind fun ss left => .done (o.toList ++ ss) left :=
    declarations_cons _ _ t ts
  have at_value {o : Option Stmt} {left : List Token}
      (done : ((Grammar.ofDepth depth).declaration.parse (t :: us)).outcome = .done o left) :
      left = [] := by
    rw [done] at atEnd
    exact atEnd
  refine ⟨?_, fun rest notElse => ?_⟩
  · rw [program_cons]
    refine located.bind fun o left done => ?_
    rw [at_value done, program_nil]
    exact Reply.located_done _ []
  · have read := append_eq rest notElse
    rw [List.cons_append] at read ⊢
    rw [program_cons, program_cons, read]
    -- once the declaration is read, both sides go on with what follows the segment
    refine (Reply.bind_append_bind fun o left done => ?_).symm
    rw [at_value done, program_nil]
    simp only [Reply.bind_done, Reply.append_done, List.nil_append, List.append_nil]

theorem isolated_of_done {depth : Nat} {ts : List Token} {ss : List Stmt}
    (done : Parsed.program depth ts = .done ss []) : Isolated depth ts := by
  have readsDeclarations := (Grammar.readsWithin_ofDepth depth).declaration
  obtain ⟨fits, wellFormed, nesting_le, -⟩ := Parsed.program_eq_done.1 done
  refine ⟨done ▸ Reply.located_done ss [], fun rest notElse => ?_⟩
  have reads : Reads (Stmt.flattenAll ss) (ts ++ rest) rest := reads_iff.2 ⟨ts, rfl, fits⟩
  rw [done]
  exact declarations_of_reads readsDeclarations closesRow_never reads wellFormed nesting_le notElse

theorem Isolated.tooDeep_append {depth : Nat} {ts rest : List Token} (h : Isolated depth ts)
    (notElse : NotElse rest) : (Parsed.program depth (ts ++ rest)).TooDeep ↔
      (Parsed.program depth ts).TooDeep ∨ (Parsed.program depth rest).TooDeep := by
  rw [h.append_eq rest notElse]
  rcases program_ends depth ts with ⟨ss, done⟩ | deep
  · have done_append : ((Parsed.program depth ts).append rest).outcome = .done ss rest :=
      Reply.outcome_append_eq_done.2 ⟨[], done, rfl⟩
    rw [Reply.TooDeep, Reply.outcome_bind done_append]
    rcases program_ends depth rest with ⟨rs, done'⟩ | deep
    · rw [Reply.outcome_bind done']
      simp [Reply.TooDeep, done, done', Reply.done]
    · exact ⟨fun _ => .inr deep, fun _ => deep.bind _⟩
  · obtain ⟨left, eq⟩ := deep
    have deep_append : ((Parsed.program depth ts).append rest).TooDeep := by
      refine ⟨left ++ rest, ?_⟩
      show (Parsed.program depth ts).outcome.append rest = _
      rw [eq]
      rfl
    exact ⟨fun _ => .inl ⟨left, eq⟩, fun _ => deep_append.bind _⟩

theorem Isolated.program_append {depth : Nat} {ts rest : List Token} (h : Isolated depth ts)
    (notElse : NotElse rest) {cs ds : List Complaint} {ss rs : List Stmt}
    (done : Parsed.program depth ts = ⟨cs, .done ss []⟩)
    (done' : Parsed.program depth rest = ⟨ds, .done rs []⟩) :
    Parsed.program depth (ts ++ rest) = ⟨cs ++ ds, .done (ss ++ rs) []⟩ := by
  rw [h.append_eq rest notElse, done]
  simp [Reply.append, Outcome.append, Reply.bind, Reply.after, Reply.done, done']

end Parser

open Lox.Parser

namespace Parsed

/-- A piece of a program that may be read on its own: it has no end token and does not start with
`else`, and it is read without problems or is flat. -/
structure Segment (depth : Nat) (eof : Token) (ts : List Token) : Prop where
  no_eof : ∀ t ∈ ts, t.kind ≠ .eof
  no_else : ∀ t ∈ ts.head?, t.kind ≠ .kwElse
  clean_or_flat : (ofTokens depth (ts ++ [eof])).diagnostics = [] ∨ Flat ts

instance (depth : Nat) (eof : Token) (ts : List Token) : Decidable (Segment depth eof ts) :=
  decidable_of_iff ((∀ t ∈ ts, t.kind ≠ .eof) ∧ (∀ t ∈ ts.head?, t.kind ≠ .kwElse)
    ∧ ((ofTokens depth (ts ++ [eof])).diagnostics = [] ∨ Flat ts))
    ⟨fun ⟨no_eof, no_else, clean_or_flat⟩ => ⟨no_eof, no_else, clean_or_flat⟩,
      fun ⟨no_eof, no_else, clean_or_flat⟩ => ⟨no_eof, no_else, clean_or_flat⟩⟩

variable {depth : Nat} {eof : Token}

theorem Segment.isolated {ts : List Token} (h : Segment depth eof ts) (heof : eof.kind = .eof) :
    Isolated depth ts := by
  rcases h.clean_or_flat with clean | flat
  · rw [ofTokens, body_append_eof h.no_eof heof] at clean
    obtain ⟨ss, rest, done⟩ := diagnostics_ofReply_eq_nil.1 clean
    obtain ⟨-, -, -, rfl⟩ := program_eq_done.1 done
    exact isolated_of_done done
  · exact isolated_of_flat depth flat

/-! ### Whole programs -/

theorem ofTokens_append_eof {ts : List Token} (no_eof : ∀ t ∈ ts, t.kind ≠ .eof)
    (heof : eof.kind = .eof) : ofTokens depth (ts ++ [eof]) = ofReply eof (program depth ts) := by
  rw [ofTokens, body_append_eof no_eof heof, closing_append_eof no_eof heof]

theorem overflow_ofReply_eq_none {r : Reply (List Stmt)} :
    (ofReply eof r).overflow = none ↔ ¬ r.TooDeep := by
  obtain ⟨complaints, outcome⟩ := r
  cases outcome <;> simp [ofReply, Reply.TooDeep]

/-- A program that does not nest too deep is read to its end. -/
theorem program_eq_of_not_tooDeep {ts : List Token} (h : ¬ (program depth ts).TooDeep)
    (eof : Token) :
    program depth ts =
      ⟨(ofReply eof (program depth ts)).complaints,
        .done (ofReply eof (program depth ts)).statements []⟩ := by
  rcases program_ends depth ts with ⟨ss, done⟩ | deep
  · obtain ⟨complaints, outcome, reply⟩ : ∃ cs o, program depth ts = ⟨cs, o⟩ := ⟨_, _, rfl⟩
    rw [reply] at done ⊢
    have eq : outcome = .done ss [] := done
    rw [eq]
    rfl
  · exact absurd deep h

theorem notElse_flatten {segments : List (List Token)} (h : ∀ ts ∈ segments, NotElse ts) :
    NotElse segments.flatten := by
  induction segments with
  | nil => simp [NotElse]
  | cons ts segments ih =>
    obtain ⟨hts, hsegments⟩ := List.forall_mem_cons.1 h
    cases ts with
    | nil => exact ih hsegments
    | cons t ts => exact hts

theorem tooDeep_flatten {segments : List (List Token)} (h : ∀ ts ∈ segments, Isolated depth ts)
    (notElse : ∀ ts ∈ segments, NotElse ts) :
    (program depth segments.flatten).TooDeep ↔
      ∃ ts ∈ segments, (program depth ts).TooDeep := by
  induction segments with
  | nil =>
    have nothing : program depth [] = .done [] [] := declarations_nil _ _
    simp [nothing, Reply.TooDeep, Reply.done]
  | cons ts segments ih =>
    obtain ⟨hts, hsegments⟩ := List.forall_mem_cons.1 h
    obtain ⟨-, notElse'⟩ := List.forall_mem_cons.1 notElse
    rw [List.flatten_cons, hts.tooDeep_append (notElse_flatten notElse'), ih hsegments notElse']
    simp

theorem program_flatten {segments : List (List Token)} (h : ∀ ts ∈ segments, Isolated depth ts)
    (notElse : ∀ ts ∈ segments, NotElse ts)
    (within : ∀ ts ∈ segments, ¬ (program depth ts).TooDeep) (eof : Token) :
    program depth segments.flatten =
      ⟨segments.flatMap fun ts => (ofReply eof (program depth ts)).complaints,
        .done (segments.flatMap fun ts => (ofReply eof (program depth ts)).statements) []⟩ := by
  induction segments with
  | nil => exact declarations_nil _ _
  | cons ts segments ih =>
    obtain ⟨hts, hsegments⟩ := List.forall_mem_cons.1 h
    obtain ⟨-, notElse'⟩ := List.forall_mem_cons.1 notElse
    obtain ⟨within_ts, within'⟩ := List.forall_mem_cons.1 within
    exact hts.program_append (notElse_flatten notElse') (program_eq_of_not_tooDeep within_ts eof)
      (ih hsegments notElse' within')

theorem diagnostics_ofReply_done (cs : List Complaint) (ss : List Stmt) (rest : List Token) :
    (ofReply eof ⟨cs, .done ss rest⟩).diagnostics = cs.map (Complaint.diagnostic eof) :=
  List.append_nil _

/-- A complaint that is not about the end is reported alike whatever the end token is. -/
theorem diagnostic_eq_of_blamed {c : Complaint} (h : c.blamed ≠ none) (eof eof' : Token) :
    c.diagnostic eof = c.diagnostic eof' := by
  obtain ⟨t, ht⟩ := Option.ne_none_iff_exists'.1 h
  rw [Complaint.diagnostic, Complaint.diagnostic, ht]
  rfl

theorem diagnostics_eq_of_isolated {ts : List Token} (h : Isolated depth ts)
    (within : ¬ (program depth ts).TooDeep) (eof eof' : Token) :
    (ofReply eof' (program depth ts)).diagnostics =
      (ofReply eof' (program depth ts)).complaints.map (Complaint.diagnostic eof) := by
  have located := h.located
  rw [program_eq_of_not_tooDeep within eof'] at located ⊢
  rw [diagnostics_ofReply_done]
  exact List.map_congr_left fun c mem => diagnostic_eq_of_blamed (located c mem) eof' eof

/-- **Faults stay in their segment.** A program put together from segments nests too deep exactly if
one of them does on its own. If not, then its statements are those of the segments in order, and so
are its problems. -/
theorem ofTokens_flatten (depth : Nat) (segments : List (List Token)) (eof eof' : Token)
    (heof : eof.kind = .eof) (heof' : eof'.kind = .eof)
    (h : ∀ ts ∈ segments, Segment depth eof' ts) :
    ((ofTokens depth (segments.flatten ++ [eof])).overflow = none ↔
        ∀ ts ∈ segments, (ofTokens depth (ts ++ [eof'])).overflow = none)
      ∧ ((ofTokens depth (segments.flatten ++ [eof])).overflow = none →
        (ofTokens depth (segments.flatten ++ [eof])).statements =
            segments.flatMap (fun ts => (ofTokens depth (ts ++ [eof'])).statements)
          ∧ (ofTokens depth (segments.flatten ++ [eof])).diagnostics =
            segments.flatMap fun ts => (ofTokens depth (ts ++ [eof'])).diagnostics) := by
  have isolated : ∀ ts ∈ segments, Isolated depth ts := fun ts mem => (h ts mem).isolated heof'
  have notElse : ∀ ts ∈ segments, NotElse ts := fun ts mem => (h ts mem).no_else
  have no_eof : ∀ t ∈ segments.flatten, t.kind ≠ .eof := by
    intro t mem
    obtain ⟨ts, mem_ts, mem_t⟩ := List.mem_flatten.1 mem
    exact (h ts mem_ts).no_eof t mem_t
  have alone : ∀ ts ∈ segments, ofTokens depth (ts ++ [eof']) = ofReply eof' (program depth ts) :=
    fun ts mem => ofTokens_append_eof (h ts mem).no_eof heof'
  have overflow_iff : (ofTokens depth (segments.flatten ++ [eof])).overflow = none ↔
      ∀ ts ∈ segments, (ofTokens depth (ts ++ [eof'])).overflow = none := by
    rw [ofTokens_append_eof no_eof heof, overflow_ofReply_eq_none, tooDeep_flatten isolated notElse]
    push Not
    refine forall₂_congr fun ts mem => ?_
    rw [alone ts mem, overflow_ofReply_eq_none]
  refine ⟨overflow_iff, fun within_whole => ?_⟩
  have within : ∀ ts ∈ segments, ¬ (program depth ts).TooDeep := by
    intro ts mem
    have within_ts := overflow_iff.1 within_whole ts mem
    rwa [alone ts mem, overflow_ofReply_eq_none] at within_ts
  rw [ofTokens_append_eof no_eof heof, program_flatten isolated notElse within eof']
  refine ⟨?_, ?_⟩
  · exact List.flatMap_congr fun ts mem => by rw [alone ts mem]
  · rw [diagnostics_ofReply_done, List.map_flatMap]
    refine List.flatMap_congr fun ts mem => ?_
    rw [alone ts mem, diagnostics_eq_of_isolated (isolated ts mem) (within ts mem) eof eof']

/-- A declaration without a name; a block; and a statement with a sum on the left of an equals sign
and a semicolon missing, which is two problems. -/
theorem ofTokens_flatten_faults :
    let segments := ["var = a + b;", "\x7b if (a) b = c; else print a; \x7d",
      "while (a) b + c = d e;"].map fun source => body (Lexer.tokens source)
    let eof := Token.eof 1
    (∀ ts ∈ segments, Segment 9 eof ts)
      ∧ ((ofTokens 9 (segments.flatten ++ [eof])).overflow = none ↔
          ∀ ts ∈ segments, (ofTokens 9 (ts ++ [eof])).overflow = none)
      ∧ ((ofTokens 9 (segments.flatten ++ [eof])).overflow = none →
        (ofTokens 9 (segments.flatten ++ [eof])).statements =
            segments.flatMap (fun ts => (ofTokens 9 (ts ++ [eof])).statements)
          ∧ (ofTokens 9 (segments.flatten ++ [eof])).diagnostics =
            segments.flatMap fun ts => (ofTokens 9 (ts ++ [eof])).diagnostics) := by
  intro segments eof
  have h : ∀ ts ∈ segments, Segment 9 eof ts := by decide +kernel
  exact ⟨h, ofTokens_flatten 9 segments eof eof rfl rfl h⟩

end Parsed

end Lox
