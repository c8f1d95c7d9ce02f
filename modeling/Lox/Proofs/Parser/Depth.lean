import Lox.Parser.Program
import Lox.Proofs.Parser.Level

/-!
# The limit on nesting

The limit decides how much a parser may say, never what: with a higher limit every reply is the
same as before, except those that gave up because the program nests too deep
(`Grammar.ofDepth_le`). The order behind this is `Parser.Below`: `p` is below `q` if `p` gives up
wherever it does not agree with `q`. All combinators are monotone in it.
-/

namespace Lox.Parser

variable {α β : Type}

/-- The reply says that the program nests too deep. -/
def Reply.TooDeep (r : Reply α) : Prop := ∃ rest, r.outcome = .tooDeep rest

theorem Reply.TooDeep.bind {r : Reply α} (h : r.TooDeep) (next : α → List Token → Reply β) :
    (r.bind next).TooDeep := by
  obtain ⟨complaints, outcome⟩ := r
  obtain ⟨rest, rfl⟩ := h
  exact ⟨rest, rfl⟩

theorem Reply.TooDeep.after {r : Reply α} (h : r.TooDeep) (cs : List Complaint) :
    (r.after cs).TooDeep := h

/-- `p` gives up wherever it does not agree with `q`. -/
def Below (p q : Parser α) : Prop := ∀ ts, (p ts).TooDeep ∨ p ts = q ts

namespace Below

theorem refl (p : Parser α) : p.Below p := fun _ => .inr rfl

theorem trans {p q r : Parser α} (hpq : p.Below q) (hqr : q.Below r) : p.Below r := by
  intro ts
  rcases hpq ts with deep | agree
  · exact .inl deep
  · rw [agree]
    exact hqr ts

theorem reply_bind {r s : Reply α} {f g : α → List Token → Reply β} (h : r.TooDeep ∨ r = s)
    (hnext : ∀ value rest, r.outcome = .done value rest →
      (f value rest).TooDeep ∨ f value rest = g value rest) :
    (r.bind f).TooDeep ∨ r.bind f = s.bind g := by
  rcases h with deep | rfl
  · exact .inl (deep.bind f)
  · obtain ⟨complaints, outcome⟩ := r
    cases outcome with
    | done value rest =>
      rcases hnext value rest rfl with deep | agree
      · exact .inl (deep.after complaints)
      · exact .inr (congrArg (Reply.after complaints) agree)
    | failed cause rest => exact .inr rfl
    | tooDeep rest => exact .inr rfl

theorem bind {p q : Parser α} {f g : α → Parser β} (h : p.Below q)
    (hnext : ∀ value, (f value).Below (g value)) : (p >>= f).Below (q >>= g) :=
  fun ts => reply_bind (h ts) fun value rest _ => hnext value rest

theorem map {p q : Parser α} (f : α → β) (h : p.Below q) : (f <$> p).Below (f <$> q) :=
  h.bind fun _ => refl _

end Below

/-! ### Expressions -/

section
variable {r s : Rule Expr} {inner inner' : Rule Expr}

theorem below_chainFrom (isOperator : Kind → Bool) (h : r.parse.Below s.parse) (left : Expr) :
    (chainFrom isOperator r left).Below (chainFrom isOperator s left) := by
  intro ts
  -- every operand shortens what is left, so the induction is on its length
  induction hn : ts.length using Nat.strongRecOn generalizing ts left with
  | _ n ih =>
    cases ts with
    | nil => exact .inr (by rw [chainFrom_nil, chainFrom_nil])
    | cons op ts =>
      rw [chainFrom_cons, chainFrom_cons]
      split
      · refine Below.reply_bind (h ts) fun right rest done => ?_
        have shorter : rest.length ≤ ts.length - 1 := by
          have within := r.consumes ts
          rw [done] at within
          exact within
        refine ih rest.length ?_ _ rest rfl
        rw [← hn, List.length_cons]
        omega
      · exact .inr rfl

theorem below_chain (isOperator : Kind → Bool) (h : r.parse.Below s.parse) :
    (chain isOperator r).Below (chain isOperator s) :=
  h.bind fun left => below_chainFrom isOperator h left

theorem below_primary (h : r.parse.Below s.parse) : (primary r).Below (primary s) := by
  intro ts
  cases ts with
  | nil => exact .inr rfl
  | cons t ts =>
    simp only [primary]
    split
    · exact .inr rfl
    · split
      · exact .inr rfl
      · split
        · exact (h.bind fun _ => Below.refl _) ts
        · exact .inr rfl

theorem below_unary (h : r.parse.Below s.parse) (hinner : inner.parse.Below inner'.parse) :
    (unary r inner).Below (unary s inner') := by
  intro ts
  cases ts with
  | nil => exact .inr rfl
  | cons t ts =>
    simp only [unary]
    split
    · exact (h.bind fun _ => Below.refl _) ts
    · exact below_primary hinner (t :: ts)

theorem below_assignment (h : r.parse.Below s.parse) (hvalue : inner.parse.Below inner'.parse) :
    (assignment r inner).Below (assignment s inner') := by
  refine h.bind fun target ts => ?_
  cases ts with
  | nil => exact .inr rfl
  | cons t ts =>
    simp only [assignmentFrom]
    split
    · exact (hvalue.bind fun _ => Below.refl _) ts
    · exact .inr rfl

end

/-! ### Statements -/

section
variable {e e' : Rule Expr} {s s' : Rule Stmt} {d d' : Rule (Option Stmt)}

theorem below_terminated (cause : Cause) (h : e.parse.Below e'.parse) :
    (terminated e cause).Below (terminated e' cause) :=
  h.bind fun _ => Below.refl _

theorem below_condition (opening closing : Cause) (h : e.parse.Below e'.parse) :
    (condition e opening closing).Below (condition e' opening closing) :=
  (Below.refl _).bind fun _ => h.bind fun _ => Below.refl _

theorem below_varDeclaration (h : e.parse.Below e'.parse) :
    (varDeclaration e).Below (varDeclaration e') := by
  refine (Below.refl _).bind fun name => Below.bind ?_ fun _ => Below.refl _
  intro ts
  cases ts with
  | nil => exact .inr rfl
  | cons t ts =>
    simp only [varDeclaration.optional]
    split
    · exact (h.bind fun _ => Below.refl _) ts
    · exact .inr rfl

theorem below_declarations (closes : Kind → Bool) (h : d.parse.Below d'.parse) :
    (declarations closes d).Below (declarations closes d') := by
  intro ts
  induction hn : ts.length using Nat.strongRecOn generalizing ts with
  | _ n ih =>
    cases ts with
    | nil => exact .inr (by rw [declarations_nil, declarations_nil])
    | cons t ts =>
      rw [declarations_cons, declarations_cons]
      split
      · exact .inr rfl
      · refine Below.reply_bind (h (t :: ts)) fun s rest done => ?_
        have shorter : rest.length ≤ ts.length := by
          have within := d.consumes (t :: ts)
          rw [done] at within
          exact within
        refine Below.reply_bind (ih rest.length ?_ rest rfl) fun _ _ _ => .inr rfl
        rw [← hn, List.length_cons]
        omega

theorem below_block (h : d.parse.Below d'.parse) : (block d).Below (block d') :=
  (below_declarations _ h).bind fun _ => Below.refl _

theorem below_conditional (h : e.parse.Below e'.parse) (hs : s.parse.Below s'.parse) :
    (conditional e s).Below (conditional e' s') := by
  refine (below_condition _ _ h).bind fun c => hs.bind fun yes ts => ?_
  cases ts with
  | nil => exact .inr rfl
  | cons t ts =>
    simp only [elseFrom]
    split
    · exact (hs.bind fun _ => Below.refl _) ts
    · exact .inr rfl

theorem below_loop (h : e.parse.Below e'.parse) (hs : s.parse.Below s'.parse) :
    (loop e s).Below (loop e' s') :=
  (below_condition _ _ h).bind fun _ => hs.bind fun _ => Below.refl _

theorem below_statement (h : e.parse.Below e'.parse) (hs : s.parse.Below s'.parse)
    (hd : d.parse.Below d'.parse) : (statement e s d).Below (statement e' s' d') := by
  have simple := Below.map Stmt.expression (below_terminated .semicolonAfterExpression h)
  intro ts
  cases ts with
  | nil => exact simple []
  | cons t ts =>
    simp only [statement]
    split
    · exact Below.map Stmt.print (below_terminated .semicolonAfterValue h) ts
    · split
      · exact below_block hd ts
      · split
        · exact below_conditional h hs ts
        · split
          · exact below_loop h hs ts
          · exact simple (t :: ts)

theorem below_declared (h : e.parse.Below e'.parse) (hs : s.parse.Below s'.parse) :
    (declared e s).Below (declared e' s') := by
  intro ts
  cases ts with
  | nil => exact hs []
  | cons t ts =>
    simp only [declared]
    split
    · exact below_varDeclaration h ts
    · exact hs (t :: ts)

theorem below_recovering {p q : Parser Stmt} (h : p.Below q) :
    (recovering p).Below (recovering q) := by
  intro ts
  rcases h ts with ⟨rest, deep⟩ | agree
  · left
    obtain ⟨complaints, outcome, reply⟩ : ∃ cs o, p ts = ⟨cs, o⟩ := ⟨_, _, rfl⟩
    rw [reply] at deep
    subst deep
    exact ⟨rest, by simp only [recovering, reply]⟩
  · right
    simp only [recovering, agree]

end

/-! ### Grammars -/

namespace Grammar

/-- The rules of one grammar are below those of another. -/
structure Below (g h : Grammar) : Prop where
  unary : g.unary.parse.Below h.unary.parse
  expression : g.expression.parse.Below h.expression.parse
  statement : g.statement.parse.Below h.statement.parse
  declaration : g.declaration.parse.Below h.declaration.parse

theorem Below.refl (g : Grammar) : g.Below g :=
  ⟨.refl _, .refl _, .refl _, .refl _⟩

theorem Below.trans {g h k : Grammar} (gh : g.Below h) (hk : h.Below k) : g.Below k :=
  ⟨gh.unary.trans hk.unary, gh.expression.trans hk.expression, gh.statement.trans hk.statement,
    gh.declaration.trans hk.declaration⟩

theorem Below.extend {g h : Grammar} (le : g.Below h) : g.extend.Below h.extend := by
  have unary : g.extend.unary.parse.Below h.extend.unary.parse := by
    rw [extend_unary, extend_unary]
    exact below_unary le.unary le.expression
  have factor : g.factor.parse.Below h.factor.parse := below_chain isFactor unary
  have term : g.term.parse.Below h.term.parse := below_chain isTerm factor
  have comparison : g.comparison.parse.Below h.comparison.parse := below_chain isComparison term
  have equality : g.equality.parse.Below h.equality.parse := below_chain isEquality comparison
  have expression : g.extend.expression.parse.Below h.extend.expression.parse := by
    rw [extend_expression, extend_expression]
    exact below_assignment equality le.expression
  have statement : g.extend.statement.parse.Below h.extend.statement.parse := by
    rw [extend_statement, extend_statement]
    exact below_statement expression le.statement le.declaration
  refine ⟨unary, expression, statement, ?_⟩
  rw [extend_declaration, extend_declaration]
  exact below_recovering (below_declared expression statement)

theorem below_exhausted (g : Grammar) : exhausted.Below g := by
  refine ⟨?_, ?_, ?_, ?_⟩ <;> exact fun ts => .inl ⟨ts, rfl⟩

theorem ofDepth_below_succ (depth : Nat) : (ofDepth depth).Below (ofDepth (depth + 1)) := by
  induction depth with
  | zero => exact below_exhausted _
  | succ depth ih => exact ih.extend

/-- **A higher limit changes no reply but those that gave up.** -/
theorem ofDepth_le {m n : Nat} (h : m ≤ n) : (ofDepth m).Below (ofDepth n) := by
  induction h with
  | refl => exact .refl _
  | step _ ih => exact ih.trans (ofDepth_below_succ _)

end Grammar

theorem program_below {m n : Nat} (h : m ≤ n) : (Parsed.program m).Below (Parsed.program n) :=
  below_declarations _ (Grammar.ofDepth_le h).declaration

end Lox.Parser
