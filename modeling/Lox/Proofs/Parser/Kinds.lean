import Lox.Parser.Program
import Lox.Proofs.Grammar.Map
import Lox.Proofs.Parser.Level
import Lox.Proofs.Parser.Suffix

/-!
# Parsing sees only kinds

No decision of the parser looks at more than the kind of a token. So a function on tokens that
keeps the kinds goes through it: the reply to the changed tokens is the reply to the original ones
with every token changed, those in trees, those blamed and those left (`Commutes`). Each way of
putting parsers together keeps this property, hence all rules have it (`Grammar.commutes_ofDepth`),
and so does parsing as a whole, recovery included (`Parsed.ofTokens_map`).
-/

namespace Lox.Parser

variable {α β : Type} {f : Token → Token}

/-! ### Changed replies -/

/-- The complaint about another token. -/
def Complaint.map (f : Token → Token) (c : Complaint) : Complaint :=
  { c with blamed := c.blamed.map f }

/-- The outcome with `g` applied to the value and `f` to the tokens left. -/
def Outcome.map (f : Token → Token) (g : α → β) : Outcome α → Outcome β
  | .done value rest => .done (g value) (rest.map f)
  | .failed cause rest => .failed cause (rest.map f)
  | .tooDeep rest => .tooDeep (rest.map f)

/-- The reply with `g` applied to the value and `f` to all other tokens. -/
def Reply.map (f : Token → Token) (g : α → β) (r : Reply α) : Reply β :=
  ⟨r.complaints.map (Complaint.map f), r.outcome.map f g⟩

theorem Reply.map_after (g : α → β) (complaints : List Complaint) (r : Reply α) :
    (r.after complaints).map f g = (r.map f g).after (complaints.map (Complaint.map f)) := by
  simp [Reply.map, Reply.after]

theorem Reply.map_bind {g : α → α} {g' : β → β} {r : Reply α}
    {next next' : α → List Token → Reply β}
    (h : ∀ value rest, r.outcome = .done value rest →
      next' (g value) (rest.map f) = (next value rest).map f g') :
    (r.map f g).bind next' = (r.bind next).map f g' := by
  obtain ⟨complaints, outcome⟩ := r
  cases outcome with
  | done value rest =>
    show (next' (g value) (rest.map f)).after (complaints.map (Complaint.map f)) = _
    rw [h value rest rfl, ← Reply.map_after]
    rfl
  | failed cause rest => rfl
  | tooDeep rest => rfl

/-- What `q` makes of changed tokens is what `p` makes of the original ones, changed. -/
def Commutes (f : Token → Token) (g : α → α) (p q : Parser α) : Prop :=
  ∀ ts, q (ts.map f) = (p ts).map f g

namespace Commutes

variable {g : α → α} {g' : β → β}

theorem pure (value : α) : Commutes f g (pure value) (pure (g value)) := fun _ => rfl

theorem fail (cause : Cause) : Commutes f g (fail cause) (fail cause) := fun _ => rfl

theorem complain (cause : Cause) (t : Token) :
    Commutes f id (complain ⟨cause, some t⟩) (complain ⟨cause, some (f t)⟩) := fun _ => rfl

theorem bind {p q : Parser α} {next next' : α → Parser β} (h : Commutes f g p q)
    (hnext : ∀ value, Commutes f g' (next value) (next' (g value))) :
    Commutes f g' (p >>= next) (q >>= next') := by
  intro ts
  rw [bind_apply, bind_apply, h ts]
  exact Reply.map_bind fun value rest _ => hnext value rest

theorem map {p q : Parser α} {k k' : α → β} (h : Commutes f g p q)
    (hk : ∀ value, k' (g value) = g' (k value)) : Commutes f g' (k <$> p) (k' <$> q) := by
  refine h.bind fun value => ?_
  have step : Commutes f g' (Pure.pure (k value)) (Pure.pure (g' (k value))) := pure (k value)
  rw [← hk] at step
  exact step

variable (hf : ∀ t, (f t).kind = t.kind)

include hf

theorem lookahead {fits : Kind → Prop} [DecidablePred fits] {next next' : Token → Parser α}
    {other other' : Parser α} (hnext : ∀ t, Commutes f g (next t) (next' (f t)))
    (hother : Commutes f g other other') :
    Commutes f g (lookahead fits next other) (lookahead fits next' other') := by
  intro ts
  cases ts with
  | nil => exact hother []
  | cons t ts =>
    rw [List.map_cons, lookahead_cons, lookahead_cons, hf]
    split
    · exact hnext t ts
    · exact hother (t :: ts)

theorem expect (kind : Kind) (cause : Cause) :
    Commutes f f (expect kind cause) (expect kind cause) := by
  rw [expect_eq]
  exact lookahead hf (fun t => pure t) (fail cause)

end Commutes

/-- The rule's reply to changed tokens is its reply to the original ones, changed. -/
def Rule.Natural (f : Token → Token) (g : α → α) (r : Rule α) : Prop := Commutes f g r.parse r.parse

section Rules

variable (hf : ∀ t, (f t).kind = t.kind)

include hf

/-! ### Expressions -/

section
variable {operand expression value : Rule Expr}

theorem commutes_chainFrom (isOperator : Kind → Bool) (h : operand.Natural f (Expr.map f))
    (left : Expr) : Commutes f (Expr.map f) (chainFrom isOperator operand left)
      (chainFrom isOperator operand (left.map f)) := by
  intro ts
  -- every operand shortens what is left
  induction hn : ts.length using Nat.strongRecOn generalizing ts left with
  | _ n ih =>
    cases ts with
    | nil =>
      rw [List.map_nil, chainFrom_nil, chainFrom_nil]
      rfl
    | cons op ts =>
      rw [List.map_cons, chainFrom_cons, chainFrom_cons, hf]
      split
      · rw [h ts]
        refine Reply.map_bind fun right rest done => ?_
        have shorter := operand.length_le_of_done done
        refine ih rest.length ?_ (.binary left op right) rest rfl
        rw [← hn, List.length_cons]
        omega
      · rfl

theorem natural_chain (isOperator : Kind → Bool) (h : operand.Natural f (Expr.map f)) :
    (Rule.chain isOperator operand).Natural f (Expr.map f) :=
  h.bind fun left => commutes_chainFrom hf isOperator h left

theorem commutes_primary (h : expression.Natural f (Expr.map f)) :
    Commutes f (Expr.map f) (primary expression) (primary expression) := by
  rw [primary_eq]
  refine .lookahead hf (fun t => .pure (Expr.literal t)) ?_
  refine .lookahead hf (fun t => .pure (Expr.ident t)) ?_
  refine .lookahead hf (fun _ => h.bind fun inner => ?_) (.fail _)
  exact (Commutes.expect hf _ _).bind fun _ => .pure (Expr.grouping inner)

theorem commutes_unary (hoperand : operand.Natural f (Expr.map f))
    (h : expression.Natural f (Expr.map f)) :
    Commutes f (Expr.map f) (unary operand expression) (unary operand expression) := by
  rw [unary_eq]
  refine .lookahead hf (fun op => ?_) (commutes_primary hf h)
  exact hoperand.bind fun right => .pure (Expr.unary op right)

omit hf in
theorem commutes_assignTo (equals : Token) (target v : Expr) :
    Commutes f (Expr.map f) (assignTo equals target v)
      (assignTo (f equals) (target.map f) (v.map f)) := by
  cases target with
  | ident name => exact .pure (Expr.assign name v)
  | _ => exact (Commutes.complain _ equals).bind fun _ => .pure _

theorem commutes_assignmentFrom (h : value.Natural f (Expr.map f)) (target : Expr) :
    Commutes f (Expr.map f) (assignmentFrom value target)
      (assignmentFrom value (target.map f)) := by
  rw [assignmentFrom_eq, assignmentFrom_eq]
  refine .lookahead hf (fun equals => ?_) (.pure target)
  exact h.bind fun v => commutes_assignTo equals target v

theorem commutes_assignment (h : operand.Natural f (Expr.map f))
    (hvalue : value.Natural f (Expr.map f)) :
    Commutes f (Expr.map f) (assignment operand value) (assignment operand value) :=
  h.bind fun target => commutes_assignmentFrom hf hvalue target

end

/-! ### Statements -/

section
variable {expression : Rule Expr} {inner : Rule Stmt} {declaration : Rule (Option Stmt)}

theorem commutes_terminated (cause : Cause) (h : expression.Natural f (Expr.map f)) :
    Commutes f (Expr.map f) (terminated expression cause) (terminated expression cause) :=
  h.bind fun e => (Commutes.expect hf _ _).bind fun _ => .pure e

theorem commutes_condition (opening closing : Cause) (h : expression.Natural f (Expr.map f)) :
    Commutes f (Expr.map f) (condition expression opening closing)
      (condition expression opening closing) :=
  (Commutes.expect hf _ _).bind fun _ => h.bind fun e =>
    (Commutes.expect hf _ _).bind fun _ => .pure e

theorem commutes_optional (h : expression.Natural f (Expr.map f)) :
    Commutes f (Option.map (Expr.map f)) (varDeclaration.optional expression)
      (varDeclaration.optional expression) := by
  rw [optional_eq]
  exact .lookahead hf (fun _ => h.bind fun e => .pure (some e)) (.pure none)

theorem commutes_varDeclaration (h : expression.Natural f (Expr.map f)) :
    Commutes f (Stmt.map f) (varDeclaration expression) (varDeclaration expression) := by
  refine (Commutes.expect hf _ _).bind fun name => (commutes_optional hf h).bind fun initializer =>
    (Commutes.expect hf _ _).bind fun _ => ?_
  cases initializer with
  | none => exact .pure (Stmt.var name none)
  | some e => exact .pure (Stmt.var name (some e))

theorem commutes_declarations (closes : Kind → Bool)
    (h : declaration.Natural f (Option.map (Stmt.map f))) :
    Commutes f (Stmt.mapAll f) (declarations closes declaration)
      (declarations closes declaration) := by
  intro ts
  induction hn : ts.length using Nat.strongRecOn generalizing ts with
  | _ n ih =>
    cases ts with
    | nil =>
      rw [List.map_nil, declarations_nil]
      rfl
    | cons t ts =>
      rw [List.map_cons, declarations_cons, declarations_cons, hf]
      split
      · rfl
      · rw [← List.map_cons, h (t :: ts)]
        refine Reply.map_bind fun s rest done => ?_
        have shorter := declaration.length_le_of_done done
        have others := ih rest.length (by rw [← hn]; simp only [List.length_cons] at *; omega)
          rest rfl
        rw [others]
        refine Reply.map_bind fun ss rest _ => ?_
        cases s <;> rfl

theorem commutes_block (h : declaration.Natural f (Option.map (Stmt.map f))) :
    Commutes f (Stmt.map f) (block declaration) (block declaration) :=
  (commutes_declarations hf _ h).bind fun body =>
    (Commutes.expect hf _ _).bind fun _ => .pure (Stmt.block body)

theorem commutes_elseFrom (hs : inner.Natural f (Stmt.map f)) (c : Expr) (yes : Stmt) :
    Commutes f (Stmt.map f) (elseFrom inner c yes) (elseFrom inner (c.map f) (yes.map f)) := by
  rw [elseFrom_eq, elseFrom_eq]
  refine .lookahead hf (fun _ => ?_) (.pure (Stmt.ifThen c yes))
  exact hs.bind fun no => .pure (Stmt.ifElse c yes no)

theorem commutes_conditional (h : expression.Natural f (Expr.map f))
    (hs : inner.Natural f (Stmt.map f)) :
    Commutes f (Stmt.map f) (conditional expression inner) (conditional expression inner) :=
  (commutes_condition hf _ _ h).bind fun c => hs.bind fun yes => commutes_elseFrom hf hs c yes

theorem commutes_loop (h : expression.Natural f (Expr.map f))
    (hs : inner.Natural f (Stmt.map f)) :
    Commutes f (Stmt.map f) (loop expression inner) (loop expression inner) :=
  (commutes_condition hf _ _ h).bind fun c => hs.bind fun body => .pure (Stmt.loop c body)

theorem commutes_statement (h : expression.Natural f (Expr.map f))
    (hs : inner.Natural f (Stmt.map f)) (hd : declaration.Natural f (Option.map (Stmt.map f))) :
    Commutes f (Stmt.map f) (statement expression inner declaration)
      (statement expression inner declaration) := by
  have ending (make : Expr → Stmt) (cause : Cause)
      (hmake : ∀ e, make (e.map f) = (make e).map f) :=
    (commutes_terminated hf cause h).map hmake
  rw [statement_eq]
  refine .lookahead hf (fun _ => ending _ _ fun _ => rfl) ?_
  refine .lookahead hf (fun _ => commutes_block hf hd) ?_
  refine .lookahead hf (fun _ => commutes_conditional hf h hs) ?_
  exact .lookahead hf (fun _ => commutes_loop hf h hs) (ending _ _ fun _ => rfl)

theorem commutes_declared (h : expression.Natural f (Expr.map f))
    (hs : inner.Natural f (Stmt.map f)) :
    Commutes f (Stmt.map f) (declared expression inner) (declared expression inner) := by
  rw [declared_eq]
  exact .lookahead hf (fun _ => commutes_varDeclaration hf h) hs

end

/-! ### Recovery -/

theorem dropToStart_map (last : Token) (ts : List Token) :
    dropToStart (f last) (ts.map f) = (dropToStart last ts).map f := by
  induction ts generalizing last with
  | nil => rfl
  | cons t ts ih =>
    rw [List.map_cons, dropToStart, dropToStart, hf, hf]
    split
    · rfl
    · exact ih t

theorem synchronize_map (ts : List Token) :
    synchronize (ts.map f) = (synchronize ts).map f := by
  cases ts with
  | nil => rfl
  | cons t ts => exact dropToStart_map hf t ts

theorem commutes_recovering {p : Parser Stmt} (h : Commutes f (Stmt.map f) p p) :
    Commutes f (Option.map (Stmt.map f)) (recovering p) (recovering p) := by
  intro ts
  unfold recovering
  rw [h ts]
  obtain ⟨complaints, outcome⟩ := p ts
  cases outcome with
  | done s rest => rfl
  | failed cause rest =>
    simp [Reply.map, Outcome.map, Complaint.map, synchronize_map hf, List.head?_map]
  | tooDeep rest => rfl

end Rules

/-! ### Grammars -/

namespace Grammar

/-- All rules of the grammar let a change of tokens through. -/
structure Natural (f : Token → Token) (g : Grammar) : Prop where
  unary : g.unary.Natural f (Expr.map f)
  expression : g.expression.Natural f (Expr.map f)
  statement : g.statement.Natural f (Stmt.map f)
  declaration : g.declaration.Natural f (Option.map (Stmt.map f))

theorem natural_exhausted : exhausted.Natural f := by
  refine ⟨?_, ?_, ?_, ?_⟩ <;> exact fun _ => rfl

theorem Natural.extend (hf : ∀ t, (f t).kind = t.kind) {g : Grammar} (h : g.Natural f) :
    g.extend.Natural f := by
  have unary : g.extend.unary.Natural f (Expr.map f) := by
    rw [Rule.Natural, extend_unary]
    exact commutes_unary hf h.unary h.expression
  have factor : g.factor.Natural f (Expr.map f) := natural_chain hf isFactor unary
  have term : g.term.Natural f (Expr.map f) := natural_chain hf isTerm factor
  have comparison : g.comparison.Natural f (Expr.map f) := natural_chain hf isComparison term
  have equality : g.equality.Natural f (Expr.map f) := natural_chain hf isEquality comparison
  have expression : g.extend.expression.Natural f (Expr.map f) := by
    rw [Rule.Natural, extend_expression]
    exact commutes_assignment hf equality h.expression
  have statement : g.extend.statement.Natural f (Stmt.map f) := by
    rw [Rule.Natural, extend_statement]
    exact commutes_statement hf expression h.statement h.declaration
  refine ⟨unary, expression, statement, ?_⟩
  rw [Rule.Natural, extend_declaration]
  exact commutes_recovering hf (commutes_declared hf expression statement)

/-- **The rules at every depth let a change of tokens through** that keeps the kinds. -/
theorem natural_ofDepth (hf : ∀ t, (f t).kind = t.kind) (depth : Nat) :
    (ofDepth depth).Natural f := by
  induction depth with
  | zero => exact natural_exhausted
  | succ depth ih => exact ih.extend hf

end Grammar

end Lox.Parser

namespace Lox.Parsed

open Lox.Parser

variable {f : Token → Token}

/-! ### Whole programs -/

/-- The answer with every token changed. -/
def map (f : Token → Token) (p : Parsed) : Parsed :=
  ⟨Stmt.mapAll f p.statements, p.complaints.map (Complaint.map f), p.overflow.map f, f p.eof⟩

theorem ofReply_map (eof : Token) (r : Reply (List Stmt)) :
    ofReply (f eof) (r.map f (Stmt.mapAll f)) = (ofReply eof r).map f := by
  obtain ⟨complaints, outcome⟩ := r
  cases outcome with
  | done ss rest => rfl
  | failed cause rest =>
    simp [Reply.map, Outcome.map, ofReply, map, Complaint.map, Stmt.mapAll, List.head?_map]
  | tooDeep rest => cases rest <;> rfl

variable (hf : ∀ t, (f t).kind = t.kind)

include hf

theorem body_map (tokens : List Token) : body (tokens.map f) = (body tokens).map f := by
  simp only [body, List.takeWhile_map, Function.comp_def, hf]

omit hf in
/-- A list with an end token has a first one. -/
theorem exists_first_eof {tokens : List Token} (ends : ∃ t ∈ tokens, t.kind = .eof) :
    ∃ first, tokens.find? (·.kind = .eof) = some first := by
  obtain ⟨t, mem, eof⟩ := ends
  rw [← Option.isSome_iff_exists, List.find?_isSome]
  exact ⟨t, mem, decide_eq_true eof⟩

theorem closing_map {tokens : List Token} (ends : ∃ t ∈ tokens, t.kind = .eof) :
    closing (tokens.map f) = f (closing tokens) := by
  obtain ⟨first, eq⟩ := exists_first_eof ends
  simp only [closing, List.find?_map, Function.comp_def, hf, eq, Option.map_some, Option.getD_some]

theorem program_map (depth : Nat) (tokens : List Token) :
    program depth (body (tokens.map f)) =
      (program depth (body tokens)).map f (Stmt.mapAll f) := by
  rw [body_map hf]
  exact commutes_declarations hf _ (Grammar.natural_ofDepth hf depth).declaration (body tokens)

/-- The statements change with the tokens, also without an end token. -/
theorem statements_map (depth : Nat) (tokens : List Token) :
    (ofTokens depth (tokens.map f)).statements =
      Stmt.mapAll f (ofTokens depth tokens).statements := by
  rw [ofTokens, ofTokens, program_map hf]
  obtain ⟨complaints, outcome⟩ := program depth (body tokens)
  cases outcome <;> rfl

/-- Everything changes with the tokens if the closing token does. -/
theorem ofTokens_map_of_closing (depth : Nat) {tokens : List Token}
    (closes : closing (tokens.map f) = f (closing tokens)) :
    ofTokens depth (tokens.map f) = (ofTokens depth tokens).map f := by
  rw [ofTokens, closes, program_map hf, ofReply_map]
  rfl

/-- **Parsing changed tokens** gives what parsing gives, with every token changed: statements,
complaints in their order and the token at which nesting went over the limit. -/
theorem ofTokens_map (depth : Nat) {tokens : List Token} (ends : ∃ t ∈ tokens, t.kind = .eof) :
    ofTokens depth (tokens.map f) = (ofTokens depth tokens).map f :=
  ofTokens_map_of_closing hf depth (closing_map hf ends)

end Lox.Parsed
