import Lox.Proofs.Grammar.Map
import Lox.Proofs.Parser.Produced

/-!
# The tokens that trees store

A tree stores tokens that its parser read, in the order in which it read them, none of them twice.
This holds of every tree, also of those that are left after recovery: what a failed declaration had
read is gone with it, and so is the value of an assignment to a bad target, but nothing comes back.

`stored` reads the tokens off a tree in the order of the source. `Keeps` says of a parser that the
tokens of its value are a subsequence of those read, behind others that were read before; the latter
are needed since a rule hands on what it has to the rule that finishes its tree.
-/

namespace Lox

/-! ### Reading off tokens -/

/-- The tokens that the expression stores, in the order of the source. -/
def Expr.stored : Expr → List Token
  | .binary left operator right => left.stored ++ operator :: right.stored
  | .unary operator right => operator :: right.stored
  | .grouping inner => inner.stored
  | .literal token => [token]
  | .ident name => [name]
  | .assign name value => name :: value.stored
  | .foreign _ => []

mutual

/-- The tokens that the statement stores, in the order of the source. -/
def Stmt.stored : Stmt → List Token
  | .expression e => e.stored
  | .print e => e.stored
  | .var name none => [name]
  | .var name (some e) => name :: e.stored
  | .block body => Stmt.storedAll body
  | .ifThen condition yes => condition.stored ++ yes.stored
  | .ifElse condition yes no => condition.stored ++ yes.stored ++ no.stored
  | .loop condition body => condition.stored ++ body.stored
  | .foreign _ => []

/-- The tokens that the statements store, in the order of the source. -/
def Stmt.storedAll : List Stmt → List Token
  | [] => []
  | s :: ss => s.stored ++ Stmt.storedAll ss

end

theorem Expr.stored_map (f : Token → Token) (e : Expr) : (e.map f).stored = e.stored.map f := by
  induction e with
  | binary left operator right ihl ihr =>
    simp only [Expr.map, stored, ihl, ihr, List.map_append, List.map_cons]
  | unary operator right ih => simp only [Expr.map, stored, ih, List.map_cons]
  | grouping inner ih => exact ih
  | literal | ident | foreign => rfl
  | assign name value ih => simp only [Expr.map, stored, ih, List.map_cons]

mutual

theorem Stmt.stored_map (f : Token → Token) : ∀ s : Stmt, (s.map f).stored = s.stored.map f
  | .expression e | .print e => e.stored_map f
  | .var name none => rfl
  | .var name (some e) => congrArg (f name :: ·) (e.stored_map f)
  | .block body => Stmt.storedAll_map f body
  | .ifThen c yes => by
    simp only [Stmt.map, Stmt.stored, c.stored_map, Stmt.stored_map f yes, List.map_append]
  | .ifElse c yes no => by
    simp only [Stmt.map, Stmt.stored, c.stored_map, Stmt.stored_map f yes, Stmt.stored_map f no,
      List.map_append]
  | .loop c body => by
    simp only [Stmt.map, Stmt.stored, c.stored_map, Stmt.stored_map f body, List.map_append]
  | .foreign _ => rfl

theorem Stmt.storedAll_map (f : Token → Token) :
    ∀ ss : List Stmt, Stmt.storedAll (Stmt.mapAll f ss) = (Stmt.storedAll ss).map f
  | [] => rfl
  | s :: ss => by
    simp only [Stmt.mapAll, Stmt.storedAll, Stmt.stored_map f s, Stmt.storedAll_map f ss,
      List.map_append]

end

theorem Stmt.storedAll_append (ss rs : List Stmt) :
    Stmt.storedAll (ss ++ rs) = Stmt.storedAll ss ++ Stmt.storedAll rs := by
  induction ss with
  | nil => rfl
  | cons s ss ih => simp only [List.cons_append, storedAll, ih, List.append_assoc]

namespace Parser

variable {α β : Type}

/-! ### Parsers that keep tokens in order -/

/-- The tokens stored in the value are a subsequence of those read, behind the ones `before`. -/
def Reply.Keeps (before : List Token) (stored : α → List Token) (ts : List Token) (r : Reply α) :
    Prop :=
  ∀ value rest, r.outcome = .done value rest →
    ∃ used, ts = used ++ rest ∧ (stored value).Sublist (before ++ used)

/-- Whatever the parser reads, its value stores a subsequence of it, behind the tokens `before`. -/
def Keeps (before : List Token) (stored : α → List Token) (p : Parser α) : Prop :=
  ∀ ts, (p ts).Keeps before stored ts

namespace Reply.Keeps

variable {before : List Token} {stored : α → List Token} {stored' : β → List Token}
  {r : Reply α} {ts : List Token}

theorem done {value : α} (h : (stored value).Sublist before) (ts : List Token) :
    (Reply.done value ts).Keeps before stored ts := by
  intro v rest same
  cases same
  exact ⟨[], rfl, by rwa [List.append_nil]⟩

theorem bind {next : α → List Token → Reply β} (h : r.Keeps before stored ts)
    (hnext : ∀ value rest, r.outcome = .done value rest →
      (next value rest).Keeps (stored value) stored' rest) :
    (r.bind next).Keeps before stored' ts := by
  intro w rest done
  obtain ⟨v, mid, hv, hw⟩ := exists_of_bind_done done
  obtain ⟨used, rfl, sub⟩ := h v mid hv
  obtain ⟨used', rfl, sub'⟩ := hnext v mid hv w rest hw
  refine ⟨used ++ used', (List.append_assoc ..).symm, ?_⟩
  rw [← List.append_assoc]
  exact sub'.trans (sub.append_right used')

theorem cons (t : Token) (h : r.Keeps (before ++ [t]) stored ts) :
    r.Keeps before stored (t :: ts) := by
  intro value rest done
  obtain ⟨used, rfl, sub⟩ := h value rest done
  refine ⟨t :: used, rfl, ?_⟩
  rwa [List.append_assoc] at sub

/-- Tokens read before stay in front of those that the value stores. -/
theorem behind (before : List Token) (h : r.Keeps [] stored ts) :
    r.Keeps before (fun value => before ++ stored value) ts := by
  intro value rest done
  obtain ⟨used, split, sub⟩ := h value rest done
  exact ⟨used, split, sub.append_left before⟩

end Reply.Keeps

namespace Keeps

variable {before before' : List Token} {stored : α → List Token} {stored' : β → List Token}
  {p : Parser α}

theorem mono (h : Keeps before stored p) (sub : before.Sublist before') : Keeps before' stored p := by
  intro ts value rest done
  obtain ⟨used, split, sub'⟩ := h ts value rest done
  exact ⟨used, split, sub'.trans (sub.append_right used)⟩

theorem behind (before : List Token) (h : Keeps [] stored p) :
    Keeps before (fun value => before ++ stored value) p := fun ts => (h ts).behind before

theorem pure {value : α} (h : (stored value).Sublist before) :
    Keeps before stored (pure value : Parser α) := Reply.Keeps.done h

theorem fail (cause : Cause) : Keeps before stored (fail cause : Parser α) := by
  intro ts value rest done
  cases done

theorem bind {next : α → Parser β} (h : Keeps before stored p)
    (hnext : ∀ value, Keeps (stored value) stored' (next value)) :
    Keeps before stored' (p >>= next) :=
  fun ts => (h ts).bind fun value rest _ => hnext value rest

theorem lookahead {fits : Kind → Prop} [DecidablePred fits] {next : Token → Parser α}
    {other : Parser α} (hnext : ∀ t, Keeps (before ++ [t]) stored (next t))
    (hother : Keeps before stored other) : Keeps before stored (lookahead fits next other) := by
  intro ts
  cases ts with
  | nil => exact hother []
  | cons t ts =>
    rw [lookahead_cons]
    split
    · exact (hnext t ts).cons t
    · exact hother (t :: ts)

theorem expect (before : List Token) (kind : Kind) (cause : Cause) :
    Keeps before (fun t => before ++ [t]) (expect kind cause) := by
  rw [expect_eq]
  exact lookahead (fun _ => pure (List.Sublist.refl _)) (fail cause)

/-- Going on behind a token that is not stored. -/
theorem skip {kind : Kind} {cause : Cause} {next : Parser β} (h : Keeps before stored' next) :
    Keeps before stored' (do let _ ← Parser.expect kind cause; next) :=
  (expect before kind cause).bind fun t => h.mono (List.sublist_append_left before [t])

end Keeps

/-! ### Expressions -/

section
variable {operand expression value : Rule Expr}

theorem keeps_chainFrom (isOperator : Kind → Bool) (h : Keeps [] Expr.stored operand.parse)
    (left : Expr) : Keeps left.stored Expr.stored (chainFrom isOperator operand left) := by
  intro ts
  -- every operand shortens what is left
  induction hn : ts.length using Nat.strongRecOn generalizing ts left with
  | _ n ih =>
    cases ts with
    | nil =>
      rw [chainFrom_nil]
      exact .done (List.Sublist.refl _) []
    | cons op ts =>
      rw [chainFrom_cons]
      split
      · refine Reply.Keeps.cons op ((h.behind _ ts).bind fun right rest done => ?_)
        have shorter := operand.length_le_of_done done
        have step := ih rest.length (by rw [← hn, List.length_cons]; omega)
          (.binary left op right) rest rfl
        rwa [Expr.stored, List.append_cons] at step
      · exact .done (List.Sublist.refl _) (op :: ts)

theorem keeps_chain (isOperator : Kind → Bool) (h : Keeps [] Expr.stored operand.parse) :
    Keeps [] Expr.stored (chain isOperator operand) :=
  h.bind fun left => keeps_chainFrom isOperator h left

theorem keeps_primary (h : Keeps [] Expr.stored expression.parse) :
    Keeps [] Expr.stored (primary expression) := by
  rw [primary_eq]
  refine .lookahead (fun _ => .pure (List.Sublist.refl _)) ?_
  refine .lookahead (fun _ => .pure (List.Sublist.refl _)) ?_
  refine .lookahead (fun t => ?_) (.fail _)
  exact (h.mono (List.nil_sublist [t])).bind fun _ => .skip (.pure (List.Sublist.refl _))

theorem keeps_unary (hoperand : Keeps [] Expr.stored operand.parse)
    (h : Keeps [] Expr.stored expression.parse) :
    Keeps [] Expr.stored (unary operand expression) := by
  rw [unary_eq]
  refine .lookahead (fun op => ?_) (keeps_primary h)
  exact (hoperand.behind [op]).bind fun _ => .pure (List.Sublist.refl _)

/-- A bad target stays without the value. -/
theorem keeps_assignTo (equals : Token) (target v : Expr) :
    Keeps (target.stored ++ v.stored) Expr.stored (assignTo equals target v) := by
  have dropped : (target.stored).Sublist (target.stored ++ v.stored) := List.sublist_append_left _ _
  cases target with
  | ident name => exact .pure (List.Sublist.refl _)
  | _ =>
    intro ts e rest done
    cases done
    exact ⟨[], rfl, by rwa [List.append_nil]⟩

theorem keeps_assignmentFrom (h : Keeps [] Expr.stored value.parse) (target : Expr) :
    Keeps target.stored Expr.stored (assignmentFrom value target) := by
  rw [assignmentFrom_eq]
  refine .lookahead (fun equals => ?_) (.pure (List.Sublist.refl _))
  refine Keeps.mono ?_ (List.sublist_append_left target.stored [equals])
  exact (h.behind target.stored).bind fun v => keeps_assignTo equals target v

theorem keeps_assignment (h : Keeps [] Expr.stored operand.parse)
    (hvalue : Keeps [] Expr.stored value.parse) :
    Keeps [] Expr.stored (assignment operand value) :=
  h.bind fun target => keeps_assignmentFrom hvalue target

end

/-! ### Statements -/

section
variable {expression : Rule Expr} {inner : Rule Stmt} {declaration : Rule (Option Stmt)}

theorem keeps_terminated (cause : Cause) (h : Keeps [] Expr.stored expression.parse) :
    Keeps [] Expr.stored (terminated expression cause) :=
  h.bind fun _ => .skip (.pure (List.Sublist.refl _))

theorem keeps_condition (opening closing : Cause) (h : Keeps [] Expr.stored expression.parse) :
    Keeps [] Expr.stored (condition expression opening closing) :=
  .skip (h.bind fun _ => .skip (.pure (List.Sublist.refl _)))

theorem keeps_optional (h : Keeps [] Expr.stored expression.parse) :
    Keeps [] (fun o => o.elim [] Expr.stored) (varDeclaration.optional expression) := by
  rw [optional_eq]
  refine .lookahead (fun equals => ?_) (.pure (List.nil_sublist _))
  exact (h.mono (List.nil_sublist _)).bind fun _ => .pure (List.Sublist.refl _)

theorem keeps_varDeclaration (h : Keeps [] Expr.stored expression.parse) :
    Keeps [] Stmt.stored (varDeclaration expression) := by
  refine (Keeps.expect [] _ _).bind fun name => ?_
  refine ((keeps_optional h).behind [name]).bind fun initializer => .skip (.pure ?_)
  cases initializer <;> exact List.Sublist.refl _

theorem keeps_declarations (closes : Kind → Bool)
    (h : Keeps [] (fun o => Stmt.storedAll o.toList) declaration.parse) :
    Keeps [] Stmt.storedAll (declarations closes declaration) := by
  intro ts
  induction hn : ts.length using Nat.strongRecOn generalizing ts with
  | _ n ih =>
    cases ts with
    | nil =>
      rw [declarations_nil]
      exact .done (List.Sublist.refl _) []
    | cons t ts =>
      rw [declarations_cons]
      split
      · exact .done (List.Sublist.refl _) (t :: ts)
      · refine (h (t :: ts)).bind fun s rest done => ?_
        have shorter := declaration.length_le_of_done done
        have others := ih rest.length (by rw [← hn]; simp only [List.length_cons] at *; omega)
          rest rfl
        refine (others.behind _).bind fun ss rest _ => .done ?_ rest
        rw [Stmt.storedAll_append]

theorem keeps_block (h : Keeps [] (fun o => Stmt.storedAll o.toList) declaration.parse) :
    Keeps [] Stmt.stored (block declaration) :=
  (keeps_declarations _ h).bind fun _ => .skip (.pure (List.Sublist.refl _))

theorem keeps_elseFrom (hs : Keeps [] Stmt.stored inner.parse) (c : Expr) (yes : Stmt) :
    Keeps (c.stored ++ yes.stored) Stmt.stored (elseFrom inner c yes) := by
  rw [elseFrom_eq]
  refine .lookahead (fun t => ?_) (.pure (List.Sublist.refl _))
  refine Keeps.mono ?_ (List.sublist_append_left _ [t])
  exact (hs.behind _).bind fun _ => .pure (List.Sublist.refl _)

theorem keeps_conditional (h : Keeps [] Expr.stored expression.parse)
    (hs : Keeps [] Stmt.stored inner.parse) :
    Keeps [] Stmt.stored (conditional expression inner) :=
  (keeps_condition _ _ h).bind fun c => (hs.behind c.stored).bind fun yes =>
    keeps_elseFrom hs c yes

theorem keeps_loop (h : Keeps [] Expr.stored expression.parse)
    (hs : Keeps [] Stmt.stored inner.parse) : Keeps [] Stmt.stored (loop expression inner) :=
  (keeps_condition _ _ h).bind fun c => (hs.behind c.stored).bind fun _ =>
    .pure (List.Sublist.refl _)

theorem keeps_statement (h : Keeps [] Expr.stored expression.parse)
    (hs : Keeps [] Stmt.stored inner.parse)
    (hd : Keeps [] (fun o => Stmt.storedAll o.toList) declaration.parse) :
    Keeps [] Stmt.stored (statement expression inner declaration) := by
  have ending (make : Expr → Stmt) (cause : Cause) (same : ∀ e, (make e).stored = e.stored) :
      Keeps [] Stmt.stored (make <$> terminated expression cause) :=
    (keeps_terminated cause h).bind fun e => .pure (same e ▸ List.Sublist.refl _)
  have behindKeyword {p : Parser Stmt} (hp : Keeps [] Stmt.stored p) (t : Token) :
      Keeps [t] Stmt.stored p := hp.mono (List.nil_sublist [t])
  rw [statement_eq]
  refine .lookahead (behindKeyword (ending _ _ fun _ => rfl)) ?_
  refine .lookahead (behindKeyword (keeps_block hd)) ?_
  refine .lookahead (behindKeyword (keeps_conditional h hs)) ?_
  exact .lookahead (behindKeyword (keeps_loop h hs)) (ending _ _ fun _ => rfl)

theorem keeps_declared (h : Keeps [] Expr.stored expression.parse)
    (hs : Keeps [] Stmt.stored inner.parse) :
    Keeps [] Stmt.stored (declared expression inner) := by
  rw [declared_eq]
  exact .lookahead (fun t => (keeps_varDeclaration h).mono (List.nil_sublist [t])) hs

end

/-! ### Recovery -/

/-- A failed declaration leaves nothing behind. -/
theorem keeps_recovering {p : Parser Stmt} (suffix : LeavesSuffix (recovering p))
    (h : Keeps [] Stmt.stored p) :
    Keeps [] (fun o => Stmt.storedAll o.toList) (recovering p) := by
  intro ts o rest done
  have within := suffix ts
  rw [done] at within
  have keeps := h ts
  unfold recovering at done
  rcases hr : p ts with ⟨complaints, outcome⟩
  rw [hr] at done keeps
  cases outcome with
  | done s mid =>
    cases done
    obtain ⟨used, split, sub⟩ := keeps s rest rfl
    have alone : Stmt.storedAll (some s).toList = s.stored := List.append_nil _
    rw [← alone] at sub
    exact ⟨used, split, sub⟩
  | failed cause mid =>
    cases done
    obtain ⟨used, split⟩ := within
    exact ⟨used, split.symm, List.nil_sublist used⟩
  | tooDeep mid => cases done

/-! ### Grammars -/

namespace Grammar

/-- The values of all rules of the grammar store subsequences of what was read. -/
structure Keeps (g : Grammar) : Prop where
  unary : Parser.Keeps [] Expr.stored g.unary.parse
  expression : Parser.Keeps [] Expr.stored g.expression.parse
  statement : Parser.Keeps [] Stmt.stored g.statement.parse
  declaration : Parser.Keeps [] (fun o => Stmt.storedAll o.toList) g.declaration.parse

theorem keeps_exhausted : exhausted.Keeps := by
  refine ⟨?_, ?_, ?_, ?_⟩ <;> exact fun ts value rest done => nomatch done

theorem Keeps.extend {g : Grammar} (suffix : g.extend.LeavesSuffix) (h : g.Keeps) :
    g.extend.Keeps := by
  have unary : Parser.Keeps [] Expr.stored g.extend.unary.parse := by
    rw [extend_unary]
    exact keeps_unary h.unary h.expression
  have factor : Parser.Keeps [] Expr.stored g.factor.parse := keeps_chain isFactor unary
  have term : Parser.Keeps [] Expr.stored g.term.parse := keeps_chain isTerm factor
  have comparison : Parser.Keeps [] Expr.stored g.comparison.parse := keeps_chain isComparison term
  have equality : Parser.Keeps [] Expr.stored g.equality.parse := keeps_chain isEquality comparison
  have expression : Parser.Keeps [] Expr.stored g.extend.expression.parse := by
    rw [extend_expression]
    exact keeps_assignment equality h.expression
  have statement : Parser.Keeps [] Stmt.stored g.extend.statement.parse := by
    rw [extend_statement]
    exact keeps_statement expression h.statement h.declaration
  refine ⟨unary, expression, statement, ?_⟩
  rw [extend_declaration]
  exact keeps_recovering suffix.declaration (keeps_declared expression statement)

/-- **The values of the rules at every depth store subsequences of what was read.** -/
theorem keeps_ofDepth (depth : Nat) : (ofDepth depth).Keeps := by
  induction depth with
  | zero => exact keeps_exhausted
  | succ depth ih => exact ih.extend (leavesSuffix_ofDepth (depth + 1))

end Grammar

end Parser

/-! ### Whole programs -/

/-- **The statements of a parse store a subsequence of the tokens**, however faulty these are. -/
theorem Parsed.storedAll_sublist (depth : Nat) (tokens : List Token) :
    (Stmt.storedAll (ofTokens depth tokens).statements).Sublist (body tokens) := by
  have keeps : Parser.Keeps [] Stmt.storedAll (program depth) :=
    Parser.keeps_declarations _ (Parser.Grammar.keeps_ofDepth depth).declaration
  rw [ofTokens]
  rcases hr : program depth (body tokens) with ⟨complaints, outcome⟩
  cases outcome with
  | done ss rest =>
    obtain ⟨used, split, sub⟩ := keeps (body tokens) ss rest (by rw [hr])
    rw [split]
    exact sub.trans (List.sublist_append_left used rest)
  | failed cause rest => exact List.nil_sublist _
  | tooDeep rest => exact List.nil_sublist _

end Lox
