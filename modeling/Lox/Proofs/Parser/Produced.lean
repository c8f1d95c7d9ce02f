import Lox.Proofs.Parser.RoundTrip
import Lox.Proofs.Parser.Suffix

/-!
# Every tree of a parse is one of the grammar

The statements of a parse are derived by the grammar also when there are complaints. What a parser
reads without complaint is known exactly (`Grammar.readsWithin_ofDepth`); here it may have
complained, and recovered from failures inside of blocks, and then only its values can be described.
`Gives P p` says that whenever `p` has a value, `P` holds of it and of the tokens left behind it.
The invariant of the rules is that expressions bind at the level of their rule, and that statements
are well formed and took the `else` that belongs to them (`Grammar.Sound`).
-/

namespace Lox.Parser

variable {α β : Type}

/-- Every value of the parser, and what is left behind it, satisfies a predicate. -/
def Gives (P : α → List Token → Prop) (p : Parser α) : Prop :=
  ∀ ts value rest, (p ts).outcome = .done value rest → P value rest

/-- A value after a bind has a value before it. -/
theorem Reply.exists_of_bind_done {r : Reply α} {next : α → List Token → Reply β} {w : β}
    {rest : List Token} (done : (r.bind next).outcome = .done w rest) :
    ∃ v mid, r.outcome = .done v mid ∧ (next v mid).outcome = .done w rest := by
  obtain ⟨complaints, outcome⟩ := r
  cases outcome with
  | done v mid => exact ⟨v, mid, rfl, done⟩
  | failed cause mid => cases done
  | tooDeep mid => cases done

namespace Gives

variable {P : α → List Token → Prop} {Q : β → List Token → Prop}

theorem mono {P' : α → List Token → Prop} {p : Parser α} (h : Gives P p)
    (imp : ∀ value rest, P value rest → P' value rest) : Gives P' p :=
  fun ts value rest done => imp value rest (h ts value rest done)

theorem pure {value : α} (h : ∀ rest, P value rest) : Gives P (Pure.pure value : Parser α) := by
  intro ts v rest done
  cases done
  exact h ts

theorem fail {cause : Cause} : Gives P (fail cause : Parser α) := by
  intro ts v rest done
  cases done

theorem bind {p : Parser α} {next : α → Parser β} (h : Gives P p)
    (hnext : ∀ value rest, P value rest → Gives Q (next value)) : Gives Q (p >>= next) := by
  intro ts w rest done
  obtain ⟨v, mid, hv, hw⟩ := Reply.exists_of_bind_done done
  exact hnext v mid (h ts v mid hv) mid w rest hw

theorem map {p : Parser α} (f : α → β) (h : Gives P p)
    (imp : ∀ value rest, P value rest → ∀ rest', Q (f value) rest') : Gives Q (f <$> p) :=
  h.bind fun value rest hv => pure (imp value rest hv)

/-- The value of a parser about which nothing is known. -/
theorem any (p : Parser α) : Gives (fun _ _ => True) p := fun _ _ _ _ => trivial

theorem lookahead {fits : Kind → Prop} [DecidablePred fits] {next : Token → Parser α}
    {other : Parser α} (hnext : ∀ t, fits t.kind → Gives P (next t)) (hother : Gives P other) :
    Gives P (lookahead fits next other) := by
  intro ts value rest done
  cases ts with
  | nil => exact hother [] value rest done
  | cons t ts =>
    rw [lookahead_cons] at done
    split at done
    next k => exact hnext t k ts value rest done
    next => exact hother (t :: ts) value rest done

theorem expect (kind : Kind) (cause : Cause) :
    Gives (fun t _ => t.kind = kind) (expect kind cause) := by
  rw [expect_eq]
  exact lookahead (fun t k => pure fun _ => k) fail

end Gives

/-! ### Expressions -/

/-- The values are expressions of the level or tighter. -/
abbrev GivesLevel (level depth : Nat) (p : Parser Expr) : Prop :=
  Gives (fun e _ => IsPhrase level depth e) p

section
variable {operand expression value : Rule Expr} {level depth : Nat}

theorem givesLevel_chainFrom {isOperator : Kind → Bool} (ops : OperatorsAt isOperator level)
    (h : GivesLevel (level + 1) depth operand.parse) {left : Expr}
    (phrase : IsPhrase level depth left) :
    GivesLevel level depth (chainFrom isOperator operand left) := by
  intro ts
  -- each operand shortens what is left, and the chain so far becomes the next left operand
  induction hn : ts.length using Nat.strongRecOn generalizing ts left with
  | _ n ih =>
    intro e rest done
    cases ts with
    | nil =>
      rw [chainFrom_nil] at done
      cases done
      exact phrase
    | cons op ts =>
      rw [chainFrom_cons] at done
      split at done
      next isOp =>
        obtain ⟨right, mid, hright, done⟩ := Reply.exists_of_bind_done done
        have shorter := operand.length_le_of_done hright
        have phrase' := phrase.binary ((ops.iff _).1 isOp) (h ts right mid hright)
        refine ih mid.length ?_ phrase' mid rfl e rest done
        rw [← hn, List.length_cons]
        omega
      next =>
        cases done
        exact phrase

theorem givesLevel_chain {isOperator : Kind → Bool} (ops : OperatorsAt isOperator level)
    (h : GivesLevel (level + 1) depth operand.parse) :
    GivesLevel level depth (chain isOperator operand) :=
  h.bind fun _ _ phrase => givesLevel_chainFrom ops h (phrase.mono (Nat.le_succ level))

theorem givesLevel_primary (h : GivesLevel 0 depth expression.parse) :
    GivesLevel 6 (depth + 1) (primary expression) := by
  rw [primary_eq]
  refine .lookahead (fun t k => .pure fun _ => ?_) (.lookahead (fun t k => .pure fun _ => ?_) ?_)
  · exact ⟨isLiteral_iff.1 k, Nat.le_refl _, Nat.le_add_left _ _⟩
  · exact ⟨k, Nat.le_refl _, Nat.le_add_left _ _⟩
  · refine .lookahead (fun _ _ => h.bind fun inner _ phrase => ?_) .fail
    refine (Gives.any _).bind fun _ _ _ => .pure fun _ => ?_
    exact ⟨phrase.stratified, Nat.le_refl _, Nat.succ_le_succ phrase.nesting_le⟩

theorem givesLevel_unary (hoperand : GivesLevel 5 depth operand.parse)
    (h : GivesLevel 0 depth expression.parse) :
    GivesLevel 5 (depth + 1) (unary operand expression) := by
  rw [unary_eq]
  refine .lookahead (fun op k => hoperand.bind fun right _ phrase => .pure fun _ => ?_) ?_
  · exact ⟨⟨isUnary_iff.1 k, phrase.level_le, phrase.stratified⟩, Nat.le_refl _,
      Nat.succ_le_succ phrase.nesting_le⟩
  · exact (givesLevel_primary h).mono fun _ _ phrase => phrase.mono (by decide)

/-- An assignment whose target is bad is replaced by the target. -/
theorem givesLevel_assignTo {target v : Expr} (equals : Token)
    (phrase : IsPhrase 1 (depth + 1) target) (phrase_v : IsPhrase 0 depth v) :
    GivesLevel 0 (depth + 1) (assignTo equals target v) := by
  unfold assignTo
  split
  · exact .pure fun _ => ⟨⟨phrase.stratified, phrase_v.stratified⟩, Nat.zero_le _,
      Nat.succ_le_succ phrase_v.nesting_le⟩
  · exact (Gives.any _).bind fun _ _ _ => .pure fun _ => phrase.mono (Nat.zero_le _)

theorem givesLevel_assignment (h : GivesLevel 1 (depth + 1) operand.parse)
    (hvalue : GivesLevel 0 depth value.parse) :
    GivesLevel 0 (depth + 1) (assignment operand value) := by
  refine h.bind fun target _ phrase => ?_
  rw [assignmentFrom_eq]
  refine .lookahead (fun t _ => hvalue.bind fun v _ phrase_v => ?_) (.pure fun _ => ?_)
  · exact givesLevel_assignTo t phrase phrase_v
  · exact phrase.mono (Nat.zero_le _)

end

/-! ### Statements -/

/-- The values are statements but no declarations, and no `else` is left behind them. -/
abbrev GivesStatement (p : Parser Stmt) : Prop :=
  Gives (fun s rest => s.WellFormed ∧ s.isVar = false ∧ Settled s rest) p

section
variable {expression : Rule Expr} {inner : Rule Stmt} {declaration : Rule (Option Stmt)}
  {depth : Nat}

theorem settled_of_closed {s : Stmt} (closed : s.endsOpen = false) (rest : List Token) :
    Settled s rest := by
  intro isOpen
  rw [closed] at isOpen
  cases isOpen

theorem gives_terminated (h : GivesLevel 0 depth expression.parse) (cause : Cause) :
    GivesLevel 0 depth (terminated expression cause) :=
  h.bind fun _ _ phrase => (Gives.any _).bind fun _ _ _ => .pure fun _ => phrase

theorem gives_condition (h : GivesLevel 0 depth expression.parse) (opening closing : Cause) :
    GivesLevel 0 depth (condition expression opening closing) :=
  (Gives.any _).bind fun _ _ _ => h.bind fun _ _ phrase => (Gives.any _).bind fun _ _ _ =>
    .pure fun _ => phrase

theorem gives_varDeclaration (h : GivesLevel 0 depth expression.parse) :
    Gives (fun s _ => s.WellFormed) (varDeclaration expression) := by
  have optional : Gives (fun o _ => ∀ e ∈ o, e.Stratified)
      (varDeclaration.optional expression) := by
    rw [optional_eq]
    refine .lookahead (fun _ _ => h.bind fun e _ phrase => .pure fun _ => ?_) (.pure fun _ => ?_)
    · simpa using phrase.stratified
    · simp
  refine (Gives.expect _ _).bind fun name _ k => optional.bind fun o _ stratified => ?_
  refine (Gives.any _).bind fun _ _ _ => .pure fun _ => ?_
  cases o with
  | none => exact k
  | some e => exact ⟨k, stratified e rfl⟩

theorem gives_declarations (closes : Kind → Bool)
    (h : Gives (fun o _ => ∀ s ∈ o, s.WellFormed) declaration.parse) :
    Gives (fun ss _ => ∀ s ∈ ss, s.WellFormed) (declarations closes declaration) := by
  intro ts
  -- every declaration shortens what is left
  induction hn : ts.length using Nat.strongRecOn generalizing ts with
  | _ n ih =>
    intro ss rest done
    cases ts with
    | nil =>
      rw [declarations_nil] at done
      cases done
      exact fun _ mem => nomatch mem
    | cons t ts =>
      rw [declarations_cons] at done
      split at done
      next =>
        cases done
        exact fun _ mem => nomatch mem
      next =>
        obtain ⟨o, mid, ho, done⟩ := Reply.exists_of_bind_done done
        obtain ⟨ss', mid', hss, done⟩ := Reply.exists_of_bind_done done
        cases done
        have shorter := declaration.length_le_of_done ho
        have wellFormed := ih mid.length
          (by rw [← hn]; simp only [List.length_cons] at shorter ⊢; omega) mid rfl ss' rest hss
        refine List.forall_mem_append.2 ⟨fun s mem => ?_, wellFormed⟩
        exact h _ o mid ho s (Option.mem_toList.1 mem)

theorem gives_block (h : Gives (fun o _ => ∀ s ∈ o, s.WellFormed) declaration.parse) :
    GivesStatement (block declaration) := by
  refine (gives_declarations _ h).bind fun body _ wellFormed => ?_
  refine (Gives.any _).bind fun _ _ _ => .pure fun rest => ?_
  exact ⟨Stmt.allWellFormed_iff.2 wellFormed, rfl, settled_of_closed rfl rest⟩

/-- What is left behind the first branch decides whether there is a second. -/
theorem gives_conditional (h : GivesLevel 0 depth expression.parse)
    (hs : GivesStatement inner.parse) : GivesStatement (conditional expression inner) := by
  refine (gives_condition h _ _).bind fun c _ phrase => ?_
  intro ts s rest done
  obtain ⟨yes, mid, hyes, done⟩ := Reply.exists_of_bind_done done
  obtain ⟨wellFormed, notVar, settled⟩ := hs ts yes mid hyes
  have open_case (notElse : ∀ t ∈ mid.head?, t.kind ≠ .kwElse) :
      (Stmt.ifThen c yes).WellFormed ∧ (Stmt.ifThen c yes).isVar = false ∧
        Settled (.ifThen c yes) mid :=
    ⟨⟨phrase.stratified, notVar, wellFormed⟩, rfl, fun _ => notElse⟩
  rw [elseFrom_eq] at done
  cases mid with
  | nil =>
    cases done
    exact open_case (by simp)
  | cons t mid =>
    rw [lookahead_cons] at done
    split at done
    next k =>
      obtain ⟨no, mid', hno, done⟩ := Reply.exists_of_bind_done done
      cases done
      obtain ⟨wellFormed', notVar', settled'⟩ := hs mid no rest hno
      -- the first branch took no `else` itself, so it does not end open
      have closed : yes.endsOpen = false := by
        by_contra isOpen
        exact settled (by simpa using isOpen) t rfl k
      exact ⟨⟨phrase.stratified, ⟨notVar, closed, wellFormed⟩, notVar', wellFormed'⟩, rfl,
        settled'⟩
    next k =>
      cases done
      exact open_case (by simpa using k)

theorem gives_loop (h : GivesLevel 0 depth expression.parse) (hs : GivesStatement inner.parse) :
    GivesStatement (loop expression inner) := by
  refine (gives_condition h _ _).bind fun c _ phrase => ?_
  intro ts s rest done
  obtain ⟨body, mid, hbody, done⟩ := Reply.exists_of_bind_done done
  cases done
  obtain ⟨wellFormed, notVar, settled⟩ := hs ts body rest hbody
  exact ⟨⟨phrase.stratified, notVar, wellFormed⟩, rfl, settled⟩

theorem gives_statement (h : GivesLevel 0 depth expression.parse)
    (hs : GivesStatement inner.parse)
    (hd : Gives (fun o _ => ∀ s ∈ o, s.WellFormed) declaration.parse) :
    GivesStatement (statement expression inner declaration) := by
  rw [statement_eq]
  refine .lookahead (fun _ _ => ?_) (.lookahead (fun _ _ => gives_block hd) ?_)
  · exact (gives_terminated h _).map _ fun e _ phrase rest =>
      ⟨phrase.stratified, rfl, settled_of_closed rfl rest⟩
  · refine .lookahead (fun _ _ => gives_conditional h hs) ?_
    refine .lookahead (fun _ _ => gives_loop h hs) ?_
    exact (gives_terminated h _).map _ fun e _ phrase rest =>
      ⟨phrase.stratified, rfl, settled_of_closed rfl rest⟩

theorem gives_declared (h : GivesLevel 0 depth expression.parse)
    (hs : GivesStatement inner.parse) :
    Gives (fun s _ => s.WellFormed) (declared expression inner) := by
  rw [declared_eq]
  exact .lookahead (fun _ _ => gives_varDeclaration h) (hs.mono fun _ _ sound => sound.1)

end

theorem gives_recovering {p : Parser Stmt} (h : Gives (fun s _ => s.WellFormed) p) :
    Gives (fun o _ => ∀ s ∈ o, s.WellFormed) (recovering p) := by
  intro ts o rest done
  unfold recovering at done
  split at done
  next complaints s mid reply =>
    cases done
    rintro _ ⟨⟩
    exact h ts s rest (by rw [reply])
  next =>
    cases done
    exact fun _ mem => nomatch mem
  next => cases done

/-! ### Grammars -/

namespace Grammar

/-- The values of the rules are trees of the grammar, whatever was complained about. -/
structure Sound (depth : Nat) (g : Grammar) : Prop where
  unary : GivesLevel 5 depth g.unary.parse
  expression : GivesLevel 0 depth g.expression.parse
  statement : GivesStatement g.statement.parse
  declaration : Gives (fun o _ => ∀ s ∈ o, s.WellFormed) g.declaration.parse

theorem sound_exhausted : exhausted.Sound 0 := by
  refine ⟨?_, ?_, ?_, ?_⟩ <;>
  · intro ts value rest done
    cases done

theorem Sound.extend {depth : Nat} {g : Grammar} (h : g.Sound depth) :
    g.extend.Sound (depth + 1) := by
  have unary : GivesLevel 5 (depth + 1) g.extend.unary.parse := by
    rw [extend_unary]
    exact givesLevel_unary h.unary h.expression
  have factor : GivesLevel 4 (depth + 1) g.factor.parse :=
    givesLevel_chain operatorsAt_factor unary
  have term : GivesLevel 3 (depth + 1) g.term.parse := givesLevel_chain operatorsAt_term factor
  have comparison : GivesLevel 2 (depth + 1) g.comparison.parse :=
    givesLevel_chain operatorsAt_comparison term
  have equality : GivesLevel 1 (depth + 1) g.equality.parse :=
    givesLevel_chain operatorsAt_equality comparison
  have expression : GivesLevel 0 (depth + 1) g.extend.expression.parse := by
    rw [extend_expression]
    exact givesLevel_assignment equality h.expression
  have statement : GivesStatement g.extend.statement.parse := by
    rw [extend_statement]
    exact gives_statement expression h.statement h.declaration
  refine ⟨unary, expression, statement, ?_⟩
  rw [extend_declaration]
  exact gives_recovering (gives_declared expression statement)

theorem sound_ofDepth (depth : Nat) : (ofDepth depth).Sound depth := by
  induction depth with
  | zero => exact sound_exhausted
  | succ depth ih => exact ih.extend

end Grammar

end Lox.Parser

namespace Lox.Parsed

open Lox.Parser

/-- **Every statement of a parse is one that the grammar derives**, also when there are problems.
-/
theorem wellFormed_of_mem {depth : Nat} {tokens : List Token} {s : Stmt}
    (mem : s ∈ (ofTokens depth tokens).statements) : s.WellFormed := by
  have sound := gives_declarations (fun _ => false) (Grammar.sound_ofDepth depth).declaration
    (body tokens)
  rw [ofTokens] at mem
  rcases reply : program depth (body tokens) with ⟨complaints, outcome⟩
  rw [reply] at mem
  cases outcome with
  | done ss rest => exact sound ss rest (congrArg Reply.outcome reply) s mem
  | failed cause rest => cases mem
  | tooDeep rest => cases mem

end Lox.Parsed
