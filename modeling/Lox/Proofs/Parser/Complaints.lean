import Mathlib.Data.List.Perm.Subperm
import Lox.Proofs.Parser.Suffix

/-!
# Complaints against the tokens read

A parser complains about tokens that it reads, about no token twice: a failure is at the next token,
which recovery drops in any case, and a bad target is complained about at the equals sign before the
value. About the end of the program it may complain again and again, once for each declaration that
is still open there, but every declaration within another one stands in a block, and the brace of
this block was read.

`Covers` compares complaints with the tokens read meanwhile, and `Accounts` says of a parser that its
complaints are covered, however it ends. Recovery may add one complaint about the end, if nothing is
left behind it (`Recovers`); the brace of the block around it makes up for that.
-/

namespace Lox.Parser

variable {α β : Type}

/-! ### Complaints and tokens -/

/-- The tokens that complaints are about. -/
def blamedTokens (cs : List Complaint) : List Token := cs.filterMap Complaint.blamed

/-- How many complaints are about the end of the program. -/
def endComplaints (cs : List Complaint) : Nat := cs.countP (·.blamed.isNone)

/-- How many of the tokens open a block. -/
def openingBraces (ts : List Token) : Nat := (ts.map Token.kind).count .leftBrace

@[simp] theorem blamedTokens_append (cs ds : List Complaint) :
    blamedTokens (cs ++ ds) = blamedTokens cs ++ blamedTokens ds := List.filterMap_append ..

@[simp] theorem endComplaints_append (cs ds : List Complaint) :
    endComplaints (cs ++ ds) = endComplaints cs + endComplaints ds := List.countP_append ..

@[simp] theorem openingBraces_append (ts us : List Token) :
    openingBraces (ts ++ us) = openingBraces ts + openingBraces us := by
  rw [openingBraces, List.map_append, List.count_append]
  rfl

/-- Each complaint is about another token of those used, or about the end; the latter at most once
for each block opened, and `spare` times more. -/
structure Covers (used : List Token) (cs : List Complaint) (spare : Nat) : Prop where
  blamed : (blamedTokens cs).Subperm used
  ends : endComplaints cs ≤ openingBraces used + spare

namespace Covers

variable {used used' : List Token} {cs ds : List Complaint} {m n : Nat}

/-- Without complaints any tokens will do. -/
theorem nil (used : List Token) : Covers used [] 0 := ⟨List.nil_subperm, Nat.zero_le _⟩

theorem mono (h : Covers used cs m) (le : m ≤ n) : Covers used cs n :=
  ⟨h.blamed, Nat.le_trans h.ends (Nat.add_le_add_left le _)⟩

theorem append (h : Covers used cs m) (h' : Covers used' ds n) :
    Covers (used ++ used') (cs ++ ds) (m + n) where
  blamed := by
    rw [blamedTokens_append]
    exact h.blamed.append h'.blamed
  ends := by
    have := h.ends
    have := h'.ends
    rw [endComplaints_append, openingBraces_append]
    omega

/-- A complaint about the token in hand. -/
theorem about (t : Token) (cause : Cause) : Covers [t] [⟨cause, some t⟩] 0 :=
  ⟨List.Subperm.refl _, Nat.zero_le _⟩

/-- A complaint about the end. -/
theorem about_end (cause : Cause) : Covers [] [⟨cause, none⟩] 1 :=
  ⟨List.nil_subperm, Nat.le_refl _⟩

theorem cons (t : Token) (h : Covers used cs n) : Covers (t :: used) cs n := by
  have step := (nil [t]).append h
  rwa [Nat.zero_add] at step

/-- An opening brace makes up for one complaint about the end. -/
theorem opening {t : Token} (brace : t.kind = .leftBrace) (h : Covers used cs (n + 1)) :
    Covers (t :: used) cs n where
  blamed := h.blamed.cons_right t
  ends := by
    have ends := h.ends
    have one : openingBraces [t] = 1 := by simp [openingBraces, brace]
    rw [← List.singleton_append, openingBraces_append, one]
    omega

/-- A complaint about the first token may also come last. -/
theorem cons_about (t : Token) (cause : Cause) (h : Covers used cs n) :
    Covers (t :: used) (cs ++ [⟨cause, some t⟩]) n where
  blamed := by
    rw [blamedTokens_append]
    exact (List.perm_append_singleton t used).subperm_left.1 (h.blamed.append (about t cause).blamed)
  ends := by
    rw [endComplaints_append]
    exact (h.cons t).ends

end Covers

/-! ### Parsers that account for their complaints -/

/-- What was read until the reply covers its complaints. -/
def Reply.Accounts (ts : List Token) (spare : Nat) (r : Reply α) : Prop :=
  ∃ used, ts = used ++ r.outcome.rest ∧ Covers used r.complaints spare

/-- However the parser ends, what it read covers its complaints. -/
def Accounts (p : Parser α) : Prop := ∀ ts, (p ts).Accounts ts 0

/-- How many complaints about the end a recovery may add that leaves these tokens. -/
def spareAt : List Token → Nat
  | [] => 1
  | _ :: _ => 0

theorem spareAt_le_one (rest : List Token) : spareAt rest ≤ 1 := by
  cases rest <;> simp [spareAt]

/-- As `Reply.Accounts`, but there may be one more complaint about the end if nothing is left. -/
def Reply.Recovers (ts : List Token) (r : Reply α) : Prop :=
  r.Accounts ts (spareAt r.outcome.rest)

/-- However the parser ends, what it read covers its complaints, but for one about the end if
nothing is left. -/
def Recovers (p : Parser α) : Prop := ∀ ts, (p ts).Recovers ts

namespace Reply.Accounts

variable {r : Reply α} {ts : List Token} {m n : Nat}

theorem mono (h : r.Accounts ts m) (le : m ≤ n) : r.Accounts ts n := by
  obtain ⟨used, split, covers⟩ := h
  exact ⟨used, split, covers.mono le⟩

theorem done (value : α) (ts : List Token) : (Reply.done value ts).Accounts ts 0 :=
  ⟨[], rfl, .nil []⟩

theorem failed (cause : Cause) (ts : List Token) : (Reply.failed cause ts : Reply α).Accounts ts 0 :=
  ⟨[], rfl, .nil []⟩

theorem bind {next : α → List Token → Reply β} (h : r.Accounts ts m)
    (hnext : ∀ value rest, r.outcome = .done value rest → (next value rest).Accounts rest n) :
    (r.bind next).Accounts ts (m + n) := by
  obtain ⟨complaints, outcome⟩ := r
  obtain ⟨used, rfl, covers⟩ := h
  cases outcome with
  | done value rest =>
    obtain ⟨used', split, covers'⟩ := hnext value rest rfl
    refine ⟨used ++ used', ?_, covers.append covers'⟩
    rw [List.append_assoc]
    exact congrArg (used ++ ·) split
  | failed cause rest => exact ⟨used, rfl, covers.mono (Nat.le_add_right _ _)⟩
  | tooDeep rest => exact ⟨used, rfl, covers.mono (Nat.le_add_right _ _)⟩

theorem cons (t : Token) (h : r.Accounts ts n) : r.Accounts (t :: ts) n := by
  obtain ⟨used, split, covers⟩ := h
  exact ⟨t :: used, congrArg (t :: ·) split, covers.cons t⟩

theorem opening {t : Token} (brace : t.kind = .leftBrace) (h : r.Accounts ts (n + 1)) :
    r.Accounts (t :: ts) n := by
  obtain ⟨used, split, covers⟩ := h
  exact ⟨t :: used, congrArg (t :: ·) split, covers.opening brace⟩

theorem recovers (h : r.Accounts ts 0) : r.Recovers ts := h.mono (Nat.zero_le _)

end Reply.Accounts

/-- Going on after a recovery, if there is nothing to complain about where nothing is left. -/
theorem Reply.Recovers.bind {r : Reply α} {ts : List Token} {next : α → List Token → Reply β}
    (h : r.Recovers ts) (hnil : ∀ value, ∃ w, next value [] = .done w [])
    (hnext : ∀ value rest, r.outcome = .done value rest → (next value rest).Recovers rest) :
    (r.bind next).Recovers ts := by
  obtain ⟨complaints, outcome⟩ := r
  cases outcome with
  | done value rest =>
    have goOn {m n : Nat} (h : Accounts ts m ⟨complaints, .done value rest⟩)
        (hnext : (next value rest).Accounts rest n) :
        (Reply.bind ⟨complaints, .done value rest⟩ next).Accounts ts (m + n) := by
      refine h.bind fun v mid same => ?_
      cases same
      exact hnext
    show Accounts ts (spareAt (next value rest).outcome.rest) _
    cases rest with
    | nil =>
      obtain ⟨w, silent⟩ := hnil value
      have quiet : (next value []).Accounts [] 0 := by
        rw [silent]
        exact .done w []
      rw [silent]
      exact goOn h quiet
    | cons t rest =>
      rw [← Nat.zero_add (spareAt _)]
      exact goOn h (hnext value (t :: rest) rfl)
  | failed cause rest => exact h
  | tooDeep rest => exact h

theorem Recovers.accounts_one {p : Parser α} (h : Recovers p) (ts : List Token) :
    (p ts).Accounts ts 1 :=
  (h ts).mono (spareAt_le_one _)

namespace Accounts

theorem pure (value : α) : Accounts (pure value : Parser α) := .done value

theorem fail (cause : Cause) : Accounts (fail cause : Parser α) := .failed cause

theorem bind {p : Parser α} {next : α → Parser β} (h : Accounts p)
    (hnext : ∀ value, Accounts (next value)) : Accounts (p >>= next) :=
  fun ts => (h ts).bind fun value rest _ => hnext value rest

theorem map {p : Parser α} (f : α → β) (h : Accounts p) : Accounts (f <$> p) :=
  h.bind fun value => pure (f value)

/-- Deciding by the next token, if going on behind it accounts for the token as well. -/
theorem lookahead_of {fits : Kind → Prop} [DecidablePred fits] {next : Token → Parser α}
    {other : Parser α} (hnext : ∀ t ts, fits t.kind → (next t ts).Accounts (t :: ts) 0)
    (hother : Accounts other) : Accounts (lookahead fits next other) := by
  intro ts
  cases ts with
  | nil => exact hother []
  | cons t ts =>
    rw [lookahead_cons]
    split
    next k => exact hnext t ts k
    next => exact hother (t :: ts)

theorem lookahead {fits : Kind → Prop} [DecidablePred fits] {next : Token → Parser α}
    {other : Parser α} (hnext : ∀ t, Accounts (next t)) (hother : Accounts other) :
    Accounts (lookahead fits next other) :=
  lookahead_of (fun t ts _ => (hnext t ts).cons t) hother

theorem expect (kind : Kind) (cause : Cause) : Accounts (expect kind cause) := by
  rw [expect_eq]
  exact lookahead (fun t => pure t) (fail cause)

end Accounts

/-! ### Expressions -/

section
variable {operand expression value : Rule Expr}

theorem accounts_chainFrom (isOperator : Kind → Bool) (h : Accounts operand.parse) (left : Expr) :
    Accounts (chainFrom isOperator operand left) := by
  intro ts
  -- every operand shortens what is left
  induction hn : ts.length using Nat.strongRecOn generalizing ts left with
  | _ n ih =>
    cases ts with
    | nil =>
      rw [chainFrom_nil]
      exact .done left []
    | cons op ts =>
      rw [chainFrom_cons]
      split
      · refine ((h ts).bind (n := 0) fun right rest done => ?_).cons op
        have shorter := operand.length_le_of_done done
        refine ih rest.length ?_ _ rest rfl
        rw [← hn, List.length_cons]
        omega
      · exact .done left (op :: ts)

theorem accounts_chain (isOperator : Kind → Bool) (h : Accounts operand.parse) :
    Accounts (chain isOperator operand) :=
  h.bind fun left => accounts_chainFrom isOperator h left

theorem accounts_primary (h : Accounts expression.parse) : Accounts (primary expression) := by
  rw [primary_eq]
  refine .lookahead (fun _ => .pure _) (.lookahead (fun _ => .pure _) ?_)
  refine .lookahead (fun _ => h.bind fun _ => ?_) (.fail _)
  exact (Accounts.expect _ _).bind fun _ => .pure _

theorem accounts_unary (hoperand : Accounts operand.parse) (h : Accounts expression.parse) :
    Accounts (unary operand expression) := by
  rw [unary_eq]
  exact .lookahead (fun _ => hoperand.bind fun _ => .pure _) (accounts_primary h)

/-- A bad target is complained about at the equals sign, which was read before the value and about
which nothing else complains. -/
theorem accounts_assignmentFrom (h : Accounts value.parse) (target : Expr) :
    Accounts (assignmentFrom value target) := by
  rw [assignmentFrom_eq]
  refine .lookahead_of (fun equals ts _ => ?_) (.pure target)
  obtain ⟨used, split, covers⟩ := h ts
  rw [bind_apply]
  rcases hr : value.parse ts with ⟨complaints, outcome⟩
  rw [hr] at split covers
  have split' : equals :: ts = (equals :: used) ++ outcome.rest := congrArg (equals :: ·) split
  cases outcome with
  | done v rest =>
    refine ⟨equals :: used, ?_, ?_⟩
    · cases target <;> exact split'
    · cases target with
      | ident name =>
        have step := (covers.cons equals).append (.nil [])
        simpa [Reply.bind, assignTo, Reply.done] using step
      | _ => exact covers.cons_about equals _
  | failed cause rest => exact ⟨equals :: used, split', covers.cons equals⟩
  | tooDeep rest => exact ⟨equals :: used, split', covers.cons equals⟩

theorem accounts_assignment (h : Accounts operand.parse) (hvalue : Accounts value.parse) :
    Accounts (assignment operand value) :=
  h.bind fun target => accounts_assignmentFrom hvalue target

end

/-! ### Statements -/

section
variable {expression : Rule Expr} {inner : Rule Stmt} {declaration : Rule (Option Stmt)}

theorem accounts_terminated (cause : Cause) (h : Accounts expression.parse) :
    Accounts (terminated expression cause) :=
  h.bind fun _ => (Accounts.expect _ _).bind fun _ => .pure _

theorem accounts_condition (opening closing : Cause) (h : Accounts expression.parse) :
    Accounts (condition expression opening closing) :=
  (Accounts.expect _ _).bind fun _ => h.bind fun _ => (Accounts.expect _ _).bind fun _ => .pure _

theorem accounts_varDeclaration (h : Accounts expression.parse) :
    Accounts (varDeclaration expression) := by
  refine (Accounts.expect _ _).bind fun _ => Accounts.bind ?_ fun _ =>
    (Accounts.expect _ _).bind fun _ => .pure _
  rw [optional_eq]
  exact .lookahead (fun _ => h.bind fun _ => .pure _) (.pure none)

/-- Once nothing is left the declarations are over, so only the last of them can have one complaint
more. -/
theorem recovers_declarations (closes : Kind → Bool) (h : Recovers declaration.parse) :
    Recovers (declarations closes declaration) := by
  intro ts
  induction hn : ts.length using Nat.strongRecOn generalizing ts with
  | _ n ih =>
    cases ts with
    | nil =>
      rw [declarations_nil]
      exact (Reply.Accounts.done [] []).recovers
    | cons t ts =>
      rw [declarations_cons]
      split
      · exact (Reply.Accounts.done [] (t :: ts)).recovers
      · refine (h (t :: ts)).bind (fun s => ⟨s.toList ++ [], ?_⟩) fun s rest done => ?_
        · rw [declarations_nil]
          rfl
        · have shorter := declaration.length_le_of_done done
          have others := ih rest.length (by rw [← hn]; simp only [List.length_cons] at *; omega)
            rest rfl
          exact others.bind (fun ss => ⟨_, rfl⟩) fun ss rest _ => (Reply.Accounts.done _ rest).recovers

/-- The body of a block may have one complaint too many about the end, or else the closing brace is
missing there. -/
theorem accounts_block (h : Recovers declaration.parse) (ts : List Token) :
    (block declaration ts).Accounts ts 1 :=
  ((recovers_declarations _ h).accounts_one ts).bind fun _ rest _ =>
    ((Accounts.expect _ _).bind fun _ => .pure _) rest

theorem accounts_elseFrom (hs : Accounts inner.parse) (c : Expr) (yes : Stmt) :
    Accounts (elseFrom inner c yes) := by
  rw [elseFrom_eq]
  exact .lookahead (fun _ => hs.bind fun _ => .pure _) (.pure _)

theorem accounts_conditional (h : Accounts expression.parse) (hs : Accounts inner.parse) :
    Accounts (conditional expression inner) :=
  (accounts_condition _ _ h).bind fun c => hs.bind fun yes => accounts_elseFrom hs c yes

theorem accounts_loop (h : Accounts expression.parse) (hs : Accounts inner.parse) :
    Accounts (loop expression inner) :=
  (accounts_condition _ _ h).bind fun _ => hs.bind fun _ => .pure _

theorem accounts_statement (h : Accounts expression.parse) (hs : Accounts inner.parse)
    (hd : Recovers declaration.parse) : Accounts (statement expression inner declaration) := by
  rw [statement_eq]
  refine .lookahead (fun _ => (accounts_terminated _ h).map _) ?_
  refine .lookahead_of (fun t ts brace => (accounts_block hd ts).opening brace) ?_
  refine .lookahead (fun _ => accounts_conditional h hs) ?_
  exact .lookahead (fun _ => accounts_loop h hs) ((accounts_terminated _ h).map _)

theorem accounts_declared (h : Accounts expression.parse) (hs : Accounts inner.parse) :
    Accounts (declared expression inner) := by
  rw [declared_eq]
  exact .lookahead (fun _ => accounts_varDeclaration h) hs

end

/-! ### Recovery -/

/-- The token that a failure is at is dropped, with or without others, if there is one. -/
theorem recovers_recovering {p : Parser Stmt} (h : Accounts p) : Recovers (recovering p) := by
  intro ts
  obtain ⟨used, split, covers⟩ := h ts
  unfold recovering
  rcases hr : p ts with ⟨complaints, outcome⟩
  rw [hr] at split covers
  cases outcome with
  | done s rest => exact Reply.Accounts.recovers ⟨used, split, covers⟩
  | failed cause rest =>
    cases rest with
    | nil =>
      have step := covers.append (.about_end cause)
      rw [List.append_nil, Nat.zero_add] at step
      exact ⟨used, split, step⟩
    | cons t rest =>
      obtain ⟨dropped, drop⟩ := synchronize_suffix (t :: rest)
      have step := covers.append ((Covers.about t cause).append (.nil dropped))
      refine Reply.Accounts.recovers ⟨used ++ t :: dropped, ?_, step⟩
      calc ts = used ++ t :: rest := split
        _ = used ++ t :: (dropped ++ synchronize (t :: rest)) := by rw [drop, List.tail_cons]
        _ = (used ++ t :: dropped) ++ synchronize (t :: rest) := by
          rw [List.append_assoc, List.cons_append]
  | tooDeep rest => exact Reply.Accounts.recovers ⟨used, split, covers⟩

/-! ### Grammars -/

namespace Grammar

/-- All rules of the grammar account for their complaints. -/
structure Accounts (g : Grammar) : Prop where
  unary : Parser.Accounts g.unary.parse
  expression : Parser.Accounts g.expression.parse
  statement : Parser.Accounts g.statement.parse
  declaration : Parser.Recovers g.declaration.parse

theorem accounts_exhausted : exhausted.Accounts := by
  have silent {α : Type} (ts : List Token) : (⟨[], .tooDeep ts⟩ : Reply α).Accounts ts 0 :=
    ⟨[], rfl, .nil []⟩
  exact ⟨silent, silent, silent, fun ts => (silent ts).recovers⟩

theorem Accounts.extend {g : Grammar} (h : g.Accounts) : g.extend.Accounts := by
  have unary : Parser.Accounts g.extend.unary.parse := by
    rw [extend_unary]
    exact accounts_unary h.unary h.expression
  have factor : Parser.Accounts g.factor.parse := accounts_chain isFactor unary
  have term : Parser.Accounts g.term.parse := accounts_chain isTerm factor
  have comparison : Parser.Accounts g.comparison.parse := accounts_chain isComparison term
  have equality : Parser.Accounts g.equality.parse := accounts_chain isEquality comparison
  have expression : Parser.Accounts g.extend.expression.parse := by
    rw [extend_expression]
    exact accounts_assignment equality h.expression
  have statement : Parser.Accounts g.extend.statement.parse := by
    rw [extend_statement]
    exact accounts_statement expression h.statement h.declaration
  refine ⟨unary, expression, statement, ?_⟩
  rw [extend_declaration]
  exact recovers_recovering (accounts_declared expression statement)

/-- **The rules at every depth account for their complaints.** -/
theorem accounts_ofDepth (depth : Nat) : (ofDepth depth).Accounts := by
  induction depth with
  | zero => exact accounts_exhausted
  | succ depth ih => exact ih.extend

end Grammar

end Lox.Parser

namespace Lox.Parsed

open Lox.Parser

/-- **What a program is made of covers the complaints about it**, but for one about its end. -/
theorem covers_complaints (depth : Nat) (tokens : List Token) :
    Covers (body tokens) (ofTokens depth tokens).complaints 1 := by
  have recovers : Recovers (program depth) :=
    recovers_declarations _ (Grammar.accounts_ofDepth depth).declaration
  obtain ⟨used, split, covers⟩ := recovers.accounts_one (body tokens)
  have whole := covers.append (.nil (program depth (body tokens)).outcome.rest)
  rw [← split, List.append_nil] at whole
  have same : (ofTokens depth tokens).complaints = (program depth (body tokens)).complaints := by
    rw [ofTokens]
    rcases hr : program depth (body tokens) with ⟨complaints, outcome⟩
    rcases program_ends depth (body tokens) with ⟨ss, done⟩ | ⟨rest, deep⟩
    · rw [hr] at done
      cases done
      rfl
    · rw [hr] at deep
      cases deep
      rfl
  rw [same]
  exact whole

end Lox.Parsed
