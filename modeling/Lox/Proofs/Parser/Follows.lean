import Lox.Proofs.Parser.Cursor
import Lox.Proofs.Parser.RoundTrip
import Lox.Proofs.Parser.Suffix

/-!
# The walk gives the parser's reply

The walk has an index where the parser has the tokens that are left. For a token list that is cut at
its first end token (`Input`) the two are the same thing: the index is before a token of the body,
and what is left is the rest of the body (`cursorAt`). `Follows` says that a walk, started at any
such place, ends as the reply of a parser says. It is shown for `branch` against `lookahead` once
and then carried through the productions. The two loops need at least one round for each token left,
and recovery needs a token to look back on, so a body that is not empty.
-/

namespace Lox

open Lox.Parser

/-- A token list, cut at its first end token. -/
structure Input where
  body : List Token
  eof : Token
  after : List Token
  kind_ne_eof : ∀ t ∈ body, t.kind ≠ .eof
  kind_eof : eof.kind = .eof

namespace Input

/-- The whole list. -/
def tokens (input : Input) : List Token := input.body ++ input.eof :: input.after

theorem body_tokens (input : Input) : Parsed.body input.tokens = input.body :=
  Parsed.body_append_eof input.kind_ne_eof input.kind_eof

theorem closing_tokens (input : Input) : Parsed.closing input.tokens = input.eof :=
  Parsed.closing_append_eof input.kind_ne_eof input.kind_eof

/-- Every list with an end token can be cut there. -/
theorem exists_of_findIdx? {tokens : List Token} {n : Nat}
    (ends : tokens.findIdx? (·.kind = .eof) = some n) :
    ∃ input : Input, input.tokens = tokens ∧ input.body.length = n := by
  obtain ⟨lt, eof, first⟩ := List.findIdx?_eq_some_iff_getElem.1 ends
  refine ⟨⟨tokens.take n, tokens[n], tokens.drop (n + 1), ?_, by simpa using eof⟩, ?_, ?_⟩
  · intro t mem
    obtain ⟨i, hi, rfl⟩ := List.mem_iff_getElem.1 mem
    rw [List.length_take] at hi
    rw [List.getElem_take]
    simpa using first i (by omega)
  · rw [Input.tokens, List.getElem_cons_drop, List.take_append_drop]
  · rw [List.length_take]
    omega

end Input

namespace Walk

variable {α β : Type} {input : Input}

theorem bind_ok {walk : Walk α} {next : α → Walk β} {c c' : Cursor} {a : α}
    (h : walk c = .ok a c') : (walk >>= next) c = next a c' := by
  show EStateM.bind walk next c = _
  rw [EStateM.bind, h]

theorem bind_error {walk : Walk α} {next : α → Walk β} {c c' : Cursor} {stop : Stop}
    (h : walk c = .error stop c') : (walk >>= next) c = .error stop c' := by
  show EStateM.bind walk next c = _
  rw [EStateM.bind, h]

/-! ### The index within the body -/

/-- The cursor before the last tokens of the body, with what was reported. -/
def cursorAt (input : Input) (rest : List Token) (reported : List Diagnostic) : Cursor :=
  ⟨input.body.length - rest.length, reported⟩

@[simp] theorem reported_cursorAt (input : Input) (rest : List Token)
    (reported : List Diagnostic) : (cursorAt input rest reported).reported = reported := rfl

variable {t : Token} {ts rest : List Token} {reported : List Diagnostic}

theorem getElem?_of_suffix (h : rest <:+ input.body) :
    input.tokens[input.body.length - rest.length]? = some (rest.head?.getD input.eof) := by
  obtain ⟨before, split⟩ := h
  rw [Input.tokens, ← split, List.length_append, Nat.add_sub_cancel, List.append_assoc,
    List.getElem?_append_right (Nat.le_refl _), Nat.sub_self]
  cases rest <;> rfl

theorem position_of_cons (h : t :: ts <:+ input.body) :
    input.body.length - ts.length = input.body.length - (t :: ts).length + 1 := by
  have := h.length_le
  rw [List.length_cons] at this ⊢
  omega

theorem kind_ne_eof_of_cons (h : t :: ts <:+ input.body) : t.kind ≠ .eof :=
  input.kind_ne_eof t (h.subset (List.mem_cons_self ..))

theorem peek_cursorAt (h : rest <:+ input.body) :
    peek input.tokens (cursorAt input rest reported) =
      .ok (rest.head?.getD input.eof) (cursorAt input rest reported) := by
  show read input.tokens (input.body.length - rest.length) _ = _
  rw [read, getElem?_of_suffix h]
  rfl

/-- Behind a token of the body, this token is the one before. -/
theorem previous_cursorAt (h : t :: ts <:+ input.body) :
    previous input.tokens (cursorAt input ts reported) = .ok t (cursorAt input ts reported) := by
  have position : (cursorAt input ts reported).position =
      input.body.length - (t :: ts).length + 1 := position_of_cons h
  have look : (get : Walk Cursor) (cursorAt input ts reported) =
      .ok (cursorAt input ts reported) (cursorAt input ts reported) := rfl
  rw [previous, bind_ok look, position]
  show read input.tokens (input.body.length - (t :: ts).length) _ = _
  rw [read, getElem?_of_suffix h]
  rfl

theorem isAtEnd_nil : isAtEnd input.tokens (cursorAt input [] reported) =
    .ok true (cursorAt input [] reported) := by
  rw [isAtEnd, bind_ok (peek_cursorAt (List.nil_suffix))]
  simp [input.kind_eof, pure, EStateM.pure]

theorem isAtEnd_cons (h : t :: ts <:+ input.body) :
    isAtEnd input.tokens (cursorAt input (t :: ts) reported) =
      .ok false (cursorAt input (t :: ts) reported) := by
  rw [isAtEnd, bind_ok (peek_cursorAt h)]
  simp [kind_ne_eof_of_cons h, pure, EStateM.pure]

theorem move_cons (h : t :: ts <:+ input.body) :
    move input.tokens (cursorAt input (t :: ts) reported) =
      .ok () (cursorAt input ts reported) := by
  rw [move, bind_ok (peek_cursorAt h)]
  show (if t.kind = .eof then _ else _ : Walk Unit) _ = _
  rw [if_neg (kind_ne_eof_of_cons h)]
  exact congrArg (fun i => EStateM.Result.ok () (Cursor.mk i reported)) (position_of_cons h).symm

theorem advance_cons (h : t :: ts <:+ input.body) :
    advance input.tokens (cursorAt input (t :: ts) reported) =
      .ok t (cursorAt input ts reported) := by
  rw [advance, bind_ok (isAtEnd_cons h), if_neg Bool.false_ne_true, bind_ok (move_cons h)]
  exact previous_cursorAt h

/-- At the end nothing moves. The body has a last token unless it is empty. -/
theorem advance_nil (h : input.body ≠ []) :
    advance input.tokens (cursorAt input [] reported) =
      .ok (input.body.getLast h) (cursorAt input [] reported) := by
  rw [advance, bind_ok isAtEnd_nil, if_pos rfl]
  refine previous_cursorAt ⟨input.body.dropLast, ?_⟩
  exact List.dropLast_append_getLast h

theorem check_nil (kind : Kind) : check input.tokens kind (cursorAt input [] reported) =
    .ok false (cursorAt input [] reported) := by
  rw [check, bind_ok isAtEnd_nil, if_pos rfl]
  rfl

theorem check_cons (kind : Kind) (h : t :: ts <:+ input.body) :
    check input.tokens kind (cursorAt input (t :: ts) reported) =
      .ok (decide (t.kind = kind)) (cursorAt input (t :: ts) reported) := by
  rw [check, bind_ok (isAtEnd_cons h), if_neg Bool.false_ne_true, bind_ok (peek_cursorAt h)]
  rfl

theorem accept_nil (kinds : List Kind) : accept input.tokens kinds (cursorAt input [] reported) =
    .ok false (cursorAt input [] reported) := by
  induction kinds with
  | nil => rfl
  | cons kind kinds ih =>
    rw [accept, bind_ok (check_nil kind), if_neg Bool.false_ne_true]
    exact ih

theorem accept_cons_of_mem {kinds : List Kind} (h : t :: ts <:+ input.body)
    (mem : t.kind ∈ kinds) : accept input.tokens kinds (cursorAt input (t :: ts) reported) =
      .ok true (cursorAt input ts reported) := by
  induction kinds with
  | nil => cases mem
  | cons kind kinds ih =>
    rw [accept, bind_ok (check_cons kind h)]
    by_cases k : t.kind = kind
    · rw [if_pos (by simpa using k), bind_ok (advance_cons h)]
      rfl
    · rw [if_neg (by simpa using k)]
      exact ih ((List.mem_cons.1 mem).resolve_left k)

theorem accept_cons_of_not_mem {kinds : List Kind} (h : t :: ts <:+ input.body)
    (mem : t.kind ∉ kinds) : accept input.tokens kinds (cursorAt input (t :: ts) reported) =
      .ok false (cursorAt input (t :: ts) reported) := by
  induction kinds with
  | nil => rfl
  | cons kind kinds ih =>
    rw [List.mem_cons, not_or] at mem
    rw [accept, bind_ok (check_cons kind h), if_neg (by simpa using mem.1)]
    exact ih mem.2

/-! ### Following a parser -/

/-- How a walk ends that gives the reply of a parser. -/
def ofReply (input : Input) (reported : List Diagnostic) (reply : Reply α) :
    EStateM.Result Stop Cursor α :=
  let reported := reported ++ reply.complaints.map (Complaint.diagnostic input.eof)
  match reply.outcome with
  | .done value rest => .ok value (cursorAt input rest reported)
  | .failed cause rest =>
    .error (.raised (Complaint.diagnostic input.eof ⟨cause, rest.head?⟩))
      (cursorAt input rest reported)
  | .tooDeep rest => .error .tooDeep (cursorAt input rest reported)

/-- The walk over the tokens gives the reply of the parser, from every place in the body. -/
structure Follows (input : Input) (walk : Walk α) (p : Parser α) : Prop where
  suffix : LeavesSuffix p
  run : ∀ rest reported, rest <:+ input.body →
    walk (cursorAt input rest reported) = ofReply input reported (p rest)

theorem ofReply_done (input : Input) (reported : List Diagnostic) (value : α) (rest : List Token) :
    ofReply input reported (.done value rest) = .ok value (cursorAt input rest reported) := by
  simp [ofReply, Reply.done]

theorem ofReply_failed (input : Input) (reported : List Diagnostic) (cause : Cause)
    (rest : List Token) : ofReply input reported (.failed cause rest : Reply α) =
      .error (.raised (Complaint.diagnostic input.eof ⟨cause, rest.head?⟩))
        (cursorAt input rest reported) := by
  simp [ofReply, Reply.failed]

theorem ofReply_after (input : Input) (reported : List Diagnostic) (cs : List Complaint)
    (r : Reply α) : ofReply input reported (r.after cs) =
      ofReply input (reported ++ cs.map (Complaint.diagnostic input.eof)) r := by
  simp only [ofReply, Reply.after_complaints, Reply.after_outcome, List.map_append,
    List.append_assoc]

/-- Going on after a walk that gives a reply, if what comes next follows wherever it leads. -/
theorem bind_ofReply {walk : Walk α} {next : α → Walk β} {c : Cursor} {r : Reply α}
    {next' : α → List Token → Reply β} (h : walk c = ofReply input reported r)
    (hnext : ∀ value rest reported, r.outcome = .done value rest →
      next value (cursorAt input rest reported) = ofReply input reported (next' value rest)) :
    (walk >>= next) c = ofReply input reported (r.bind next') := by
  obtain ⟨complaints, outcome⟩ := r
  cases outcome with
  | done value rest =>
    rw [bind_ok h, hnext value rest _ rfl]
    exact (ofReply_after input reported complaints (next' value rest)).symm
  | failed cause rest => exact bind_error h
  | tooDeep rest => exact bind_error h

/-- Deciding by the next token, wherever it leads. -/
theorem branch_cursorAt {kinds : List Kind} {fits : Kind → Prop} [DecidablePred fits]
    {next : Token → Walk α} {next' : Token → Parser α} {other : Walk α} {other' : Parser α}
    (same : ∀ k, k ∈ kinds ↔ fits k) (within : rest <:+ input.body)
    (hnext : ∀ t ts, rest = t :: ts →
      next t (cursorAt input ts reported) = ofReply input reported (next' t ts))
    (hother : other (cursorAt input rest reported) = ofReply input reported (other' rest)) :
    branch input.tokens kinds next other (cursorAt input rest reported) =
      ofReply input reported (lookahead fits next' other' rest) := by
  cases rest with
  | nil =>
    rw [branch, bind_ok (accept_nil kinds), if_neg Bool.false_ne_true]
    exact hother
  | cons t ts =>
    rw [branch, lookahead_cons]
    by_cases k : fits t.kind
    · rw [bind_ok (accept_cons_of_mem within ((same _).2 k)), if_pos rfl, if_pos k,
        bind_ok (previous_cursorAt within)]
      exact hnext t ts rfl
    · rw [bind_ok (accept_cons_of_not_mem within fun mem => k ((same _).1 mem)),
        if_neg Bool.false_ne_true, if_neg k]
      exact hother

namespace Follows

theorem pure (value : α) : Follows input (pure value) (pure value : Parser α) where
  suffix := .pure value
  run rest reported _ := (ofReply_done input reported value rest).symm

theorem bind {walk : Walk α} {next : α → Walk β} {p : Parser α} {next' : α → Parser β}
    (h : Follows input walk p) (hnext : ∀ value, Follows input (next value) (next' value)) :
    Follows input (walk >>= next) (p >>= next') where
  suffix := h.suffix.bind fun value => (hnext value).suffix
  run ts reported within := bind_ofReply (h.run ts reported within) fun value rest reported done =>
    (hnext value).run rest reported (by
      have suffix := h.suffix ts
      rw [done] at suffix
      exact suffix.trans within)

theorem map {walk : Walk α} {p : Parser α} (f : α → β) (h : Follows input walk p) :
    Follows input (f <$> walk) (f <$> p) where
  suffix := h.suffix.map f
  run := by
    have same : f <$> walk = walk >>= fun value => Pure.pure (f value) := map_eq_pure_bind f walk
    rw [same]
    exact (h.bind fun value => pure (f value)).run

theorem raise (cause : Cause) :
    Follows input (raise input.tokens cause) (fail cause : Parser α) where
  suffix := .fail cause
  run rest reported within := by
    rw [Walk.raise, bind_ok (peek_cursorAt within)]
    exact (ofReply_failed input reported cause rest).symm

theorem report (cause : Cause) (blamed : Token) :
    Follows input (report (.atToken .grammatical blamed cause.message))
      (complain ⟨cause, some blamed⟩) where
  suffix := .complain _
  run _ _ _ := rfl

/-- Deciding by the next token. -/
theorem branch {kinds : List Kind} {fits : Kind → Prop} [DecidablePred fits]
    {next : Token → Walk α} {next' : Token → Parser α} {other : Walk α} {other' : Parser α}
    (same : ∀ k, k ∈ kinds ↔ fits k) (hnext : ∀ t, Follows input (next t) (next' t))
    (hother : Follows input other other') :
    Follows input (branch input.tokens kinds next other) (lookahead fits next' other') where
  suffix := .lookahead (fun t => (hnext t).suffix) hother.suffix
  run rest reported within := branch_cursorAt same within
    (fun t ts split => (hnext t).run ts reported (by
      rw [split] at within
      exact (List.suffix_cons t ts).trans within))
    (hother.run rest reported within)

theorem consume (kind : Kind) (cause : Cause) :
    Follows input (consume input.tokens kind cause) (expect kind cause) where
  suffix := .expect kind cause
  run rest reported within := by
    cases rest with
    | nil =>
      rw [Walk.consume, bind_ok (check_nil kind), if_neg Bool.false_ne_true]
      exact (raise cause).run [] reported within
    | cons t ts =>
      rw [Walk.consume, bind_ok (check_cons kind within), expect]
      by_cases k : t.kind = kind
      · rw [if_pos (by simpa using k), if_pos k, advance_cons within]
        exact (pure t).run ts reported ((List.suffix_cons t ts).trans within)
      · rw [if_neg (by simpa using k), if_neg k]
        exact (raise cause).run (t :: ts) reported within

end Follows

/-! ### Expressions -/

section
variable {w e : Walk Expr} {operand expression : Rule Expr} {rounds : Nat}

/-- The loop of a chain has at least one round left for each token. -/
theorem chainFrom_cursorAt {operators : List Kind} {isOperator : Kind → Bool}
    (same : ∀ k, k ∈ operators ↔ isOperator k = true) (h : Follows input w operand.parse)
    (left : Expr) (within : rest <:+ input.body) (enough : rest.length < rounds) :
    chainFrom input.tokens operators w rounds left (cursorAt input rest reported) =
      ofReply input reported (Parser.chainFrom isOperator operand left rest) := by
  induction rounds generalizing left rest reported with
  | zero => exact absurd enough (Nat.not_lt_zero _)
  | succ rounds ih =>
    rw [chainFrom, Parser.chainFrom_eq]
    refine branch_cursorAt same within (fun op ts split => ?_) ?_
    · rw [split] at within enough
      have within' : ts <:+ input.body := (List.suffix_cons op ts).trans within
      refine bind_ofReply (h.run ts reported within') fun right rest' reported' done => ?_
      have suffix := h.suffix ts
      rw [done] at suffix
      refine ih _ (suffix.trans within') ?_
      have shorter := operand.length_le_of_done done
      rw [List.length_cons] at enough
      omega
    · exact (Follows.pure left).run rest reported within

theorem follows_chain {operators : List Kind} {isOperator : Kind → Bool}
    (same : ∀ k, k ∈ operators ↔ isOperator k = true) (enough : input.body.length < rounds)
    (h : Follows input w operand.parse) :
    Follows input (chain input.tokens operators w rounds) (Parser.chain isOperator operand) :=
  h.bind fun left =>
    { suffix := leavesSuffix_chainFrom isOperator h.suffix left
      run := fun _ _ within => chainFrom_cursorAt same h left within
        (Nat.lt_of_le_of_lt within.length_le enough) }

theorem mem_factor (k : Kind) : k ∈ [.slash, .star] ↔ isFactor k = true := by
  simp [isFactor]

theorem mem_term (k : Kind) : k ∈ [.minus, .plus] ↔ isTerm k = true := by
  simp [isTerm]

theorem mem_comparison (k : Kind) :
    k ∈ [.greater, .greaterEqual, .less, .lessEqual] ↔ isComparison k = true := by
  simp [isComparison, or_assoc]

theorem mem_equality (k : Kind) : k ∈ [.bangEqual, .equalEqual] ↔ isEquality k = true := by
  simp [isEquality]

theorem follows_primary (h : Follows input e expression.parse) :
    Follows input (primary input.tokens e) (Parser.primary expression) := by
  rw [Parser.primary_eq]
  refine .branch (by simp [isLiteral, or_assoc]) (fun t => .pure _) ?_
  refine .branch (by simp) (fun t => .pure _) ?_
  refine .branch (by simp) (fun _ => h.bind fun inner => ?_) (.raise _)
  exact (Follows.consume _ _).bind fun _ => .pure _

theorem follows_unary (hw : Follows input w operand.parse) (h : Follows input e expression.parse) :
    Follows input (unary input.tokens w e) (Parser.unary operand expression) := by
  rw [Parser.unary_eq]
  exact .branch (by simp [isUnary]) (fun op => hw.bind fun _ => .pure _) (follows_primary h)

theorem follows_assignTo (equals : Token) (target value : Expr) :
    Follows input (assignTo equals target value) (Parser.assignTo equals target value) := by
  cases target with
  | ident name => exact .pure _
  | _ => exact (Follows.report .assignmentTarget equals).bind fun _ => .pure _

theorem follows_assignment (hw : Follows input w operand.parse)
    (h : Follows input e expression.parse) :
    Follows input (assignment input.tokens w e) (Parser.assignment operand expression) := by
  refine hw.bind fun target => ?_
  rw [assignmentFrom_eq]
  exact .branch (by simp) (fun t => h.bind fun v => follows_assignTo t target v) (.pure target)

end

/-! ### Recovery -/

theorem resume_cursorAt {rounds : Nat} (within : t :: ts <:+ input.body)
    (enough : ts.length < rounds) :
    resume input.tokens rounds (cursorAt input ts reported) =
      .ok () (cursorAt input (dropToStart t ts) reported) := by
  induction rounds generalizing t ts with
  | zero => exact absurd enough (Nat.not_lt_zero _)
  | succ rounds ih =>
    cases ts with
    | nil =>
      rw [resume, bind_ok isAtEnd_nil, if_pos rfl]
      rfl
    | cons u us =>
      have within' : u :: us <:+ input.body := (List.suffix_cons t (u :: us)).trans within
      rw [resume, bind_ok (isAtEnd_cons within'), if_neg Bool.false_ne_true,
        bind_ok (previous_cursorAt within), bind_ok (peek_cursorAt within'), dropToStart]
      show (if decide (t.kind = .semicolon) || startsStatement u.kind then _ else _ : Walk Unit) _
        = _
      split
      · rfl
      · rw [bind_ok (advance_cons within')]
        exact ih within' (by simpa using enough)

/-- Recovery drops tokens as the parser does. It needs a token to look back on. -/
theorem synchronize_cursorAt {rounds : Nat} (body_ne : input.body ≠ [])
    (within : rest <:+ input.body) (enough : input.body.length < rounds) :
    synchronize input.tokens rounds (cursorAt input rest reported) =
      .ok () (cursorAt input (Parser.synchronize rest) reported) := by
  cases rest with
  | nil =>
    rw [synchronize, bind_ok (advance_nil body_ne)]
    obtain ⟨rounds, rfl⟩ := Nat.exists_eq_succ_of_ne_zero (Nat.ne_zero_of_lt enough)
    rw [resume, bind_ok isAtEnd_nil, if_pos rfl]
    rfl
  | cons t ts =>
    rw [synchronize, bind_ok (advance_cons within)]
    refine resume_cursorAt within ?_
    have := within.length_le
    rw [List.length_cons] at this
    omega

theorem follows_recovering {rounds : Nat} {w : Walk Stmt} {p : Parser Stmt}
    (body_ne : input.body ≠ []) (enough : input.body.length < rounds) (h : Follows input w p) :
    Follows input (recovering input.tokens w rounds) (Parser.recovering p) where
  suffix := leavesSuffix_recovering h.suffix
  run ts reported within := by
    have run := h.run ts reported within
    have suffix := h.suffix ts
    unfold recovering Parser.recovering
    rcases reply : p ts with ⟨complaints, outcome⟩
    rw [reply] at run suffix
    rw [run]
    cases outcome with
    | done s rest => rfl
    | failed cause rest =>
      have within' : rest <:+ input.body := suffix.trans within
      show (synchronize input.tokens rounds >>= fun _ => Pure.pure none : Walk (Option Stmt))
        (cursorAt input rest (_ ++ [_])) = _
      refine (bind_ok (synchronize_cursorAt body_ne within' enough)).trans ?_
      simp [ofReply, pure, EStateM.pure]
    | tooDeep rest => rfl

/-! ### Statements -/

section
variable {e : Walk Expr} {s : Walk Stmt} {d : Walk (Option Stmt)} {expression : Rule Expr}
  {inner : Rule Stmt} {declaration : Rule (Option Stmt)} {rounds : Nat}

theorem follows_terminated (cause : Cause) (h : Follows input e expression.parse) :
    Follows input (terminated input.tokens e cause) (Parser.terminated expression cause) :=
  h.bind fun _ => (Follows.consume _ _).bind fun _ => .pure _

theorem follows_condition (opening closing : Cause) (h : Follows input e expression.parse) :
    Follows input (condition input.tokens e opening closing)
      (Parser.condition expression opening closing) :=
  (Follows.consume _ _).bind fun _ => h.bind fun _ => (Follows.consume _ _).bind fun _ => .pure _

theorem follows_varDeclaration (h : Follows input e expression.parse) :
    Follows input (varDeclaration input.tokens e) (Parser.varDeclaration expression) := by
  refine (Follows.consume _ _).bind fun name => Follows.bind ?_ fun _ =>
    (Follows.consume _ _).bind fun _ => .pure _
  rw [optional_eq]
  exact .branch (by simp) (fun _ => h.bind fun _ => .pure _) (.pure none)

/-- The loop over declarations has at least one round left for each token. -/
theorem declarations_cursorAt {closed : Walk Bool} {closes : Kind → Bool}
    (hnil : ∀ reported, closed (cursorAt input [] reported) =
      .ok true (cursorAt input [] reported))
    (hcons : ∀ t ts reported, t :: ts <:+ input.body →
      closed (cursorAt input (t :: ts) reported) =
        .ok (closes t.kind) (cursorAt input (t :: ts) reported))
    (h : Follows input d declaration.parse) (within : rest <:+ input.body)
    (enough : rest.length < rounds) :
    declarations closed d rounds (cursorAt input rest reported) =
      ofReply input reported (Parser.declarations closes declaration rest) := by
  induction rounds generalizing rest reported with
  | zero => exact absurd enough (Nat.not_lt_zero _)
  | succ rounds ih =>
    cases rest with
    | nil =>
      rw [declarations, bind_ok (hnil reported), if_pos rfl, declarations_nil]
      exact (Follows.pure []).run [] reported within
    | cons t ts =>
      rw [declarations, bind_ok (hcons t ts reported within), declarations_cons]
      split
      · exact (Follows.pure []).run (t :: ts) reported within
      · refine bind_ofReply (h.run (t :: ts) reported within) fun o rest' reported' done => ?_
        have suffix := Rule.suffix_tail h.suffix done
        have within' : rest' <:+ input.body :=
          (suffix.trans (List.suffix_cons t ts)).trans within
        refine bind_ofReply (ih within' ?_) fun ss rest'' reported'' _ => ?_
        · have := suffix.length_le
          rw [List.length_cons] at enough
          omega
        · exact (ofReply_done input reported'' (o.toList ++ ss) rest'').symm

theorem follows_block (enough : input.body.length < rounds)
    (h : Follows input d declaration.parse) :
    Follows input (block input.tokens d rounds) (Parser.block declaration) := by
  refine Follows.bind ⟨leavesSuffix_declarations _ h.suffix, fun rest reported within => ?_⟩
    fun body => (Follows.consume _ _).bind fun _ => .pure _
  refine declarations_cursorAt (fun reported => ?_) (fun t ts reported within => ?_) h within
    (Nat.lt_of_le_of_lt within.length_le enough)
  · rw [bind_ok (check_nil _), if_neg Bool.false_ne_true, isAtEnd_nil]
  · rw [bind_ok (check_cons _ within)]
    split
    next k => rw [k]; rfl
    next k => rw [isAtEnd_cons within, (Bool.eq_false_iff.2 k : decide _ = false)]

theorem follows_conditional (h : Follows input e expression.parse)
    (hs : Follows input s inner.parse) :
    Follows input (conditional input.tokens e s) (Parser.conditional expression inner) := by
  refine (follows_condition _ _ h).bind fun c => hs.bind fun yes => ?_
  rw [elseFrom_eq]
  exact .branch (by simp) (fun _ => hs.bind fun _ => .pure _) (.pure _)

theorem follows_loop (h : Follows input e expression.parse) (hs : Follows input s inner.parse) :
    Follows input (loop input.tokens e s) (Parser.loop expression inner) :=
  (follows_condition _ _ h).bind fun _ => hs.bind fun _ => .pure _

theorem follows_statement (enough : input.body.length < rounds)
    (h : Follows input e expression.parse) (hs : Follows input s inner.parse)
    (hd : Follows input d declaration.parse) :
    Follows input (statement input.tokens e s d rounds)
      (Parser.statement expression inner declaration) := by
  rw [Parser.statement_eq]
  refine .branch (by simp) (fun _ => (follows_terminated _ h).map _) ?_
  refine .branch (by simp) (fun _ => follows_block enough hd) ?_
  refine .branch (by simp) (fun _ => follows_conditional h hs) ?_
  exact .branch (by simp) (fun _ => follows_loop h hs) ((follows_terminated _ h).map _)

theorem follows_declared (h : Follows input e expression.parse)
    (hs : Follows input s inner.parse) :
    Follows input (declared input.tokens e s) (Parser.declared expression inner) := by
  rw [Parser.declared_eq]
  exact .branch (by simp) (fun _ => follows_varDeclaration h) hs

end

end Walk

end Lox
