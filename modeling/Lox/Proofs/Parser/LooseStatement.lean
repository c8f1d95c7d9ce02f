import Lox.Proofs.Parser.LooseExpression
import Lox.Proofs.Parser.RoundTrip

/-!
# Bad targets in statements

The counterpart of `ReadsLoose` for statements, and what follows for the whole parser
(`Parsed.ofTokens_of_loose`): tokens that the loose grammar derives are read without recovery. There
is one statement for each declaration, and the only complaints are those about bad targets.
-/

namespace Lox

namespace Parser

/-- The loose grammar derives the statement, with every `else` at the nearest conditional, and it is
no longer than this. -/
structure IsLooseStmt (length : Nat) (s : Stmt) : Prop where
  loose : s.Loose
  elseNearest : s.ElseNearest
  length_le : s.flatten.length ≤ length

/-- The parser reads the loose statements that are no declarations and no longer than this. -/
def ReadsLooseStatements (length : Nat) (p : Parser Stmt) : Prop :=
  ∀ ts s rest, Reads s.flatten ts rest → IsLooseStmt length s → s.isVar = false →
    Settled s rest → p ts = ⟨badTargets s.badEquals, .done s.kept rest⟩

/-- The parser reads the loose declarations and statements that are no longer than this. -/
def ReadsLooseDeclarations (length : Nat) (p : Parser (Option Stmt)) : Prop :=
  ∀ ts s rest, Reads s.flatten ts rest → IsLooseStmt length s → Settled s rest →
    p ts = ⟨badTargets s.badEquals, .done (some s.kept) rest⟩

section
variable {expression : Rule Expr} {inner : Rule Stmt} {declaration : Rule (Option Stmt)}
  {length : Nat} {ts rest : List Token}

/-! ### Expressions inside statements -/

theorem terminated_of_loose (h : ReadsLoose 0 length expression.parse) {cause : Cause} {e : Expr}
    (reads : Reads (e.flatten ++ [.implied .semicolon]) ts rest) (loose : e.Loose)
    (length_le : e.flatten.length ≤ length) :
    terminated expression cause ts = ⟨badTargets e.badEquals, .done e.kept rest⟩ :=
  closed_of_loose (fun e => e) h (by rfl) reads ⟨loose, Nat.zero_le _, length_le⟩

theorem condition_of_loose (h : ReadsLoose 0 length expression.parse) (opening closing : Cause)
    {c : Expr} (reads : Reads c.flattenCondition ts rest) (loose : c.Loose)
    (length_le : c.flatten.length ≤ length) :
    condition expression opening closing ts = ⟨badTargets c.badEquals, .done c.kept rest⟩ := by
  obtain ⟨t, mid, rfl, k, reads_c⟩ := reads_cons.1 reads
  exact bind_eq_of (expect_eq_of k opening)
    (closed_of_loose (fun e => e) h (by rfl) reads_c ⟨loose, Nat.zero_le _, length_le⟩)

/-! ### Variable declarations -/

theorem optional_of_loose (h : ReadsLoose 0 length expression.parse) {e : Expr} {equals : Token}
    (k : equals.kind = .equal) (reads : Reads (e.flatten ++ [.implied .semicolon]) ts rest)
    (loose : e.Loose) (length_le : e.flatten.length ≤ length) :
    ∃ last, last.kind = .semicolon ∧ varDeclaration.optional expression (equals :: ts) =
      ⟨badTargets e.badEquals, .done (some e.kept) (last :: rest)⟩ := by
  obtain ⟨mid, reads_e, reads_last⟩ := reads_append.1 reads
  obtain ⟨last, mid', rfl, klast, rfl⟩ := reads_cons.1 reads_last
  rw [Symbol.fits_implied] at klast
  have stops : Stops 0 (last :: mid') := by rw [stops_cons, klast]; rfl
  refine ⟨last, klast, ?_⟩
  simp only [varDeclaration.optional, if_pos k]
  exact map_eq_of some (h ts e _ reads_e ⟨loose, Nat.zero_le _, length_le⟩ stops)

theorem varDeclaration_of_loose (h : ReadsLoose 0 length expression.parse) {t : Token}
    {name : Token} {initializer : Option Expr}
    (reads : Reads (Stmt.var name initializer).flatten (t :: ts) rest)
    (loose : (Stmt.var name initializer).Loose)
    (length_le : (Stmt.var name initializer).flatten.length ≤ length) :
    varDeclaration expression ts =
      ⟨badTargets (Stmt.var name initializer).badEquals,
        .done (Stmt.var name initializer).kept rest⟩ := by
  cases initializer with
  | none =>
    obtain ⟨-, reads_name⟩ := reads
    obtain ⟨_, mid, rfl, rfl, reads_last⟩ := reads_cons.1 reads_name
    obtain ⟨last, mid', rfl, klast, rfl⟩ := reads_cons.1 reads_last
    rw [Symbol.fits_implied] at klast
    have nothing : varDeclaration.optional expression (last :: mid') =
        ⟨[], .done none (last :: mid')⟩ := by
      simp only [varDeclaration.optional, klast]
      rfl
    exact bind_eq_of (expect_eq_of loose .variableName)
      (bind_eq_of nothing (expect_bind_pure klast _ _))
  | some e =>
    obtain ⟨kname, derived⟩ := loose
    obtain ⟨-, reads_name⟩ := reads
    obtain ⟨_, mid, rfl, rfl, reads_equals⟩ := reads_cons.1 reads_name
    obtain ⟨equals, mid, rfl, kequals, reads_value⟩ := reads_cons.1 reads_equals
    have shorter : e.flatten.length ≤ length := by
      simp only [Stmt.flatten, List.length_cons, List.length_append] at length_le
      omega
    obtain ⟨last, klast, read⟩ := optional_of_loose h (Symbol.fits_implied.1 kequals) reads_value
      derived shorter
    refine (bind_eq_of (expect_eq_of kname .variableName)
      (bind_eq_of read (expect_bind_pure klast _ _))).trans ?_
    simp [Stmt.badEquals, Stmt.kept]

/-! ### Rows and blocks -/

/-- Loose declarations are read one by one, whatever comes after them but an `else`. -/
theorem declarations_of_loose (h : ReadsLooseDeclarations length declaration.parse)
    {closes : Kind → Bool} (row : ClosesRow closes) {ss : List Stmt}
    (reads : Reads (Stmt.flattenAll ss) ts rest) (loose : Stmt.AllLoose ss)
    (elseNearest : Stmt.AllElseNearest ss) (length_le : (Stmt.flattenAll ss).length ≤ length)
    (closed : Closed closes rest) :
    declarations closes declaration ts =
      ⟨badTargets (Stmt.badEqualsAll ss), .done (Stmt.keptAll ss) rest⟩ := by
  induction ss generalizing ts with
  | nil =>
    rw [reads_nil.1 reads]
    exact declarations_of_closed closed
  | cons s ss ih =>
    obtain ⟨mid, reads_s, reads_ss⟩ := reads_append.1 reads
    obtain ⟨t, us, rfl, start⟩ := loose.1.exists_start reads_s
    rw [Stmt.flattenAll, List.length_append] at length_le
    -- the statements that follow do not start with `else`, nor does what is left after the last
    have settled : Settled s mid := by
      intro _ u hu
      cases ss with
      | nil => exact closed.ne_else row u (reads_nil.1 reads_ss ▸ hu)
      | cons s' ss =>
        obtain ⟨mid', reads_s', -⟩ := reads_append.1 reads_ss
        obtain ⟨v, vs, rfl, start'⟩ := loose.2.1.exists_start reads_s'
        cases hu
        intro k
        rw [k] at start'
        cases start'
    have first := h _ s mid reads_s ⟨loose.1, elseNearest.1, by omega⟩ settled
    have others := ih reads_ss loose.2 elseNearest.2 (by omega)
    rw [declarations_cons, row.not_start _ start, first]
    show ((declarations closes declaration mid).bind _).after _ = _
    rw [others]
    simp [Reply.bind, Reply.after, Reply.done, Stmt.badEqualsAll, Stmt.keptAll]

theorem block_of_loose (h : ReadsLooseDeclarations length declaration.parse) {body : List Stmt}
    (reads : Reads (Stmt.flattenAll body ++ [.implied .rightBrace]) ts rest)
    (loose : Stmt.AllLoose body) (elseNearest : Stmt.AllElseNearest body)
    (length_le : (Stmt.flattenAll body).length ≤ length) :
    block declaration ts =
      ⟨badTargets (Stmt.block body).badEquals, .done (Stmt.block body).kept rest⟩ := by
  obtain ⟨mid, reads_body, reads_last⟩ := reads_append.1 reads
  obtain ⟨t, mid', rfl, k, rfl⟩ := reads_cons.1 reads_last
  have closed : Closed (· = .rightBrace) (t :: mid') := by
    simpa [Closed] using Symbol.fits_implied.1 k
  have first := declarations_of_loose h closesRow_rightBrace reads_body loose elseNearest length_le
    closed
  refine (bind_eq_of first (expect_bind_pure k _ _)).trans ?_
  simp [Stmt.badEquals, Stmt.kept]

/-! ### Conditionals and loops -/

theorem conditional_of_ifThen (h : ReadsLoose 0 (length + 1) expression.parse)
    (hs : ReadsLooseStatements length inner.parse) {c : Expr} {yes : Stmt}
    (reads : Reads (c.flattenCondition ++ yes.flatten) ts rest)
    (loose : IsLooseStmt (length + 1) (.ifThen c yes))
    (notElse : ∀ t ∈ rest.head?, t.kind ≠ .kwElse) :
    conditional expression inner ts =
      ⟨badTargets (Stmt.ifThen c yes).badEquals, .done (Stmt.ifThen c yes).kept rest⟩ := by
  obtain ⟨⟨hc, notVar, hyes⟩, nearest_yes, length_le⟩ := loose
  simp only [Stmt.flatten, Expr.flattenCondition, List.length_cons, List.length_append] at length_le
  obtain ⟨mid, reads_c, reads_yes⟩ := reads_append.1 reads
  have first := condition_of_loose h .parenAfterIf .parenAfterIfCondition reads_c hc (by omega)
  have second := hs mid yes rest reads_yes ⟨hyes, nearest_yes, by omega⟩ notVar fun _ => notElse
  have last : elseFrom inner c.kept yes.kept rest = ⟨[], .done (.ifThen c.kept yes.kept) rest⟩ := by
    cases rest with
    | nil => rfl
    | cons t rest =>
      simp only [elseFrom, if_neg (notElse t rfl)]
      rfl
  refine (bind_eq_of first (bind_eq_of second last)).trans ?_
  simp [Stmt.badEquals, Stmt.kept]

theorem conditional_of_ifElse (h : ReadsLoose 0 (length + 1) expression.parse)
    (hs : ReadsLooseStatements length inner.parse) {c : Expr} {yes no : Stmt}
    (reads : Reads (c.flattenCondition ++ (yes.flatten ++ .implied .kwElse :: no.flatten)) ts rest)
    (loose : IsLooseStmt (length + 1) (.ifElse c yes no)) (settled : Settled (.ifElse c yes no) rest) :
    conditional expression inner ts =
      ⟨badTargets (Stmt.ifElse c yes no).badEquals, .done (Stmt.ifElse c yes no).kept rest⟩ := by
  obtain ⟨⟨hc, ⟨notVar, hyes⟩, notVar', hno⟩, ⟨closed, nearest_yes, nearest_no⟩, length_le⟩ := loose
  simp only [Stmt.flatten, Expr.flattenCondition, List.length_cons, List.length_append] at length_le
  obtain ⟨mid, reads_c, reads_branches⟩ := reads_append.1 reads
  obtain ⟨mid', reads_yes, reads_else⟩ := reads_append.1 reads_branches
  obtain ⟨t, mid'', rfl, k, reads_no⟩ := reads_cons.1 reads_else
  have settled_yes : Settled yes (t :: mid'') := fun isOpen => by
    rw [closed] at isOpen
    cases isOpen
  have first := condition_of_loose h .parenAfterIf .parenAfterIfCondition reads_c hc (by omega)
  have second := hs mid yes _ reads_yes ⟨hyes, nearest_yes, by omega⟩ notVar settled_yes
  have third := hs mid'' no rest reads_no ⟨hno, nearest_no, by omega⟩ notVar' settled
  have last : elseFrom inner c.kept yes.kept (t :: mid'') =
      ⟨badTargets no.badEquals, .done (.ifElse c.kept yes.kept no.kept) rest⟩ := by
    simp only [elseFrom, if_pos (Symbol.fits_implied.1 k)]
    exact map_eq_of (Stmt.ifElse c.kept yes.kept) third
  refine (bind_eq_of first (bind_eq_of second last)).trans ?_
  simp [Stmt.badEquals, Stmt.kept]

theorem loop_of_loose (h : ReadsLoose 0 (length + 1) expression.parse)
    (hs : ReadsLooseStatements length inner.parse) {c : Expr} {body : Stmt}
    (reads : Reads (c.flattenCondition ++ body.flatten) ts rest)
    (loose : IsLooseStmt (length + 1) (.loop c body)) (settled : Settled body rest) :
    loop expression inner ts =
      ⟨badTargets (Stmt.loop c body).badEquals, .done (Stmt.loop c body).kept rest⟩ := by
  obtain ⟨⟨hc, notVar, hbody⟩, nearest_body, length_le⟩ := loose
  simp only [Stmt.flatten, Expr.flattenCondition, List.length_cons, List.length_append] at length_le
  obtain ⟨mid, reads_c, reads_body⟩ := reads_append.1 reads
  have first := condition_of_loose h .parenAfterWhile .parenAfterLoopCondition reads_c hc
    (by omega)
  have second := hs mid body rest reads_body ⟨hbody, nearest_body, by omega⟩ notVar settled
  refine (bind_eq_of first (bind_eq_of second rfl)).trans ?_
  simp [Stmt.badEquals, Stmt.kept]

/-! ### All statements -/

theorem statement_of_loose (h : ReadsLoose 0 (length + 1) expression.parse)
    (hs : ReadsLooseStatements length inner.parse)
    (hd : ReadsLooseDeclarations length declaration.parse) :
    ReadsLooseStatements (length + 1) (statement expression inner declaration) := by
  intro ts s rest reads loose notVar settled
  have length_le := loose.length_le
  cases s with
  | expression e =>
    obtain ⟨mid, reads_e, -⟩ := reads_append.1 reads
    obtain ⟨t, ts, rfl, start⟩ := Expr.Loose.exists_start loose.loose reads_e
    simp only [Stmt.flatten, List.length_append] at length_le
    rw [statement_of_startsExpression start]
    exact map_eq_of Stmt.expression (terminated_of_loose h reads loose.loose (by omega))
  | print e =>
    obtain ⟨t, mid, rfl, k, reads_e⟩ := reads_cons.1 reads
    simp only [Stmt.flatten, List.length_cons, List.length_append] at length_le
    simp only [statement, if_pos (Symbol.fits_implied.1 k)]
    exact map_eq_of Stmt.print (terminated_of_loose h reads_e loose.loose (by omega))
  | block body =>
    obtain ⟨t, mid, rfl, k, reads_body⟩ := reads_cons.1 reads
    rw [Symbol.fits_implied] at k
    simp only [Stmt.flatten, List.length_cons, List.length_append] at length_le
    simp only [statement, k]
    exact block_of_loose hd reads_body loose.loose loose.elseNearest (by omega)
  | ifThen c yes =>
    obtain ⟨t, mid, rfl, k, reads_c⟩ := reads_cons.1 reads
    rw [Symbol.fits_implied] at k
    simp only [statement, k]
    exact conditional_of_ifThen h hs reads_c loose (settled rfl)
  | ifElse c yes no =>
    obtain ⟨t, mid, rfl, k, reads_c⟩ := reads_cons.1 reads
    rw [Symbol.fits_implied] at k
    simp only [statement, k]
    exact conditional_of_ifElse h hs reads_c loose settled
  | loop c body =>
    obtain ⟨t, mid, rfl, k, reads_c⟩ := reads_cons.1 reads
    rw [Symbol.fits_implied] at k
    simp only [statement, k]
    exact loop_of_loose h hs reads_c loose settled
  | var name initializer => cases notVar
  | foreign label => exact loose.loose.elim

theorem recovering_of_done {p : Parser Stmt} {cs : List Complaint} {s : Stmt}
    (done : p ts = ⟨cs, .done s rest⟩) : recovering p ts = ⟨cs, .done (some s) rest⟩ := by
  rw [recovering, done]

theorem declared_of_loose (h : ReadsLoose 0 (length + 1) expression.parse)
    (hs : ReadsLooseStatements (length + 1) inner.parse) :
    ReadsLooseDeclarations (length + 1) (recovering (declared expression inner)) := by
  intro ts s rest reads loose settled
  apply recovering_of_done
  obtain ⟨t, ts, rfl, -⟩ := loose.loose.exists_start reads
  cases isVar : s.isVar with
  | true =>
    cases s with
    | var name initializer =>
      have k : t.kind = .kwVar := by cases initializer <;> exact reads.1
      simp only [declared, if_pos k]
      exact varDeclaration_of_loose h reads loose.loose loose.length_le
    | expression | print | block | ifThen | ifElse | loop | foreign => cases isVar
  | false =>
    simp only [declared, if_neg (loose.loose.start_ne_var reads isVar)]
    exact hs _ s rest reads loose isVar settled

end

/-! ### Grammars -/

/-- The rules of a grammar read what the loose grammar derives, up to a length. -/
structure Grammar.ReadsLoosely (g : Grammar) (length : Nat) : Prop where
  unary : ReadsLoose 5 length g.unary.parse
  expression : ReadsLoose 0 length g.expression.parse
  statement : ReadsLooseStatements length g.statement.parse
  declaration : ReadsLooseDeclarations length g.declaration.parse

theorem Grammar.readsLoosely_exhausted : exhausted.ReadsLoosely 0 := by
  have no_expr {level : Nat} {e : Expr} (h : IsLoose level 0 e) : False :=
    absurd (Nat.le_trans (Expr.flatten_pos h.loose) h.length_le) (by decide)
  have no_stmt {s : Stmt} (h : IsLooseStmt 0 s) : False :=
    absurd (Nat.le_trans (Stmt.flatten_pos h.loose) h.length_le) (by decide)
  exact ⟨fun _ _ _ _ loose _ => (no_expr loose).elim, fun _ _ _ _ loose _ => (no_expr loose).elim,
    fun _ _ _ _ loose _ _ => (no_stmt loose).elim, fun _ _ _ _ loose _ => (no_stmt loose).elim⟩

theorem Grammar.ReadsLoosely.extend {g : Grammar} {length : Nat} (h : g.ReadsLoosely length) :
    g.extend.ReadsLoosely (length + 1) := by
  have expression := readsLoose_extend_expression h.unary h.expression
  have statement : ReadsLooseStatements (length + 1) g.extend.statement.parse := by
    rw [extend_statement]
    exact statement_of_loose expression h.statement h.declaration
  refine ⟨?_, expression, statement, ?_⟩
  · rw [extend_unary]
    exact unary_of_loose h.unary h.expression
  · rw [extend_declaration]
    exact declared_of_loose expression statement

theorem Grammar.readsLoosely_ofDepth (depth : Nat) : (ofDepth depth).ReadsLoosely depth := by
  induction depth with
  | zero => exact readsLoosely_exhausted
  | succ depth ih => exact ih.extend

end Parser

/-! ### Programs -/

namespace Parsed

open Lox.Parser

/-- **Bad targets do not derail the parser.** Tokens that the loose grammar derives, closed by an end
token, are read without recovery, unless nesting is over the limit. The answer has one statement for
each declaration, in which each assignment to no name is replaced by its left side; and there is one
problem for each of these assignments, at its equals sign, and no other. If the grammar leaves open
to which conditional an `else` belongs, it belongs to the nearest. -/
theorem ofTokens_of_loose (depth : Nat) (ss : List Stmt) (ts after : List Token) (eof : Token)
    (loose : ∀ s ∈ ss, s.Loose) (fits : List.Forall₂ Symbol.Fits (Stmt.flattenAll ss) ts)
    (heof : eof.kind = .eof) (within : (ofTokens depth (ts ++ eof :: after)).overflow = none) :
    ofTokens depth (ts ++ eof :: after) =
        { statements := ss.map fun s => s.nearest.kept
          complaints := badTargets (ss.flatMap Stmt.badEquals)
          overflow := none
          eof } ∧
      (ofTokens depth (ts ++ eof :: after)).diagnostics =
        (ss.flatMap Stmt.badEquals).map
          (Diagnostic.atToken .grammatical · "Invalid assignment target.") ∧
      ∀ s ∈ ss, s.nearest.flatten = s.flatten ∧ s.nearest.ElseNearest ∧
        (s.ElseNearest → s.nearest = s) := by
  have all := Stmt.allLoose_iff.2 loose
  have ne := kind_ne_eof_of_forall₂ fits all.kind_ne_eof
  obtain ⟨loose', elseNearest, flatten, badEquals⟩ := Stmt.nearestAll_writes all
  -- a limit that is high enough reads the statements, and the given one does not differ from it
  let enough := max depth (Stmt.flattenAll ss).length
  have done : program enough ts =
      ⟨badTargets (Stmt.badEqualsAll ss), .done (Stmt.keptAll (Stmt.nearestAll ss)) []⟩ := by
    rw [← badEquals]
    refine declarations_of_loose (Grammar.readsLoosely_ofDepth enough).declaration closesRow_never
      ?_ loose' elseNearest (flatten ▸ Nat.le_max_right _ _) (by simp [Closed])
    rw [flatten]
    exact reads_all_iff.2 fits
  have parsed : ofTokens depth (ts ++ eof :: after) =
      { statements := ss.map fun s => s.nearest.kept
        complaints := badTargets (ss.flatMap Stmt.badEquals)
        overflow := none
        eof } := by
    rw [ofTokens, body_append_eof ne heof, closing_append_eof ne heof] at within ⊢
    rcases program_below (Nat.le_max_left depth (Stmt.flattenAll ss).length) ts with deep | agree
    · exact absurd within (overflow_ofReply_ne_none deep)
    · rw [agree, done, Stmt.badEqualsAll_eq_flatMap, Stmt.keptAll_eq_map, Stmt.nearestAll_eq_map,
        List.map_map]
      rfl
  refine ⟨parsed, ?_, fun s mem => ?_⟩
  · rw [parsed, diagnostics, badTargets, List.map_map]
    exact List.append_nil _
  · have moved := Stmt.nearest_writes (loose s mem)
    exact ⟨moved.flatten, moved.elseNearest, Stmt.ElseNearest.nearest_eq⟩

/-- A sum on the left of a valid assignment, in the first branch of the inner conditional; the tree
has the `else` at the outer one. -/
theorem ofTokens_of_loose_sum :
    let token (kind : Kind) (lexeme : String) : Token := ⟨kind, lexeme, 1, .nil⟩
    let name := token .identifier
    let plus := token .plus "+"
    let equals := token .equal "="
    let sum : Expr := .binary (.ident (name "a")) plus (.ident (name "b"))
    let other : Stmt := .expression (.ident (name "e"))
    let ss : List Stmt :=
      [.ifElse (.ident (name "a"))
        (.ifThen (.ident (name "b"))
          (.expression (.binary sum equals (.assign (name "c") (.ident (name "d"))))))
        other]
    let ts : List Token :=
      [token .kwIf "if", token .leftParen "(", name "a", token .rightParen ")",
        token .kwIf "if", token .leftParen "(", name "b", token .rightParen ")",
        name "a", plus, name "b", equals, name "c", token .equal "=", name "d",
        token .semicolon ";", token .kwElse "else", name "e", token .semicolon ";"]
    let parsed := ofTokens 9 (ts ++ [Token.eof 1])
    (∀ s ∈ ss, s.Loose) ∧ List.Forall₂ Symbol.Fits (Stmt.flattenAll ss) ts ∧
      parsed.overflow = none ∧
      parsed =
        { statements :=
            [.ifThen (.ident (name "a")) (.ifElse (.ident (name "b")) (.expression sum) other)]
          complaints := [⟨.assignmentTarget, some equals⟩]
          overflow := none
          eof := Token.eof 1 } := by
  intro token name plus equals sum other ss ts parsed
  have loose : ∀ s ∈ ss, s.Loose := by decide
  have fits : List.Forall₂ Symbol.Fits (Stmt.flattenAll ss) ts := by
    simp [ss, ts, sum, other, Stmt.flattenAll, Stmt.flatten, Expr.flatten, Expr.flattenCondition]
    decide
  have within : parsed.overflow = none := by decide +kernel
  refine ⟨loose, fits, within, ?_⟩
  exact (ofTokens_of_loose 9 ss ts [] (Token.eof 1) loose fits rfl within).1

end Parsed

end Lox
