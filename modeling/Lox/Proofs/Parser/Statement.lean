import Lox.Proofs.Parser.Row

/-!
# Rules of statements read the statements of the grammar

The counterpart of `ReadsLevel` for statements. Level by level the rules of statements read what
the grammar derives, given that the rules one level further down do
(`Grammar.ReadsWithin.extend`). A declaration that fails leaves a complaint, so without complaint
every declaration is a statement (`recovering_eq_done`).
-/

namespace Lox

theorem Stmt.one_le_nesting (s : Stmt) : 1 ≤ s.nesting := by
  cases s with
  | var name initializer =>
    cases initializer with
    | none => exact Nat.le_refl 1
    | some e => exact e.one_le_nesting
  | expression e | print e => exact e.one_le_nesting
  | block | ifThen | ifElse | loop | foreign => simp only [Stmt.nesting]; omega

/-- Only a declaration of a variable starts as one. -/
theorem Stmt.Loose.start_ne_var {s : Stmt} {t : Token} {ts rest : List Token} (h : s.Loose)
    (reads : Reads s.flatten (t :: ts) rest) (notVar : s.isVar = false) : t.kind ≠ .kwVar := by
  intro k
  cases s with
  | expression e =>
    obtain ⟨mid, reads_e, -⟩ := reads_append.1 reads
    obtain ⟨_, _, e, start⟩ := Expr.Loose.exists_start h reads_e
    cases e
    rw [k] at start
    cases start
  | var name initializer => cases notVar
  | print | block | ifThen | ifElse | loop =>
    have other := Symbol.fits_implied.1 reads.1
    rw [k] at other
    cases other
  | foreign label => exact h.elim

theorem Stmt.start_ne_var {s : Stmt} {t : Token} {ts rest : List Token}
    (reads : Reads s.flatten (t :: ts) rest) (h : s.WellFormed) (notVar : s.isVar = false) :
    t.kind ≠ .kwVar :=
  h.loose.start_ne_var reads notVar

namespace Parser

/-- Without complaint the parser reads the statements that are no declarations. -/
def ReadsStatements (depth : Nat) (p : Parser Stmt) : Prop :=
  ∀ ts s rest, p ts = .done s rest ↔
    Reads s.flatten ts rest ∧ s.WellFormed ∧ s.nesting ≤ depth ∧ s.isVar = false ∧ Settled s rest

section
variable {expression : Rule Expr} {inner : Rule Stmt} {declaration : Rule (Option Stmt)}
variable {depth : Nat}

/-! ### Expressions inside statements -/

theorem terminated_eq_done (h : ReadsLevel 0 depth expression.parse) {cause : Cause}
    {ts rest : List Token} {e : Expr} :
    terminated expression cause ts = .done e rest ↔
      Reads (e.flatten ++ [.implied .semicolon]) ts rest ∧ IsPhrase 0 depth e := by
  refine (closed_eq_done (fun e => e) h (by rfl)).trans ?_
  simp

theorem condition_eq_done (h : ReadsLevel 0 depth expression.parse) {opening closing : Cause}
    {ts rest : List Token} {c : Expr} :
    condition expression opening closing ts = .done c rest ↔
      Reads c.flattenCondition ts rest ∧ IsPhrase 0 depth c := by
  constructor
  · intro done
    obtain ⟨t, mid, ht, inner_done⟩ := bind_eq_done.1 done
    obtain ⟨rfl, k⟩ := expect_eq_done.1 ht
    obtain ⟨c', rfl, reads, phrase⟩ := (closed_eq_done (fun e => e) h (by rfl)).1 inner_done
    exact ⟨⟨k, reads⟩, phrase⟩
  · rintro ⟨reads, phrase⟩
    obtain ⟨t, mid, rfl, k, reads_c⟩ := reads_cons.1 reads
    exact bind_eq_done.2 ⟨t, mid, expect_eq_done.2 ⟨rfl, k⟩,
      (closed_eq_done (fun e => e) h (by rfl)).2 ⟨c, rfl, reads_c, phrase⟩⟩

/-! ### Variable declarations -/

theorem varDeclaration_sound (h : ReadsLevel 0 depth expression.parse) (pos : 1 ≤ depth)
    {t : Token} (k : t.kind = .kwVar) {ts rest : List Token} {s : Stmt}
    (done : varDeclaration expression ts = .done s rest) :
    Reads s.flatten (t :: ts) rest ∧ s.WellFormed ∧ s.nesting ≤ depth ∧ s.isVar = true := by
  obtain ⟨name, mid, hname, done⟩ := bind_eq_done.1 done
  obtain ⟨initializer, mid', hinit, done⟩ := bind_eq_done.1 done
  obtain ⟨last, mid'', hlast, done⟩ := bind_eq_done.1 done
  obtain ⟨rfl, rfl⟩ := Reply.done_eq_done.1 done
  obtain ⟨rfl, kname⟩ := expect_eq_done.1 hname
  obtain ⟨rfl, klast⟩ := expect_eq_done.1 hlast
  have none_case : initializer = none → mid = last :: mid'' →
      Reads (Stmt.var name initializer).flatten (t :: name :: mid) mid''
        ∧ (Stmt.var name initializer).WellFormed ∧ (Stmt.var name initializer).nesting ≤ depth
        ∧ (Stmt.var name initializer).isVar = true := by
    rintro rfl rfl
    exact ⟨⟨k, rfl, klast, rfl⟩, kname, pos, rfl⟩
  cases mid with
  | nil =>
    obtain ⟨rfl, e⟩ := Reply.done_eq_done.1 hinit
    exact none_case rfl e
  | cons equals mid =>
    simp only [varDeclaration.optional] at hinit
    split at hinit
    next kequals =>
      obtain ⟨e, mid', he, hinit⟩ := bind_eq_done.1 hinit
      obtain ⟨rfl, rfl⟩ := Reply.done_eq_done.1 hinit
      obtain ⟨reads, phrase, -⟩ := (h _ _ _).1 he
      exact ⟨⟨k, rfl, kequals, reads_append.2 ⟨_, reads, klast, rfl⟩⟩, ⟨kname, phrase.stratified⟩,
        phrase.nesting_le, rfl⟩
    next =>
      obtain ⟨rfl, e⟩ := Reply.done_eq_done.1 hinit
      exact none_case rfl e

theorem varDeclaration_complete (h : ReadsLevel 0 depth expression.parse) {t : Token}
    {ts rest : List Token} {name : Token} {initializer : Option Expr}
    (reads : Reads (Stmt.var name initializer).flatten (t :: ts) rest)
    (wellFormed : (Stmt.var name initializer).WellFormed)
    (nesting_le : (Stmt.var name initializer).nesting ≤ depth) :
    varDeclaration expression ts = .done (.var name initializer) rest := by
  cases initializer with
  | none =>
    obtain ⟨-, reads_name⟩ := reads
    obtain ⟨_, mid, rfl, rfl, reads_last⟩ := reads_cons.1 reads_name
    obtain ⟨last, mid', rfl, klast, rfl⟩ := reads_cons.1 reads_last
    rw [Symbol.fits_implied] at klast
    refine bind_eq_done.2 ⟨name, _, expect_eq_done.2 ⟨rfl, wellFormed⟩, ?_⟩
    refine bind_eq_done.2 ⟨none, last :: mid', ?_, ?_⟩
    · simp only [varDeclaration.optional, klast]
      rfl
    · exact bind_eq_done.2 ⟨last, mid', expect_eq_done.2 ⟨rfl, klast⟩, rfl⟩
  | some e =>
    obtain ⟨kname, stratified⟩ := wellFormed
    obtain ⟨-, reads_name⟩ := reads
    obtain ⟨_, mid, rfl, rfl, reads_equals⟩ := reads_cons.1 reads_name
    obtain ⟨equals, mid, rfl, kequals, reads_value⟩ := reads_cons.1 reads_equals
    obtain ⟨mid', reads_e, reads_last⟩ := reads_append.1 reads_value
    obtain ⟨last, mid'', rfl, klast, rfl⟩ := reads_cons.1 reads_last
    rw [Symbol.fits_implied] at klast kequals
    have stops : Stops 0 (last :: mid'') := by rw [stops_cons, klast]; rfl
    have he := (h mid e _).2 ⟨reads_e, ⟨stratified, Nat.zero_le _, nesting_le⟩, stops⟩
    refine bind_eq_done.2 ⟨name, _, expect_eq_done.2 ⟨rfl, kname⟩, ?_⟩
    refine bind_eq_done.2 ⟨some e, last :: mid'', ?_, ?_⟩
    · simp only [varDeclaration.optional, if_pos kequals]
      exact bind_eq_done.2 ⟨e, _, he, rfl⟩
    · exact bind_eq_done.2 ⟨last, mid'', expect_eq_done.2 ⟨rfl, klast⟩, rfl⟩

/-! ### Conditionals and loops -/

theorem conditional_sound (h : ReadsLevel 0 (depth + 1) expression.parse)
    (hs : ReadsStatements depth inner.parse) {t : Token} (k : t.kind = .kwIf)
    {ts rest : List Token} {s : Stmt} (done : conditional expression inner ts = .done s rest) :
    Reads s.flatten (t :: ts) rest ∧ s.WellFormed ∧ s.nesting ≤ depth + 1 ∧ s.isVar = false
      ∧ Settled s rest := by
  obtain ⟨c, mid, hc, done⟩ := bind_eq_done.1 done
  obtain ⟨yes, mid', hyes, done⟩ := bind_eq_done.1 done
  obtain ⟨reads_c, phrase⟩ := (condition_eq_done h).1 hc
  obtain ⟨reads_yes, wellFormed, nesting_le, notVar, settled⟩ := (hs _ _ _).1 hyes
  have ifThen_case (notElse : ∀ u ∈ mid'.head?, u.kind ≠ .kwElse) :
      Reads (Stmt.ifThen c yes).flatten (t :: ts) mid' ∧ (Stmt.ifThen c yes).WellFormed
        ∧ (Stmt.ifThen c yes).nesting ≤ depth + 1 ∧ (Stmt.ifThen c yes).isVar = false
        ∧ Settled (.ifThen c yes) mid' :=
    ⟨⟨k, reads_append.2 ⟨mid, reads_c, reads_yes⟩⟩, ⟨phrase.stratified, notVar, wellFormed⟩,
      Nat.max_le.2 ⟨phrase.nesting_le, Nat.succ_le_succ nesting_le⟩, rfl, fun _ => notElse⟩
  cases mid' with
  | nil =>
    obtain ⟨rfl, rfl⟩ := Reply.done_eq_done.1 done
    exact ifThen_case (by simp)
  | cons u mid' =>
    simp only [elseFrom] at done
    split at done
    next kelse =>
      obtain ⟨no, mid'', hno, done⟩ := bind_eq_done.1 done
      obtain ⟨rfl, rfl⟩ := Reply.done_eq_done.1 done
      obtain ⟨reads_no, wellFormed', nesting_le', notVar', settled'⟩ := (hs _ _ _).1 hno
      -- the first branch took no `else` itself, so it does not end open
      have closed : yes.endsOpen = false := by
        by_contra isOpen
        exact settled (by simpa using isOpen) u rfl kelse
      refine ⟨⟨k, reads_append.2 ⟨mid, reads_c, reads_append.2 ⟨_, reads_yes, kelse, reads_no⟩⟩⟩,
        ⟨phrase.stratified, ⟨notVar, closed, wellFormed⟩, notVar', wellFormed'⟩, ?_, rfl, settled'⟩
      exact Nat.max_le.2 ⟨phrase.nesting_le,
        Nat.max_le.2 ⟨Nat.succ_le_succ nesting_le, Nat.succ_le_succ nesting_le'⟩⟩
    next notElse =>
      obtain ⟨rfl, rfl⟩ := Reply.done_eq_done.1 done
      exact ifThen_case (by simpa using notElse)

theorem conditional_ifThen (h : ReadsLevel 0 (depth + 1) expression.parse)
    (hs : ReadsStatements depth inner.parse) {c : Expr} {yes : Stmt} {ts rest : List Token}
    (reads : Reads (c.flattenCondition ++ yes.flatten) ts rest)
    (wellFormed : (Stmt.ifThen c yes).WellFormed)
    (nesting_le : (Stmt.ifThen c yes).nesting ≤ depth + 1)
    (notElse : ∀ t ∈ rest.head?, t.kind ≠ .kwElse) :
    conditional expression inner ts = .done (.ifThen c yes) rest := by
  obtain ⟨stratified, notVar, wellFormed_yes⟩ := wellFormed
  obtain ⟨nesting_c, nesting_yes⟩ := Nat.max_le.1 nesting_le
  obtain ⟨mid, reads_c, reads_yes⟩ := reads_append.1 reads
  have hc : condition expression .parenAfterIf .parenAfterIfCondition ts = .done c mid :=
    (condition_eq_done h).2 ⟨reads_c, stratified, Nat.zero_le _, nesting_c⟩
  have hyes := (hs mid yes rest).2
    ⟨reads_yes, wellFormed_yes, Nat.le_of_succ_le_succ nesting_yes, notVar, fun _ => notElse⟩
  refine bind_eq_done.2 ⟨c, mid, hc, bind_eq_done.2 ⟨yes, rest, hyes, ?_⟩⟩
  cases rest with
  | nil => rfl
  | cons t rest => simp only [elseFrom, if_neg (notElse t rfl)]

theorem conditional_ifElse (h : ReadsLevel 0 (depth + 1) expression.parse)
    (hs : ReadsStatements depth inner.parse) {c : Expr} {yes no : Stmt} {ts rest : List Token}
    (reads : Reads (c.flattenCondition ++ (yes.flatten ++ .implied .kwElse :: no.flatten)) ts rest)
    (wellFormed : (Stmt.ifElse c yes no).WellFormed)
    (nesting_le : (Stmt.ifElse c yes no).nesting ≤ depth + 1)
    (settled : Settled (.ifElse c yes no) rest) :
    conditional expression inner ts = .done (.ifElse c yes no) rest := by
  obtain ⟨stratified, ⟨notVar, closed, wellFormed_yes⟩, notVar', wellFormed_no⟩ := wellFormed
  obtain ⟨nesting_c, nesting_branches⟩ := Nat.max_le.1 nesting_le
  obtain ⟨nesting_yes, nesting_no⟩ := Nat.max_le.1 nesting_branches
  obtain ⟨mid, reads_c, reads_branches⟩ := reads_append.1 reads
  obtain ⟨mid', reads_yes, reads_else⟩ := reads_append.1 reads_branches
  obtain ⟨t, mid'', rfl, k, reads_no⟩ := reads_cons.1 reads_else
  have settled_yes : Settled yes (t :: mid'') := fun isOpen => by
    rw [closed] at isOpen
    cases isOpen
  have hc : condition expression .parenAfterIf .parenAfterIfCondition ts = .done c mid :=
    (condition_eq_done h).2 ⟨reads_c, stratified, Nat.zero_le _, nesting_c⟩
  have hyes := (hs mid yes _).2
    ⟨reads_yes, wellFormed_yes, Nat.le_of_succ_le_succ nesting_yes, notVar, settled_yes⟩
  have hno := (hs mid'' no rest).2
    ⟨reads_no, wellFormed_no, Nat.le_of_succ_le_succ nesting_no, notVar', settled⟩
  refine bind_eq_done.2 ⟨c, mid, hc, bind_eq_done.2 ⟨yes, _, hyes, ?_⟩⟩
  simp only [elseFrom, if_pos (Symbol.fits_implied.1 k)]
  exact bind_eq_done.2 ⟨no, rest, hno, rfl⟩

theorem loop_eq_done (h : ReadsLevel 0 (depth + 1) expression.parse)
    (hs : ReadsStatements depth inner.parse) {ts rest : List Token} {s : Stmt} :
    loop expression inner ts = .done s rest ↔ ∃ c body, s = .loop c body ∧
      Reads (c.flattenCondition ++ body.flatten) ts rest ∧ (Stmt.loop c body).WellFormed
        ∧ (Stmt.loop c body).nesting ≤ depth + 1 ∧ Settled body rest := by
  constructor
  · intro done
    obtain ⟨c, mid, hc, done⟩ := bind_eq_done.1 done
    obtain ⟨body, mid', hbody, done⟩ := bind_eq_done.1 done
    obtain ⟨rfl, rfl⟩ := Reply.done_eq_done.1 done
    obtain ⟨reads_c, phrase⟩ := (condition_eq_done h).1 hc
    obtain ⟨reads_body, wellFormed, nesting_le, notVar, settled⟩ := (hs _ _ _).1 hbody
    exact ⟨c, body, rfl, reads_append.2 ⟨mid, reads_c, reads_body⟩,
      ⟨phrase.stratified, notVar, wellFormed⟩,
      Nat.max_le.2 ⟨phrase.nesting_le, Nat.succ_le_succ nesting_le⟩, settled⟩
  · rintro ⟨c, body, rfl, reads, ⟨stratified, notVar, wellFormed⟩, nesting_le, settled⟩
    obtain ⟨nesting_c, nesting_body⟩ := Nat.max_le.1 nesting_le
    obtain ⟨mid, reads_c, reads_body⟩ := reads_append.1 reads
    exact bind_eq_done.2 ⟨c, mid,
      (condition_eq_done h).2 ⟨reads_c, stratified, Nat.zero_le _, nesting_c⟩,
      bind_eq_done.2 ⟨body, rest, (hs _ _ _).2 ⟨reads_body, wellFormed,
        Nat.le_of_succ_le_succ nesting_body, notVar, settled⟩, rfl⟩⟩

/-! ### All statements -/

theorem statement_sound (h : ReadsLevel 0 (depth + 1) expression.parse)
    (hs : ReadsStatements depth inner.parse) (hd : ReadsDeclarations depth declaration.parse)
    {ts rest : List Token} {s : Stmt}
    (done : statement expression inner declaration ts = .done s rest) :
    Reads s.flatten ts rest ∧ s.WellFormed ∧ s.nesting ≤ depth + 1 ∧ s.isVar = false
      ∧ Settled s rest := by
  have closed {s : Stmt} (e : s.endsOpen = false) : Settled s rest := fun isOpen => by
    rw [e] at isOpen
    cases isOpen
  have expression_case {ts : List Token}
      (done : (Stmt.expression <$> terminated expression .semicolonAfterExpression : Parser Stmt) ts
        = .done s rest) :
      Reads s.flatten ts rest ∧ s.WellFormed ∧ s.nesting ≤ depth + 1 ∧ s.isVar = false
        ∧ Settled s rest := by
    obtain ⟨e, he, rfl⟩ := map_eq_done.1 done
    obtain ⟨reads, phrase⟩ := (terminated_eq_done h).1 he
    exact ⟨reads, phrase.stratified, phrase.nesting_le, rfl, closed rfl⟩
  cases ts with
  | nil => exact expression_case done
  | cons t ts =>
    simp only [statement] at done
    split at done
    next k =>
      obtain ⟨e, he, rfl⟩ := map_eq_done.1 done
      obtain ⟨reads, phrase⟩ := (terminated_eq_done h).1 he
      exact ⟨⟨k, reads⟩, phrase.stratified, phrase.nesting_le, rfl, closed rfl⟩
    next =>
      split at done
      next k =>
        obtain ⟨body, rfl, reads, wellFormed, nesting_le⟩ := (block_eq_done hd).1 done
        exact ⟨⟨k, reads⟩, wellFormed, Nat.succ_le_succ nesting_le, rfl, closed rfl⟩
      next =>
        split at done
        next k => exact conditional_sound h hs k done
        next =>
          split at done
          next k =>
            obtain ⟨c, body, rfl, reads, wellFormed, nesting_le, settled⟩ :=
              (loop_eq_done h hs).1 done
            exact ⟨⟨k, reads⟩, wellFormed, nesting_le, rfl, settled⟩
          next => exact expression_case done

/-- A token that starts an expression is no keyword of a statement. -/
theorem statement_of_startsExpression {t : Token} (start : t.kind.startsExpression = true)
    (ts : List Token) :
    statement expression inner declaration (t :: ts) =
      (Stmt.expression <$> terminated expression .semicolonAfterExpression : Parser Stmt)
        (t :: ts) := by
  have ne (k : Kind) (hk : k.startsExpression = false) : t.kind ≠ k := by
    rintro rfl
    rw [start] at hk
    cases hk
  simp only [statement, if_neg (ne .kwPrint rfl), if_neg (ne .leftBrace rfl),
    if_neg (ne .kwIf rfl), if_neg (ne .kwWhile rfl)]

theorem statement_complete (h : ReadsLevel 0 (depth + 1) expression.parse)
    (hs : ReadsStatements depth inner.parse) (hd : ReadsDeclarations depth declaration.parse)
    {ts rest : List Token} {s : Stmt} (reads : Reads s.flatten ts rest) (wellFormed : s.WellFormed)
    (nesting_le : s.nesting ≤ depth + 1) (notVar : s.isVar = false) (settled : Settled s rest) :
    statement expression inner declaration ts = .done s rest := by
  cases s with
  | expression e =>
    obtain ⟨mid, reads_e, -⟩ := reads_append.1 reads
    obtain ⟨t, ts, rfl, start⟩ := e.exists_start reads_e wellFormed
    rw [statement_of_startsExpression start]
    exact map_eq_done.2
      ⟨e, (terminated_eq_done h).2 ⟨reads, wellFormed, Nat.zero_le _, nesting_le⟩, rfl⟩
  | print e =>
    obtain ⟨t, mid, rfl, k, reads_e⟩ := reads_cons.1 reads
    simp only [statement, if_pos (Symbol.fits_implied.1 k)]
    exact map_eq_done.2
      ⟨e, (terminated_eq_done h).2 ⟨reads_e, wellFormed, Nat.zero_le _, nesting_le⟩, rfl⟩
  | block body =>
    obtain ⟨t, mid, rfl, k, reads_body⟩ := reads_cons.1 reads
    rw [Symbol.fits_implied] at k
    simp only [statement, k]
    exact (block_eq_done hd).2
      ⟨body, rfl, reads_body, wellFormed, Nat.le_of_succ_le_succ nesting_le⟩
  | ifThen c yes =>
    obtain ⟨t, mid, rfl, k, reads_c⟩ := reads_cons.1 reads
    rw [Symbol.fits_implied] at k
    simp only [statement, k]
    exact conditional_ifThen h hs reads_c wellFormed nesting_le (settled rfl)
  | ifElse c yes no =>
    obtain ⟨t, mid, rfl, k, reads_c⟩ := reads_cons.1 reads
    rw [Symbol.fits_implied] at k
    simp only [statement, k]
    exact conditional_ifElse h hs reads_c wellFormed nesting_le settled
  | loop c body =>
    obtain ⟨t, mid, rfl, k, reads_c⟩ := reads_cons.1 reads
    rw [Symbol.fits_implied] at k
    simp only [statement, k]
    exact (loop_eq_done h hs).2 ⟨c, body, rfl, reads_c, wellFormed, nesting_le, settled⟩
  | var name initializer => cases notVar
  | foreign label => exact wellFormed.elim

theorem readsStatements_statement (h : ReadsLevel 0 (depth + 1) expression.parse)
    (hs : ReadsStatements depth inner.parse) (hd : ReadsDeclarations depth declaration.parse) :
    ReadsStatements (depth + 1) (statement expression inner declaration) :=
  fun _ _ _ => ⟨statement_sound h hs hd, fun ⟨reads, wellFormed, nesting_le, notVar, settled⟩ =>
    statement_complete h hs hd reads wellFormed nesting_le notVar settled⟩

theorem recovering_eq_done {p : Parser Stmt} {ts rest : List Token} {o : Option Stmt} :
    recovering p ts = .done o rest ↔ ∃ s, o = some s ∧ p ts = .done s rest := by
  obtain ⟨complaints, outcome, reply⟩ : ∃ cs out, p ts = ⟨cs, out⟩ := ⟨_, _, rfl⟩
  simp only [recovering, reply]
  cases outcome with
  | done s mid => simp [Reply.done]; aesop
  | failed cause mid => simp [Reply.done]
  | tooDeep mid => simp [Reply.done]

theorem declared_sound (h : ReadsLevel 0 (depth + 1) expression.parse)
    (hs : ReadsStatements (depth + 1) inner.parse) {ts rest : List Token} {s : Stmt}
    (done : declared expression inner ts = .done s rest) :
    Reads s.flatten ts rest ∧ s.WellFormed ∧ s.nesting ≤ depth + 1 ∧ Settled s rest := by
  cases ts with
  | nil =>
    obtain ⟨reads, wellFormed, nesting_le, -, settled⟩ := (hs _ _ _).1 done
    exact ⟨reads, wellFormed, nesting_le, settled⟩
  | cons t ts =>
    simp only [declared] at done
    split at done
    next k =>
      obtain ⟨reads, wellFormed, nesting_le, isVar⟩ :=
        varDeclaration_sound h (Nat.le_add_left 1 depth) k done
      refine ⟨reads, wellFormed, nesting_le, fun isOpen => ?_⟩
      cases s <;> cases isVar
      cases isOpen
    next =>
      obtain ⟨reads, wellFormed, nesting_le, -, settled⟩ := (hs _ _ _).1 done
      exact ⟨reads, wellFormed, nesting_le, settled⟩

theorem declared_complete (h : ReadsLevel 0 (depth + 1) expression.parse)
    (hs : ReadsStatements (depth + 1) inner.parse) {ts rest : List Token} {s : Stmt}
    (reads : Reads s.flatten ts rest) (wellFormed : s.WellFormed)
    (nesting_le : s.nesting ≤ depth + 1) (settled : Settled s rest) :
    declared expression inner ts = .done s rest := by
  by_cases isVar : s.isVar = true
  · cases s with
    | var name initializer =>
      obtain ⟨t, ts, rfl, start⟩ := Stmt.exists_start reads wellFormed
      have k : t.kind = .kwVar := by cases initializer <;> exact reads.1
      simp only [declared, if_pos k]
      exact varDeclaration_complete h reads wellFormed nesting_le
    | expression | print | block | ifThen | ifElse | loop | foreign => cases isVar
  · rw [Bool.not_eq_true] at isVar
    have done := (hs _ _ _).2 ⟨reads, wellFormed, nesting_le, isVar, settled⟩
    cases ts with
    | nil => exact done
    | cons t ts =>
      simp only [declared, if_neg (Stmt.start_ne_var reads wellFormed isVar)]
      exact done

theorem readsDeclarations_declared (h : ReadsLevel 0 (depth + 1) expression.parse)
    (hs : ReadsStatements (depth + 1) inner.parse) :
    ReadsDeclarations (depth + 1) (recovering (declared expression inner)) := by
  intro ts o rest
  rw [recovering_eq_done]
  refine exists_congr fun s => and_congr_right fun _ => ?_
  exact ⟨declared_sound h hs, fun ⟨reads, wellFormed, nesting_le, settled⟩ =>
    declared_complete h hs reads wellFormed nesting_le settled⟩

end

/-! ### Grammars -/

/-- Without complaint the rules of a grammar read what the grammar derives within a depth. -/
structure Grammar.ReadsWithin (g : Grammar) (depth : Nat) : Prop where
  unary : ReadsLevel 5 depth g.unary.parse
  expression : ReadsLevel 0 depth g.expression.parse
  statement : ReadsStatements depth g.statement.parse
  declaration : ReadsDeclarations depth g.declaration.parse

theorem Grammar.readsWithin_exhausted : exhausted.ReadsWithin 0 := by
  have e_pos (e : Expr) : ¬ e.nesting ≤ 0 := Nat.not_le.2 e.one_le_nesting
  have s_pos (s : Stmt) : ¬ s.nesting ≤ 0 := Nat.not_le.2 s.one_le_nesting
  refine ⟨fun ts e rest => ?_, fun ts e rest => ?_, fun ts s rest => ?_, fun ts o rest => ?_⟩
  · exact ⟨nofun, fun ⟨_, phrase, _⟩ => absurd phrase.nesting_le (e_pos e)⟩
  · exact ⟨nofun, fun ⟨_, phrase, _⟩ => absurd phrase.nesting_le (e_pos e)⟩
  · exact ⟨nofun, fun ⟨_, _, nesting_le, _⟩ => absurd nesting_le (s_pos s)⟩
  · exact ⟨nofun,
      fun ⟨s, _, _, _, nesting_le, _⟩ => absurd nesting_le (s_pos s)⟩

theorem Grammar.ReadsWithin.extend {g : Grammar} {depth : Nat} (h : g.ReadsWithin depth) :
    g.extend.ReadsWithin (depth + 1) := by
  have expression := readsLevel_extend_expression h.unary h.expression
  have statement : ReadsStatements (depth + 1) g.extend.statement.parse := by
    rw [extend_statement]
    exact readsStatements_statement expression h.statement h.declaration
  refine ⟨?_, expression, statement, ?_⟩
  · rw [extend_unary]
    exact readsLevel_unary h.unary h.expression
  · rw [extend_declaration]
    exact readsDeclarations_declared expression statement

/-- **The rules read, without complaint, exactly what the grammar derives.** -/
theorem Grammar.readsWithin_ofDepth (depth : Nat) : (ofDepth depth).ReadsWithin depth := by
  induction depth with
  | zero => exact readsWithin_exhausted
  | succ depth ih => exact ih.extend

end Parser

end Lox
