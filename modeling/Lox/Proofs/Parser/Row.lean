import Lox.Proofs.Parser.Expression

/-!
# Declarations in a row

Declarations are read one after another up to a token that closes the row, a brace or the end. What
can go on with a declaration is an `else` alone, and only if it ends in a conditional without one
(`Settled`). No declaration starts with `else`, so the row falls apart into its declarations
(`declarations_of_reads`), and without complaint it is read exactly if they are
(`declarations_eq_done`).
-/

namespace Lox

/-- The kinds that a declaration starts with. -/
def Kind.startsDeclaration (k : Kind) : Bool :=
  k.startsExpression || k = .kwVar || k = .kwPrint || k = .leftBrace || k = .kwIf || k = .kwWhile

/-- The first token of a declaration tells that there is one. -/
theorem Stmt.Loose.exists_start {s : Stmt} {ts rest : List Token} (h : s.Loose)
    (reads : Reads s.flatten ts rest) :
    ∃ t mid, ts = t :: mid ∧ t.kind.startsDeclaration = true := by
  have keyword {k : Kind} {ss : List Symbol} (hk : k.startsDeclaration = true)
      (reads : Reads (.implied k :: ss) ts rest) :
      ∃ t mid, ts = t :: mid ∧ t.kind.startsDeclaration = true := by
    obtain ⟨t, mid, rfl, fits, -⟩ := reads_cons.1 reads
    exact ⟨t, mid, rfl, by rw [Symbol.fits_implied.1 fits, hk]⟩
  cases s with
  | expression e =>
    obtain ⟨mid, reads_e, -⟩ := reads_append.1 reads
    obtain ⟨t, mid', rfl, start⟩ := Expr.Loose.exists_start h reads_e
    exact ⟨t, mid', rfl, by rw [Kind.startsDeclaration, start]; rfl⟩
  | var name initializer =>
    cases initializer with
    | none => exact keyword (by decide) reads
    | some e => exact keyword (by decide) reads
  | print | block | ifThen | ifElse | loop => exact keyword (by decide) reads
  | foreign label => exact h.elim

theorem Stmt.exists_start {s : Stmt} {ts rest : List Token} (reads : Reads s.flatten ts rest)
    (h : s.WellFormed) : ∃ t mid, ts = t :: mid ∧ t.kind.startsDeclaration = true :=
  h.loose.exists_start reads

namespace Parser

/-- No `else` follows that would belong to the statement. -/
def Settled (s : Stmt) (rest : List Token) : Prop :=
  s.endsOpen = true → ∀ t ∈ rest.head?, t.kind ≠ .kwElse

/-- Without complaint the parser reads declarations and statements. -/
def ReadsDeclarations (depth : Nat) (p : Parser (Option Stmt)) : Prop :=
  ∀ ts o rest, p ts = .done o rest ↔ ∃ s, o = some s ∧
    Reads s.flatten ts rest ∧ s.WellFormed ∧ s.nesting ≤ depth ∧ Settled s rest

variable {declaration : Rule (Option Stmt)} {depth : Nat}

/-! ### Rows -/

/-- What is left starts with a token that closes, if with any. -/
def Closed (closes : Kind → Bool) (rest : List Token) : Prop :=
  ∀ t ∈ rest.head?, closes t.kind = true

/-- Kinds that close a row of declarations do not start or go on with one. -/
structure ClosesRow (closes : Kind → Bool) : Prop where
  not_start : ∀ k : Kind, k.startsDeclaration = true → closes k = false
  not_else : closes .kwElse = false

theorem closesRow_rightBrace : ClosesRow (· = .rightBrace) :=
  ⟨fun k => by cases k <;> decide, by decide⟩

theorem closesRow_never : ClosesRow (fun _ => false) :=
  ⟨fun _ _ => rfl, rfl⟩

theorem Closed.ne_else {closes : Kind → Bool} (row : ClosesRow closes) {rest : List Token}
    (h : Closed closes rest) : ∀ t ∈ rest.head?, t.kind ≠ .kwElse := by
  intro t ht k
  have closing := h t ht
  rw [k, row.not_else] at closing
  cases closing

theorem declarations_of_closed {closes : Kind → Bool} {rest : List Token} (h : Closed closes rest) :
    declarations closes declaration rest = .done [] rest := by
  cases rest with
  | nil => rw [declarations_nil]
  | cons t rest => rw [declarations_cons, if_pos (h t rfl)]

theorem declarations_sound (h : ReadsDeclarations depth declaration.parse) {closes : Kind → Bool}
    {ts rest : List Token} {ss : List Stmt}
    (done : declarations closes declaration ts = .done ss rest) :
    Reads (Stmt.flattenAll ss) ts rest ∧ Stmt.AllWellFormed ss ∧ Stmt.nestingAll ss ≤ depth
      ∧ Closed closes rest := by
  -- each declaration shortens what is left
  induction hn : ts.length using Nat.strongRecOn generalizing ts ss with
  | _ n ih =>
    cases ts with
    | nil =>
      rw [declarations_nil] at done
      obtain ⟨rfl, rfl⟩ := Reply.done_eq_done.1 done
      exact ⟨rfl, trivial, Nat.zero_le _, by simp [Closed]⟩
    | cons t ts =>
      rw [declarations_cons] at done
      split at done
      next closing =>
        obtain ⟨rfl, rfl⟩ := Reply.done_eq_done.1 done
        exact ⟨rfl, trivial, Nat.zero_le _, by simpa [Closed] using closing⟩
      next =>
        obtain ⟨o, mid, ho, done⟩ := Reply.bind_eq_done.1 done
        obtain ⟨ss', rest', hss, done⟩ := Reply.bind_eq_done.1 done
        obtain ⟨rfl, rfl⟩ := Reply.done_eq_done.1 done
        obtain ⟨s, rfl, reads, wellFormed, nesting_le, -⟩ := (h _ _ _).1 ho
        have shorter := declaration.length_rest_le ho
        obtain ⟨reads', wellFormed', nesting_le', closed⟩ := ih mid.length
          (by rw [← hn]; simp only [List.length_cons] at shorter ⊢; omega) hss rfl
        exact ⟨reads_append.2 ⟨mid, reads, reads'⟩, ⟨wellFormed, wellFormed'⟩,
          Nat.max_le.2 ⟨nesting_le, nesting_le'⟩, closed⟩

/-- Well-formed declarations are read one by one, whatever comes after them but an `else`. -/
theorem declarations_of_reads (h : ReadsDeclarations depth declaration.parse)
    {closes : Kind → Bool} (row : ClosesRow closes) {ts rest : List Token} {ss : List Stmt}
    (reads : Reads (Stmt.flattenAll ss) ts rest) (wellFormed : Stmt.AllWellFormed ss)
    (nesting_le : Stmt.nestingAll ss ≤ depth) (notElse : ∀ t ∈ rest.head?, t.kind ≠ .kwElse) :
    declarations closes declaration ts =
      (declarations closes declaration rest).bind fun rs rest => .done (ss ++ rs) rest := by
  induction ss generalizing ts with
  | nil =>
    rw [reads_nil.1 reads]
    exact (Reply.bind_done_self _).symm
  | cons s ss ih =>
    obtain ⟨mid, reads_s, reads_ss⟩ := reads_append.1 reads
    obtain ⟨nesting_s, nesting_ss⟩ := Nat.max_le.1 nesting_le
    obtain ⟨t, us, rfl, start⟩ := s.exists_start reads_s wellFormed.1
    -- the statements that follow do not start with `else`, nor does what is left after the last
    have settled : Settled s mid := by
      intro _ u hu
      cases ss with
      | nil => exact notElse u (reads_nil.1 reads_ss ▸ hu)
      | cons s' ss =>
        obtain ⟨mid', reads_s', -⟩ := reads_append.1 reads_ss
        obtain ⟨v, vs, rfl, start'⟩ := s'.exists_start reads_s' wellFormed.2.1
        cases hu
        intro k
        rw [k] at start'
        cases start'
    have done := (h _ _ _).2 ⟨s, rfl, reads_s, wellFormed.1, nesting_s, settled⟩
    rw [declarations_cons, row.not_start _ start, done]
    show (declarations closes declaration mid).bind _ = _
    rw [ih reads_ss wellFormed.2 nesting_ss, Reply.bind_bind]
    rfl

theorem declarations_eq_done (h : ReadsDeclarations depth declaration.parse) {closes : Kind → Bool}
    (row : ClosesRow closes) {ts rest : List Token} {ss : List Stmt} :
    declarations closes declaration ts = .done ss rest ↔
      Reads (Stmt.flattenAll ss) ts rest ∧ Stmt.AllWellFormed ss ∧ Stmt.nestingAll ss ≤ depth
        ∧ Closed closes rest := by
  refine ⟨declarations_sound h, ?_⟩
  rintro ⟨reads, wellFormed, nesting_le, closed⟩
  rw [declarations_of_reads h row reads wellFormed nesting_le (closed.ne_else row),
    declarations_of_closed closed]
  simp

/-! ### Blocks -/

theorem block_eq_done (h : ReadsDeclarations depth declaration.parse) {ts rest : List Token}
    {s : Stmt} :
    block declaration ts = .done s rest ↔ ∃ body, s = .block body ∧
      Reads (Stmt.flattenAll body ++ [.implied .rightBrace]) ts rest
        ∧ Stmt.AllWellFormed body ∧ Stmt.nestingAll body ≤ depth := by
  constructor
  · intro done
    obtain ⟨body, mid, hbody, done⟩ := bind_eq_done.1 done
    obtain ⟨t, mid', ht, done⟩ := bind_eq_done.1 done
    obtain ⟨rfl, rfl⟩ := Reply.done_eq_done.1 done
    obtain ⟨rfl, k⟩ := expect_eq_done.1 ht
    obtain ⟨reads, wellFormed, nesting_le, -⟩ := declarations_sound h hbody
    exact ⟨body, rfl, reads_append.2 ⟨_, reads, k, rfl⟩, wellFormed, nesting_le⟩
  · rintro ⟨body, rfl, reads, wellFormed, nesting_le⟩
    obtain ⟨mid, reads_body, reads_last⟩ := reads_append.1 reads
    obtain ⟨t, mid', rfl, k, rfl⟩ := reads_cons.1 reads_last
    have closed : Closed (· = .rightBrace) (t :: mid') := by
      simpa [Closed] using Symbol.fits_implied.1 k
    exact bind_eq_done.2 ⟨body, _,
      (declarations_eq_done h closesRow_rightBrace).2 ⟨reads_body, wellFormed, nesting_le, closed⟩,
      bind_eq_done.2 ⟨t, mid', expect_eq_done.2 ⟨rfl, k⟩, rfl⟩⟩

end Parser

end Lox
