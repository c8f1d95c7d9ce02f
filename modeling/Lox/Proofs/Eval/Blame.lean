import Lox.Proofs.Eval.Division
import Lox.Proofs.Eval.Failures
import Lox.Proofs.Parser.Produced
import Lox.Run

/-!
# What a failing statement is blamed on

Any statement that parsing returns can be executed, also one of a source in which problems were
found. It fails only for reasons of its own: the problem is one of execution, located at an operator
or a name that is stored in the statement (`Halt.OwnTo`, `Analysis.execute_halts`). The failures
that would show a defect of the interpreter are out of reach, and so is a division that has no
value.

The statements of a parse are trees of the grammar whatever was complained about, and these fail
only at their blamable tokens. What is left to show is where these tokens come from.
-/

namespace Lox

/-- The kinds of the operators, before an operand or between two. -/
def Kind.operators : List Kind :=
  [.bang, .minus, .plus, .slash, .star, .bangEqual, .equalEqual, .greater, .greaterEqual, .less,
    .lessEqual]

/-- A token at which evaluation can fail. -/
def Token.Blamable (t : Token) : Prop := t.kind = .identifier ∨ t.kind ∈ Kind.operators

/-- The problem is one of execution, located at the token. -/
structure Diagnostic.At (t : Token) (d : Diagnostic) : Prop where
  category : d.category = .runtime
  line : d.line = some t.line
  place : d.place = " at '" ++ t.lexeme ++ "'"
  lexeme : d.lexeme = some t.lexeme

/-- The halt is no defect of the interpreter: a failure is reported at an operator or a name that is
stored in the statement. -/
def Halt.OwnTo (s : Stmt) : Halt → Prop
  | .failure cause => ∃ t, .stored t ∈ s.flatten ∧ t.Blamable ∧ cause.diagnostic.At t
  | .tooDeep | .outOfFuel => True

/-! ### Blamable tokens -/

theorem Kind.mem_operators_of_infixLevel? {k : Kind} (h : k.infixLevel?.isSome) :
    k ∈ operators := by
  revert h
  cases k <;> decide

theorem Token.Blamable.kind_ne_eof {t : Token} (h : t.Blamable) : t.kind ≠ .eof := by
  intro eof
  rw [Blamable, eof] at h
  revert h
  decide

/-- A blamable token of an expression is one of its operators or names. -/
theorem Expr.Executable.of_mem_blamable {e : Expr} (h : e.Executable) {t : Token}
    (mem : t ∈ e.blamable) : .stored t ∈ e.flatten ∧ t.Blamable := by
  induction e with
  | binary left operator right ihl ihr =>
    obtain ⟨known, hleft, hright⟩ := h
    simp only [flatten, List.mem_append, List.mem_cons, Symbol.stored.injEq]
    rcases List.mem_append.1 mem with inLeft | inRest
    · obtain ⟨stored, blamable⟩ := ihl hleft inLeft
      exact ⟨.inl stored, blamable⟩
    rcases List.mem_cons.1 inRest with rfl | inRight
    · exact ⟨.inr (.inl rfl), .inr (Kind.mem_operators_of_infixLevel? known)⟩
    · obtain ⟨stored, blamable⟩ := ihr hright inRight
      exact ⟨.inr (.inr stored), blamable⟩
  | unary operator right ih =>
    obtain ⟨known, hright⟩ := h
    rcases List.mem_cons.1 mem with rfl | inRight
    · refine ⟨List.mem_cons_self, .inr ?_⟩
      exact List.mem_of_mem_take (i := 2) known
    · obtain ⟨stored, blamable⟩ := ih hright inRight
      exact ⟨List.mem_cons_of_mem _ stored, blamable⟩
  | grouping inner ih =>
    obtain ⟨stored, blamable⟩ := ih h mem
    exact ⟨List.mem_cons_of_mem _ (List.mem_append_left _ stored), blamable⟩
  | ident name =>
    rw [List.mem_singleton.1 mem]
    exact ⟨List.mem_cons_self, .inl h⟩
  | assign name value ih =>
    rcases List.mem_cons.1 mem with rfl | inValue
    · exact ⟨List.mem_cons_self, .inl h.1⟩
    · obtain ⟨stored, blamable⟩ := ih h.2 inValue
      exact ⟨List.mem_cons_of_mem _ (List.mem_cons_of_mem _ stored), blamable⟩
  | literal | foreign => cases mem

theorem Expr.Executable.of_mem_condition {c : Expr} (h : c.Executable) {t : Token}
    (mem : t ∈ c.blamable) : .stored t ∈ c.flattenCondition ∧ t.Blamable :=
  of_mem_blamable (e := .grouping c) h mem

mutual

/-- A blamable token of a statement is an operator or a name in one of its expressions. -/
theorem Stmt.Executable.of_mem_blamable : ∀ {s : Stmt}, s.Executable → ∀ {t : Token},
    t ∈ s.blamable → .stored t ∈ s.flatten ∧ t.Blamable
  | .expression e, h, t, mem => by
    obtain ⟨stored, blamable⟩ := Expr.Executable.of_mem_blamable h mem
    exact ⟨List.mem_append_left _ stored, blamable⟩
  | .print e, h, t, mem => by
    obtain ⟨stored, blamable⟩ := Expr.Executable.of_mem_blamable h mem
    exact ⟨List.mem_cons_of_mem _ (List.mem_append_left _ stored), blamable⟩
  | .var name (some e), h, t, mem => by
    obtain ⟨stored, blamable⟩ := Expr.Executable.of_mem_blamable h mem
    exact ⟨by simp [Stmt.flatten, stored], blamable⟩
  | .var _ none, _, _, mem => nomatch mem
  | .block body, h, t, mem => by
    obtain ⟨stored, blamable⟩ := Stmt.AllExecutable.of_mem_blamable h mem
    exact ⟨List.mem_cons_of_mem _ (List.mem_append_left _ stored), blamable⟩
  | .ifThen c yes, h, t, mem => by
    obtain ⟨hc, hyes⟩ := h
    rcases List.mem_append.1 mem with inCondition | inYes
    · obtain ⟨stored, blamable⟩ := hc.of_mem_condition inCondition
      exact ⟨List.mem_cons_of_mem _ (List.mem_append_left _ stored), blamable⟩
    · obtain ⟨stored, blamable⟩ := hyes.of_mem_blamable inYes
      exact ⟨List.mem_cons_of_mem _ (List.mem_append_right _ stored), blamable⟩
  | .ifElse c yes no, h, t, mem => by
    obtain ⟨hc, hyes, hno⟩ := h
    simp only [Stmt.flatten, List.mem_cons, List.mem_append]
    rcases List.mem_append.1 mem with inCondition | inBranches
    · obtain ⟨stored, blamable⟩ := hc.of_mem_condition inCondition
      exact ⟨.inr (.inl stored), blamable⟩
    rcases List.mem_append.1 inBranches with inYes | inNo
    · obtain ⟨stored, blamable⟩ := hyes.of_mem_blamable inYes
      exact ⟨.inr (.inr (.inl stored)), blamable⟩
    · obtain ⟨stored, blamable⟩ := hno.of_mem_blamable inNo
      exact ⟨.inr (.inr (.inr (.inr stored))), blamable⟩
  | .loop c body, h, t, mem => by
    obtain ⟨hc, hbody⟩ := h
    rcases List.mem_append.1 mem with inCondition | inBody
    · obtain ⟨stored, blamable⟩ := hc.of_mem_condition inCondition
      exact ⟨List.mem_cons_of_mem _ (List.mem_append_left _ stored), blamable⟩
    · obtain ⟨stored, blamable⟩ := hbody.of_mem_blamable inBody
      exact ⟨List.mem_cons_of_mem _ (List.mem_append_right _ stored), blamable⟩
  | .foreign _, h, _, _ => h.elim

theorem Stmt.AllExecutable.of_mem_blamable : ∀ {ss : List Stmt}, Stmt.AllExecutable ss →
    ∀ {t : Token}, t ∈ Stmt.blamableAll ss → .stored t ∈ Stmt.flattenAll ss ∧ t.Blamable
  | [], _, _, mem => nomatch mem
  | s :: ss, h, t, mem => by
    obtain ⟨hs, hss⟩ := h
    rcases List.mem_append.1 mem with here | later
    · obtain ⟨stored, blamable⟩ := hs.of_mem_blamable here
      exact ⟨List.mem_append_left _ stored, blamable⟩
    · obtain ⟨stored, blamable⟩ := hss.of_mem_blamable later
      exact ⟨List.mem_append_right _ stored, blamable⟩

end

/-! ### Failures -/

theorem Diagnostic.at_atToken {t : Token} (h : t.kind ≠ .eof) (message : String) :
    (atToken .runtime t message).At t := by
  rw [atToken, if_neg h]
  exact ⟨rfl, rfl, rfl, rfl⟩

/-- A failure located at a token is reported there. -/
theorem Failure.LocatedAt.diagnostic_at {cause : Failure} {t : Token} (h : cause.LocatedAt t)
    (ne_eof : t.kind ≠ .eof) : cause.diagnostic.At t := by
  cases cause with
  | operandNotNumber operator | operandsNotNumbers operator | operandsMismatch operator =>
    obtain rfl : operator = t := h
    exact Diagnostic.at_atToken ne_eof _
  | undefined name line =>
    obtain ⟨rfl, rfl⟩ := h
    exact ⟨rfl, rfl, rfl, rfl⟩
  | notLiteral | notUnary | notBinary | foreignExpression | foreignStatement => exact h.elim

/-- A statement of the grammar halts only for reasons of its own. -/
theorem Stmt.WellFormed.ownTo_of_halted {s : Stmt} (h : s.WellFormed) {rounds depth : Nat}
    {m m' : Machine} {halt : Halt} (halted : s.execute rounds depth m = .error halt m') :
    halt.OwnTo s := by
  cases halt with
  | tooDeep | outOfFuel => trivial
  | failure cause =>
    obtain ⟨t, mem, located⟩ := Stmt.execute_failsOnly rounds h.executable depth halted
    obtain ⟨stored, blamable⟩ := h.executable.of_mem_blamable mem
    exact ⟨t, stored, blamable, located.diagnostic_at blamable.kind_ne_eof⟩

/-- **A statement fails only for reasons of its own.** Whatever is wrong with a source, each
statement that parsing returns for it, executed in any machine, halts only with a problem located at
one of its operators or names, or for depth or rounds; and dividing two numbers has a value also if
the divisor is zero. -/
theorem Analysis.execute_halts (limits : Limits) (source : String) :
    (∀ s ∈ (Analysis.ofSource limits source).statements, ∀ (rounds depth : Nat) (m m' : Machine)
      (halt : Halt), s.execute rounds depth m = .error halt m' → halt.OwnTo s) ∧
    ∀ (operator : Token) (x y : Float), operator.kind = .slash →
      Operator.binary operator (.num x) (.num y) =
        .ok (.num (if y == 0 then Operator.overZero x y else x / y)) := by
  refine ⟨fun s mem rounds depth m m' halt halted => ?_, fun operator x y slash => ?_⟩
  · have wellFormed : s.WellFormed := Parsed.wellFormed_of_mem mem
    exact wellFormed.ownTo_of_halted halted
  · rw [Operator.binary, slash, ← Operator.divide_eq]
    rfl

/-- A character, an assignment and a parenthesis are at fault, and the last statement is executed
all the same: it divides a text by zero. -/
theorem Analysis.execute_halts_faulty :
    let analysis := Analysis.ofSource ⟨9, 9⟩ "@ 1 = a; ) print \"s\" / 0;"
    let m : Machine := ⟨.global, ""⟩
    analysis.problems.length = 3 ∧ ∃ s ∈ analysis.statements, ∃ cause m',
      s.execute 9 9 m = .error (.failure cause) m' ∧ (Halt.failure cause).OwnTo s := by
  intro analysis m
  let s := analysis.statements.getLastD default
  have mem : s ∈ analysis.statements := by decide +kernel
  have executed : (match s.execute 9 9 m with
      | .error (.failure _) _ => true
      | _ => false) = true := by
    decide +kernel
  split at executed
  next cause m' halted =>
    refine ⟨by decide +kernel, s, mem, cause, m', halted, ?_⟩
    exact (Analysis.execute_halts _ _).1 s mem 9 9 m m' _ halted
  next => cases executed

end Lox
