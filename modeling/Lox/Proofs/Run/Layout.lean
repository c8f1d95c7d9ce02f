import Mathlib.Data.List.Forall2
import Lox.Proofs.Parser.Kinds
import Lox.Proofs.Run.Append

/-!
# Layout does not matter

Where lines are broken shows in a run only in the line numbers of its problems. Two sources whose
tokens differ at most in their lines are parsed to trees that differ at most in the lines of their
tokens, since parsing sees only kinds, and such trees are executed alike. Erasing the lines of both
sides turns "alike but for lines" into equations, which the laws of parsing and execution carry
from the tokens to the summary of the run (`summary_of_sameButLine`).
-/

namespace Lox

/-! ### Alike but for lines -/

/-- The two tokens differ at most in their lines. -/
structure Token.SameButLine (t u : Token) : Prop where
  kind : t.kind = u.kind
  lexeme : t.lexeme = u.lexeme
  literal : t.literal = u.literal

instance (t u : Token) : Decidable (t.SameButLine u) :=
  decidable_of_iff (t.kind = u.kind ∧ t.lexeme = u.lexeme ∧ t.literal = u.literal)
    ⟨fun ⟨kind, lexeme, literal⟩ => ⟨kind, lexeme, literal⟩,
      fun h => ⟨h.kind, h.lexeme, h.literal⟩⟩

/-- The two problems differ at most in their lines: both have one, or none has. -/
structure Diagnostic.SameButLine (d e : Diagnostic) : Prop where
  category : d.category = e.category
  message : d.message = e.message
  place : d.place = e.place
  lexeme : d.lexeme = e.lexeme
  located : d.line.isSome = e.line.isSome

theorem Token.SameButLine.unlined_eq {t u : Token} (h : t.SameButLine u) :
    t.unlined = u.unlined := by
  simp only [Token.unlined, Token.relocate, h.kind, h.lexeme, h.literal]

theorem Diagnostic.SameButLine.of_unlined {d e : Diagnostic} (h : d.unlined = e.unlined) :
    d.SameButLine e where
  category := (congrArg Diagnostic.category h :)
  message := (congrArg Diagnostic.message h :)
  place := (congrArg Diagnostic.place h :)
  lexeme := (congrArg Diagnostic.lexeme h :)
  located := by
    have lines : (d.line.map fun _ => (0 : Int)).isSome = (e.line.map fun _ => (0 : Int)).isSome :=
      congrArg (fun c => c.line.isSome) h
    rwa [Option.isSome_map, Option.isSome_map] at lines

theorem map_unlined_eq {ts us : List Token} (h : List.Forall₂ Token.SameButLine ts us) :
    ts.map Token.unlined = us.map Token.unlined := by
  induction h with
  | nil => rfl
  | cons same _ ih => rw [List.map_cons, List.map_cons, same.unlined_eq, ih]

theorem forall₂_sameButLine {ds es : List Diagnostic}
    (h : ds.map Diagnostic.unlined = es.map Diagnostic.unlined) :
    List.Forall₂ Diagnostic.SameButLine ds es := by
  have equal : List.Forall₂ (· = ·) (ds.map Diagnostic.unlined) (es.map Diagnostic.unlined) := by
    rw [List.forall₂_eq_eq_eq]
    exact h
  rw [List.forall₂_map_left_iff, List.forall₂_map_right_iff] at equal
  exact equal.imp fun _ _ => Diagnostic.SameButLine.of_unlined

/-! ### Parsing -/

/-- Problems move with the tokens that they blame. -/
theorem Parsed.diagnostics_map (g : Int → Int) (p : Parsed) :
    (p.map (Token.relocate g)).diagnostics = p.diagnostics.map (Diagnostic.relocate g) := by
  obtain ⟨statements, complaints, overflow, eof⟩ := p
  have complaint (c : Parser.Complaint) : (c.map (Token.relocate g)).diagnostic (eof.relocate g) =
      (c.diagnostic eof).relocate g := by
    obtain ⟨cause, blamed⟩ := c
    cases blamed <;> exact Diagnostic.atToken_relocate _ _ _
  simp only [diagnostics, map, List.map_append, List.map_map]
  congr 1
  · exact List.map_congr_left fun c _ => complaint c
  · cases overflow <;> rfl

namespace Analysis

variable {s₁ s₂ : String}

/-- Sources that scan alike are parsed alike: to the same statements and the same problems, but for
the lines. -/
theorem ofTokens_map_unlined (depth : Nat)
    (same : List.Forall₂ Token.SameButLine (Lexer.tokens s₁) (Lexer.tokens s₂)) :
    (Parsed.ofTokens depth (Lexer.tokens s₁)).map Token.unlined =
      (Parsed.ofTokens depth (Lexer.tokens s₂)).map Token.unlined := by
  have ends (source : String) : ∃ t ∈ Lexer.tokens source, t.kind = .eof := by
    obtain ⟨ts, -, eq⟩ := Lexer.tokens_eq_append_eof source
    rw [eq]
    exact ⟨_, List.mem_append_right ts (List.mem_singleton_self _), rfl⟩
  have parse (source : String) := Parsed.ofTokens_map
    (Token.kind_relocate fun _ => 0) depth (ends source)
  rw [← parse, ← parse, map_unlined_eq same]

theorem statements_unlined (limits : Limits)
    (same : List.Forall₂ Token.SameButLine (Lexer.tokens s₁) (Lexer.tokens s₂)) :
    Stmt.mapAll Token.unlined (ofSource limits s₁).statements =
      Stmt.mapAll Token.unlined (ofSource limits s₂).statements :=
  congrArg Parsed.statements (ofTokens_map_unlined limits.nesting same)

/-- Without lexical faults the problems are those of parsing. -/
theorem problems_sameButLine (limits : Limits) (clean₁ : Lexer.faults s₁ = [])
    (clean₂ : Lexer.faults s₂ = [])
    (same : List.Forall₂ Token.SameButLine (Lexer.tokens s₁) (Lexer.tokens s₂)) :
    List.Forall₂ Diagnostic.SameButLine (ofSource limits s₁).problems
      (ofSource limits s₂).problems := by
  have problems {source : String} (clean : Lexer.faults source = []) :
      (ofSource limits source).problems =
        (Parsed.ofTokens limits.nesting (Lexer.tokens source)).diagnostics := by
    simp only [ofSource, Lexer.diagnostics, clean, List.map_nil, List.nil_append]
  rw [problems clean₁, problems clean₂]
  apply forall₂_sameButLine
  rw [← Parsed.diagnostics_map, ← Parsed.diagnostics_map,
    ofTokens_map_unlined limits.nesting same]

end Analysis

/-! ### Runs -/

/-- The two summaries differ at most in the lines of the problems recorded after `earlier`. -/
structure Summary.SameButLines (earlier : List Diagnostic) (a b : Summary) : Prop where
  ending : a.ending = b.ending
  chain : a.chain = b.chain
  output : a.output = b.output
  errors : ∃ recorded recorded', a.errors = earlier ++ recorded ∧ b.errors = earlier ++ recorded' ∧
    List.Forall₂ Diagnostic.SameButLine recorded recorded'

/-- The category of the first problem decides about the exit status. -/
theorem Journal.exitStatus_append_of_sameButLine (errors : List Diagnostic)
    {ds es : List Diagnostic} (same : List.Forall₂ Diagnostic.SameButLine ds es) :
    exitStatus { errors := errors ++ ds } = exitStatus { errors := errors ++ es } := by
  cases errors with
  | nil =>
    cases same with
    | nil => rfl
    | cons first _ => exact congrArg Category.exitStatus first.category
  | cons d errors => rfl

theorem Summary.sameButLines_stopped (fatal : Bool) (m : Machine) (earlier : List Diagnostic)
    {ds es : List Diagnostic} (same : List.Forall₂ Diagnostic.SameButLine ds es) :
    SameButLines earlier (stopped fatal m (earlier ++ ds)) (stopped fatal m (earlier ++ es)) where
  ending := by simp only [stopped, Journal.exitStatus_append_of_sameButLine earlier same]
  chain := rfl
  output := rfl
  errors := ⟨ds, es, rfl, rfl, same⟩

/-- Executing statements that are the same but for lines is seen alike, but for the line of the
failure. -/
theorem Summary.sameButLines_ofExecution (limits : Limits) (fatal : Bool)
    (earlier : List Diagnostic) (m : Machine) {ss₁ ss₂ : List Stmt}
    (own₁ : ∀ cause m', Stmt.executeAll limits.rounds ss₁ limits.nesting m =
      .error (.failure cause) m' → cause.diagnostic.category = .runtime)
    (own₂ : ∀ cause m', Stmt.executeAll limits.rounds ss₂ limits.nesting m =
      .error (.failure cause) m' → cause.diagnostic.category = .runtime)
    (same : Stmt.mapAll Token.unlined ss₁ = Stmt.mapAll Token.unlined ss₂) :
    SameButLines earlier
      (ofExecution fatal earlier (Stmt.executeAll limits.rounds ss₁ limits.nesting m))
      (ofExecution fatal earlier (Stmt.executeAll limits.rounds ss₂ limits.nesting m)) := by
  obtain ⟨recorded₁, errors₁, erased₁⟩ :=
    ofExecution_relocating (fun _ => 0) fatal earlier own₁
  obtain ⟨recorded₂, errors₂, erased₂⟩ :=
    ofExecution_relocating (fun _ => 0) fatal earlier own₂
  -- without lines both executions are one and the same
  rw [← Stmt.executeAll_relocate] at erased₁ erased₂
  have erased := erased₁.symm.trans ((congrArg (fun ss => ofExecution fatal earlier
    (Stmt.executeAll limits.rounds ss limits.nesting m)) same).trans erased₂)
  obtain ⟨ending, chain, output, errors⟩ := Summary.mk.inj erased
  refine ⟨ending, chain, output, recorded₁, recorded₂, errors₁, errors₂, ?_⟩
  exact forall₂_sameButLine (List.append_cancel_left errors)

/-- **Layout does not matter.** Two sources without lexical faults whose tokens differ at most in
their lines run alike in every workspace: with the same answer, or cut short in the same way, to
the same scopes and the same output. The problems that they record are the same in the same order,
but for their lines. -/
theorem summary_of_sameButLine (limits : Limits) (s₁ s₂ : String) (w : Workspace)
    (clean₁ : Lexer.faults s₁ = []) (clean₂ : Lexer.faults s₂ = [])
    (same : List.Forall₂ Token.SameButLine (Lexer.tokens s₁) (Lexer.tokens s₂)) :
    Summary.SameButLines w.console.journal.errors (summary limits s₁ w) (summary limits s₂ w) := by
  have problems := Analysis.problems_sameButLine limits clean₁ clean₂ same
  cases found₁ : (Analysis.ofSource limits s₁).problems with
  | nil =>
    have found₂ : (Analysis.ofSource limits s₂).problems = [] := by
      rw [found₁] at problems
      exact List.forall₂_nil_left_iff.1 problems
    rw [summary_of_clean found₁, summary_of_clean found₂]
    exact Summary.sameButLines_ofExecution limits _ _ _
      (fun _ _ => category_eq_runtime_of_clean found₁)
      (fun _ _ => category_eq_runtime_of_clean found₂) (Analysis.statements_unlined limits same)
  | cons d ds =>
    rw [found₁] at problems
    obtain ⟨e, es, first, others, found₂⟩ := List.forall₂_cons_left_iff.1 problems
    rw [summary_of_problems found₁, summary_of_problems found₂]
    -- a fatal journal records the first of them, any other records all
    apply Summary.sameButLines_stopped
    split
    · exact .cons first .nil
    · exact .cons first others

/-- Comments, blanks and line breaks in other places, before a failure at run time. -/
theorem summary_of_sameButLine_comment :
    let s₁ := "var a=\"s\";\x7bprint a;-a;\x7d"
    let s₂ := "var a = \"s\"; // text\n\x7b\n\tprint a;\n\n\t-\n\ta;\n\x7d // end"
    let w : Workspace := ⟨.global, { journal := {} }⟩
    Lexer.faults s₁ = [] ∧ Lexer.faults s₂ = []
      ∧ List.Forall₂ Token.SameButLine (Lexer.tokens s₁) (Lexer.tokens s₂)
      ∧ Summary.SameButLines w.console.journal.errors (summary ⟨9, 9⟩ s₁ w)
        (summary ⟨9, 9⟩ s₂ w) := by
  intro s₁ s₂ w
  have clean₁ : Lexer.faults s₁ = [] := by decide +kernel
  have clean₂ : Lexer.faults s₂ = [] := by decide +kernel
  have same : List.Forall₂ Token.SameButLine (Lexer.tokens s₁) (Lexer.tokens s₂) := by
    decide +kernel
  exact ⟨clean₁, clean₂, same, summary_of_sameButLine ⟨9, 9⟩ s₁ s₂ w clean₁ clean₂ same⟩

end Lox
