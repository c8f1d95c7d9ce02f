import Lox.Lexer
import Lox.Proofs.Parser.Follows

/-!
# Progress on any input

What the walk of the parser does on a token list that need not be a program (`Progresses`), shown
for every list that has an end token (`program_progresses`).
-/

namespace Lox.Walk

open Lox.Parser

variable {α : Type} {input : Input}

/-! ### Grammars -/

namespace Productions

/-- The walks follow the rules of a grammar. -/
structure Follows (input : Input) (p : Productions) (g : Grammar) : Prop where
  unary : Walk.Follows input p.unary g.unary.parse
  expression : Walk.Follows input p.expression g.expression.parse
  statement : Walk.Follows input p.statement g.statement.parse
  declaration : Walk.Follows input p.declaration g.declaration.parse

theorem follows_exhausted (input : Input) : Follows input exhausted .exhausted := by
  refine ⟨⟨fun ts => List.suffix_refl ts, ?_⟩, ⟨fun ts => List.suffix_refl ts, ?_⟩,
    ⟨fun ts => List.suffix_refl ts, ?_⟩, ⟨fun ts => List.suffix_refl ts, ?_⟩⟩
  all_goals
    intro rest reported _
    show EStateM.Result.error Stop.tooDeep (cursorAt input rest reported) =
      EStateM.Result.error Stop.tooDeep (cursorAt input rest (reported ++ []))
    rw [List.append_nil]

theorem Follows.extend {rounds : Nat} {p : Productions} {g : Grammar} (body_ne : input.body ≠ [])
    (enough : input.body.length < rounds) (h : Follows input p g) :
    Follows input (p.extend input.tokens rounds) g.extend := by
  have unary := follows_unary h.unary h.expression
  rw [← Grammar.extend_unary] at unary
  have factor : Walk.Follows input _ g.factor.parse :=
    follows_chain mem_factor enough unary
  have term : Walk.Follows input _ g.term.parse :=
    follows_chain mem_term enough factor
  have comparison : Walk.Follows input _ g.comparison.parse :=
    follows_chain mem_comparison enough term
  have equality : Walk.Follows input _ g.equality.parse :=
    follows_chain mem_equality enough comparison
  have expression := follows_assignment equality h.expression
  rw [← Grammar.extend_expression] at expression
  have statement := follows_statement enough expression h.statement h.declaration
  rw [← Grammar.extend_statement] at statement
  exact ⟨unary, expression, statement,
    follows_recovering body_ne enough (follows_declared expression statement)⟩

theorem follows_ofDepth {rounds : Nat} (body_ne : input.body ≠ [])
    (enough : input.body.length < rounds) (depth : Nat) :
    Follows input (ofDepth input.tokens rounds depth) (.ofDepth depth) := by
  induction depth with
  | zero => exact follows_exhausted input
  | succ depth ih => exact ih.extend body_ne enough

end Productions

/-! ### Whole programs -/

theorem cursorAt_drop (input : Input) {i : Nat} (le : i ≤ input.body.length)
    (reported : List Diagnostic) : cursorAt input (input.body.drop i) reported = ⟨i, reported⟩ := by
  rw [cursorAt, List.length_drop, Nat.sub_sub_self le]

/-- The walk over a whole program gives the reply of the parser. -/
theorem program_eq_ofReply {rounds : Nat} (enough : input.body.length < rounds) (depth : Nat)
    (reported : List Diagnostic) :
    program input.tokens rounds depth ⟨0, reported⟩ =
      ofReply input reported (Parsed.program depth input.body) := by
  rw [← cursorAt_drop input (Nat.zero_le _), List.drop_zero]
  by_cases body_ne : input.body = []
  · obtain ⟨rounds, rfl⟩ := Nat.exists_eq_succ_of_ne_zero (Nat.ne_zero_of_lt enough)
    rw [body_ne, program, declarations, bind_ok isAtEnd_nil, if_pos rfl, Parsed.program,
      declarations_nil]
    exact (Follows.pure []).run [] reported List.nil_suffix
  · exact declarations_cursorAt (fun _ => isAtEnd_nil) (fun _ _ _ within => isAtEnd_cons within)
      (Productions.follows_ofDepth body_ne enough depth).declaration (List.suffix_refl _) enough

theorem ofTokens_tokens (input : Input) (depth : Nat) : Parsed.ofTokens depth input.tokens =
    Parsed.ofReply input.eof (Parsed.program depth input.body) := by
  rw [Parsed.ofTokens, input.body_tokens, input.closing_tokens]

/-- What is shown of a walk over tokens whose first end token has index `n`. -/
structure Progresses (tokens : List Token) (n rounds depth : Nat) : Prop where
  /-- The walk ends, at the first end token or because the program nests too deep. What it gives
  and reports is what the parse says. -/
  ends : ∀ reported, let parsed := Parsed.ofTokens depth tokens
    (parsed.overflow = none ∧ program tokens rounds depth ⟨0, reported⟩ =
      .ok parsed.statements ⟨n, reported ++ parsed.diagnostics⟩) ∨
    ∃ i ≤ n, ∃ t problems, tokens[i]? = some t ∧ parsed.overflow = some t ∧
      parsed.statements = [] ∧ parsed.diagnostics = problems ++ [.tooDeep (some t.line)] ∧
      program tokens rounds depth ⟨0, reported⟩ = .error .tooDeep ⟨i, reported ++ problems⟩
  /-- A declaration that starts before the first end token, at whatever depth, moves the index on,
  and not over the end token, unless the program nests too deep. -/
  advances : ∀ d i reported, i < n →
    let declaration := (Productions.ofDepth tokens rounds d).declaration
    (∃ o j reported', i < j ∧ j ≤ n ∧ declaration ⟨i, reported⟩ = .ok o ⟨j, reported'⟩) ∨
    ∃ j reported', i ≤ j ∧ j ≤ n ∧ declaration ⟨i, reported⟩ = .error .tooDeep ⟨j, reported'⟩
  /-- Tokens behind the first end token make no difference. -/
  confined : ∀ tokens', tokens'.take (n + 1) = tokens.take (n + 1) →
    Parsed.ofTokens depth tokens' = Parsed.ofTokens depth tokens ∧
    ∀ reported, program tokens' rounds depth ⟨0, reported⟩ =
      program tokens rounds depth ⟨0, reported⟩

theorem ends_of_enough {rounds : Nat} (enough : input.body.length < rounds) (depth : Nat)
    (reported : List Diagnostic) : let parsed := Parsed.ofTokens depth input.tokens
    (parsed.overflow = none ∧ program input.tokens rounds depth ⟨0, reported⟩ =
      .ok parsed.statements ⟨input.body.length, reported ++ parsed.diagnostics⟩) ∨
    ∃ i ≤ input.body.length, ∃ t problems, input.tokens[i]? = some t ∧ parsed.overflow = some t ∧
      parsed.statements = [] ∧ parsed.diagnostics = problems ++ [.tooDeep (some t.line)] ∧
      program input.tokens rounds depth ⟨0, reported⟩ =
        .error .tooDeep ⟨i, reported ++ problems⟩ := by
  intro parsed
  have same : parsed = Parsed.ofReply input.eof _ := ofTokens_tokens input depth
  have run := program_eq_ofReply enough depth reported
  have suffix : (Parsed.program depth input.body).outcome.rest <:+ input.body :=
    leavesSuffix_declarations _ (Grammar.leavesSuffix_ofDepth depth).declaration _
  rcases hr : Parsed.program depth input.body with ⟨complaints, outcome⟩
  rw [hr] at same run suffix
  rcases program_ends depth input.body with ⟨ss, done⟩ | ⟨rest, deep⟩
  · rw [hr] at done
    cases done
    refine .inl ⟨by rw [same]; rfl, ?_⟩
    rw [run, same]
    simp [ofReply, cursorAt, Parsed.ofReply, Parsed.diagnostics]
  · rw [hr] at deep
    cases deep
    refine .inr ⟨input.body.length - rest.length, Nat.sub_le _ _, rest.head?.getD input.eof,
      complaints.map (Complaint.diagnostic input.eof), getElem?_of_suffix suffix, ?_⟩
    rw [run, same]
    exact ⟨rfl, rfl, rfl, rfl⟩

theorem advances_of_enough {rounds : Nat} (enough : input.body.length < rounds) (d : Nat) {i : Nat}
    (lt : i < input.body.length) (reported : List Diagnostic) :
    let declaration := (Productions.ofDepth input.tokens rounds d).declaration
    (∃ o j reported', i < j ∧ j ≤ input.body.length ∧
      declaration ⟨i, reported⟩ = .ok o ⟨j, reported'⟩) ∨
    ∃ j reported', i ≤ j ∧ j ≤ input.body.length ∧
      declaration ⟨i, reported⟩ = .error .tooDeep ⟨j, reported'⟩ := by
  intro declaration
  have body_ne : input.body ≠ [] := List.ne_nil_of_length_pos (Nat.zero_lt_of_lt lt)
  have run := (Productions.follows_ofDepth body_ne enough d).declaration.run
    (input.body.drop i) reported (List.drop_suffix i _)
  rw [cursorAt_drop input (Nat.le_of_lt lt)] at run
  have length : (input.body.drop i).length = input.body.length - i := List.length_drop
  rcases hr : (Grammar.ofDepth d).declaration.parse (input.body.drop i) with ⟨complaints, outcome⟩
  rw [hr] at run
  rcases Grammar.declaration_ends d (input.body.drop i) with ⟨o, rest, done⟩ | ⟨rest, deep⟩
  · have shorter := Rule.length_le_of_done _ done
    rw [hr] at done
    cases done
    exact .inl ⟨o, _, _, by omega, Nat.sub_le _ rest.length, run⟩
  · have suffix := (Grammar.leavesSuffix_ofDepth d).declaration (input.body.drop i)
    rw [deep] at suffix
    have shorter : rest.length ≤ (input.body.drop i).length := suffix.length_le
    rw [hr] at deep
    cases deep
    exact .inr ⟨_, _, by omega, Nat.sub_le _ rest.length, run⟩

/-- A list that agrees up to the first end token differs only behind it. -/
theorem tokens_of_take {tokens' : List Token} (same : tokens'.take (input.body.length + 1) =
    input.tokens.take (input.body.length + 1)) :
    ∃ input' : Input, input'.tokens = tokens' ∧ input'.body = input.body
      ∧ input'.eof = input.eof := by
  refine ⟨{ input with after := tokens'.drop (input.body.length + 1) }, ?_, rfl, rfl⟩
  have front : input.tokens.take (input.body.length + 1) = input.body ++ [input.eof] := by
    rw [Input.tokens, List.append_cons, List.take_left' (by simp)]
  calc input.body ++ input.eof :: tokens'.drop (input.body.length + 1)
      = (input.body ++ [input.eof]) ++ tokens'.drop (input.body.length + 1) := List.append_cons ..
    _ = tokens'.take (input.body.length + 1) ++ tokens'.drop (input.body.length + 1) := by
      rw [same, front]
    _ = tokens' := List.take_append_drop ..

theorem ofReply_congr {input' : Input} (body : input'.body = input.body)
    (eof : input'.eof = input.eof) (reported : List Diagnostic) (r : Reply α) :
    ofReply input' reported r = ofReply input reported r := by
  have cursor : cursorAt input' = cursorAt input := by
    funext rest reported
    rw [cursorAt, cursorAt, body]
  rw [ofReply, ofReply, cursor, eof]

/-- **Progress.** The walk of the parser over any token list that has an end token ends, at the
first of them or because the program nests too deep: no problem is left for the caller to catch, no
token outside the list is read, the index never moves over the end token, and no loop goes on for
ever. Every declaration makes progress, and what stands behind the end token makes no difference. -/
theorem program_progresses {tokens : List Token} {n : Nat}
    (ends : tokens.findIdx? (·.kind = .eof) = some n) (rounds depth : Nat) (enough : n < rounds) :
    Progresses tokens n rounds depth := by
  obtain ⟨input, rfl, rfl⟩ := Input.exists_of_findIdx? ends
  refine ⟨ends_of_enough enough depth,
    fun d i reported lt => advances_of_enough enough d lt reported, fun tokens' same => ?_⟩
  obtain ⟨input', rfl, body, eof⟩ := tokens_of_take same
  refine ⟨?_, fun reported => ?_⟩
  · rw [ofTokens_tokens, ofTokens_tokens, body, eof]
  · rw [program_eq_ofReply enough, program_eq_ofReply (by rwa [body]), body,
      ofReply_congr body eof]

/-- Two unclosed blocks with four problems in all, two of them at the end, and tokens behind it. -/
theorem program_progresses_unclosed :
    let tokens := Lexer.tokens "\x7b var (; \x7b print ) ;" ++ Lexer.tokens "\x7d x"
    tokens.findIdx? (·.kind = .eof) = some 8 ∧ 8 < 9 ∧ Progresses tokens 8 9 4 ∧
      (Parsed.ofTokens 4 tokens).diagnostics.length = 4 := by
  intro tokens
  have ends : tokens.findIdx? (·.kind = .eof) = some 8 := by decide +kernel
  exact ⟨ends, by decide, program_progresses ends 9 4 (by decide), by decide +kernel⟩

end Lox.Walk
