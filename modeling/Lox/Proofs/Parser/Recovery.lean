import Mathlib.Order.Bounds.Basic
import Lox.Proofs.Parser.Progress

/-!
# Where recovery resumes

A failure is at a token, and recovery moves on from there to a place where a statement can start:
behind a semicolon, before one of eight keywords, or at the end (`StartsAt`). It goes to the first
such place behind the token of the failure, so this token is dropped whatever it is, and nothing
behind the first place is (`synchronize_isLeast`). The walk over the index and the parser on the
tokens that are left agree about the place.
-/

namespace Lox.Parser

/-- The keywords before which recovery stops. -/
def boundaries : List Kind :=
  [.kwClass, .kwFun, .kwVar, .kwFor, .kwIf, .kwWhile, .kwPrint, .kwReturn]

theorem startsStatement_iff {k : Kind} : startsStatement k = true ↔ k ∈ boundaries := by
  simp [startsStatement, boundaries, or_assoc]

/-- In tokens whose first end token has index `n`, a statement can start at index `q`: at the end,
behind a semicolon, or at a keyword. -/
def StartsAt (tokens : List Token) (n q : Nat) : Prop :=
  q = n ∨ (∃ t ∈ tokens[q - 1]?, t.kind = .semicolon) ∨ ∃ t ∈ tokens[q]?, t.kind ∈ boundaries

/-- Recovery from a failure at index `e` may resume at these indices. -/
def resumable (tokens : List Token) (n e : Nat) : Set Nat :=
  {q | e < q ∧ q ≤ n ∧ StartsAt tokens n q}

variable {input : Input}

theorem getElem?_tokens {i : Nat} (before : i < input.body.length) :
    input.tokens[i]? = some input.body[i] := by
  rw [Input.tokens, List.getElem?_append_left before, List.getElem?_eq_getElem before]

/-- Between two tokens of the body a statement starts where dropping stops. -/
theorem startsAt_succ_iff {i : Nat} (before : i + 1 < input.body.length) :
    StartsAt input.tokens input.body.length (i + 1) ↔
      (decide (input.body[i].kind = .semicolon) || startsStatement input.body[i + 1].kind) = true := by
  have apart : i + 1 ≠ input.body.length := Nat.ne_of_lt before
  rw [StartsAt, Nat.add_sub_cancel, getElem?_tokens before,
    getElem?_tokens (Nat.lt_of_succ_lt before), Bool.or_eq_true, startsStatement_iff]
  simp [apart]

/-- Dropping goes on to the first place where a statement can start. -/
theorem dropToStart_isLeast {e : Nat} (before : e < input.body.length) :
    ∃ q, IsLeast (resumable input.tokens input.body.length e) q ∧
      dropToStart input.body[e] (input.body.drop (e + 1)) = input.body.drop q := by
  -- the induction is on the number of tokens left behind the one dropped last
  induction hn : input.body.length - e generalizing e with
  | zero => omega
  | succ n ih =>
    by_cases last : e + 1 = input.body.length
    · refine ⟨e + 1, ⟨⟨Nat.lt_succ_self e, Nat.le_of_eq last, .inl last⟩, ?_⟩, ?_⟩
      · intro q later
        exact later.1
      · rw [last, List.drop_length]
        rfl
    have before' : e + 1 < input.body.length := by omega
    rw [List.drop_eq_getElem_cons before', dropToStart]
    split
    next stop =>
      refine ⟨e + 1, ⟨⟨Nat.lt_succ_self e, Nat.le_of_lt before', ?_⟩, ?_⟩, ?_⟩
      · exact (startsAt_succ_iff before').2 stop
      · intro q later
        exact later.1
      · exact (List.drop_eq_getElem_cons before').symm
    next goOn =>
      obtain ⟨q, ⟨⟨lt, le, starts⟩, least⟩, dropped⟩ := ih before' (by omega)
      refine ⟨q, ⟨⟨Nat.lt_of_succ_lt lt, le, starts⟩, ?_⟩, dropped⟩
      rintro p ⟨lt', le', starts'⟩
      -- the next index is no place to start, so the first is behind it
      have further : e + 1 ≠ p := by
        rintro rfl
        exact goOn ((startsAt_succ_iff before').1 starts')
      exact least ⟨by omega, le', starts'⟩

theorem synchronize_drop {e : Nat} (before : e < input.body.length) :
    ∃ q, IsLeast (resumable input.tokens input.body.length e) q ∧
      synchronize (input.body.drop e) = input.body.drop q := by
  rw [List.drop_eq_getElem_cons before]
  exact dropToStart_isLeast before

/-- The walk over the index goes where the parser goes. -/
theorem walk_synchronize_drop {rounds e q : Nat} (enough : input.body.length < rounds)
    (body_ne : input.body ≠ []) (le : e ≤ input.body.length) (le' : q ≤ input.body.length)
    (same : synchronize (input.body.drop e) = input.body.drop q) (reported : List Diagnostic) :
    Walk.synchronize input.tokens rounds ⟨e, reported⟩ = .ok () ⟨q, reported⟩ := by
  have follows : Walk.synchronize input.tokens rounds
      (Walk.cursorAt input (input.body.drop e) reported) =
        .ok () (Walk.cursorAt input (synchronize (input.body.drop e)) reported) :=
    Walk.synchronize_cursorAt body_ne (List.drop_suffix e input.body) enough
  rwa [same, Walk.cursorAt_drop input le, Walk.cursorAt_drop input le'] at follows

/-- **Where recovery resumes.** In tokens whose first end token has index `n`, recovery from a
failure at an index before it resumes at the least later index at which a statement can start; at
the end it stays there. So does the parser on the tokens that are left, and so does the walk over
the index, which at the end needs a token to look back on. -/
theorem synchronize_isLeast {tokens : List Token} {n : Nat}
    (ends : tokens.findIdx? (·.kind = .eof) = some n) :
    (∀ e < n, ∃ q, IsLeast (resumable tokens n e) q ∧
      synchronize ((Parsed.body tokens).drop e) = (Parsed.body tokens).drop q ∧
      ∀ rounds reported, n < rounds →
        Walk.synchronize tokens rounds ⟨e, reported⟩ = .ok () ⟨q, reported⟩) ∧
    synchronize ((Parsed.body tokens).drop n) = (Parsed.body tokens).drop n ∧
    ∀ rounds reported, 0 < n → n < rounds →
      Walk.synchronize tokens rounds ⟨n, reported⟩ = .ok () ⟨n, reported⟩ := by
  obtain ⟨input, rfl, rfl⟩ := Input.exists_of_findIdx? ends
  rw [input.body_tokens]
  have at_end : synchronize (input.body.drop input.body.length) =
      input.body.drop input.body.length := by
    rw [List.drop_length]
    rfl
  refine ⟨?_, at_end, ?_⟩
  · intro e before
    obtain ⟨q, least, dropped⟩ := synchronize_drop before
    have body_ne : input.body ≠ [] := List.ne_nil_of_length_pos (Nat.zero_lt_of_lt before)
    refine ⟨q, least, dropped, ?_⟩
    intro rounds reported enough
    exact walk_synchronize_drop enough body_ne (Nat.le_of_lt before) least.1.2.1 dropped reported
  · intro rounds reported pos enough
    have body_ne : input.body ≠ [] := List.ne_nil_of_length_pos pos
    exact walk_synchronize_drop enough body_ne (Nat.le_refl _) (Nat.le_refl _) at_end reported

/-- A failure at a keyword, which is dropped. The semicolon behind it is the first place, and the
keyword after that is not gone to. -/
theorem synchronize_isLeast_keyword :
    let tokens := Lexer.tokens "1 print ) a ; b while"
    tokens.findIdx? (·.kind = .eof) = some 7 ∧ IsLeast (resumable tokens 7 1) 5 ∧
      synchronize ((Parsed.body tokens).drop 1) = (Parsed.body tokens).drop 5 := by
  intro tokens
  have ends : tokens.findIdx? (·.kind = .eof) = some 7 := by decide +kernel
  obtain ⟨q, least, dropped, -⟩ := (synchronize_isLeast ends).1 1 (by decide)
  have there : synchronize ((Parsed.body tokens).drop 1) = (Parsed.body tokens).drop 5 := by
    decide +kernel
  -- the two places leave equally many tokens
  have seven : (Parsed.body tokens).length = 7 := by decide +kernel
  have lengths := congrArg List.length (dropped.symm.trans there)
  rw [List.length_drop, List.length_drop, seven] at lengths
  have inside : q ≤ 7 := least.1.2.1
  obtain rfl : q = 5 := by omega
  exact ⟨ends, least, there⟩

end Lox.Parser
