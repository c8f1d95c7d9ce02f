import Lox.Lexer

/-!
# Cutting at a seam

Blanks and newlines separate: no piece goes on with one, but a string, and for blanks also a
comment. So a source that is glued to another with a line break in between is cut as if the two
were alone (`pieces_append_newline`). The exception is a quote that is not closed before the seam.
-/

namespace Lox.Lexer

/-- Characters with which no piece goes on, but a string or a comment. -/
def separates (c : Char) : Bool :=
  !isAlphanumeric c && c != '.' && c != '=' && c != '/'

/-! ### Runs of characters that end at the seam -/

section Runs

variable {p : Char → Bool} {x : Char}

theorem takeWhile_append_cons (h : p x = false) (cs rest : List Char) :
    (cs ++ x :: rest).takeWhile p = cs.takeWhile p := by
  induction cs with
  | nil => simp [h]
  | cons c cs ih => simp only [List.cons_append, List.takeWhile_cons, ih]

theorem dropWhile_append_cons (h : p x = false) (cs rest : List Char) :
    (cs ++ x :: rest).dropWhile p = cs.dropWhile p ++ x :: rest := by
  induction cs with
  | nil => simp [h]
  | cons c cs ih =>
    simp only [List.cons_append, List.dropWhile_cons, ih]
    split <;> rfl

end Runs

/-! ### Pieces that end at the seam -/

variable {c x : Char} {cs rest : List Char}

theorem separates_iff :
    separates x = true ↔ isAlphanumeric x = false ∧ x ≠ '.' ∧ x ≠ '=' ∧ x ≠ '/' := by
  simp [separates, and_assoc]

/-- A number ends at the seam. -/
theorem cutNumber_append_separator (h : separates x = true) :
    cutNumber c (cs ++ x :: rest) = ((cutNumber c cs).1, (cutNumber c cs).2 ++ x :: rest) := by
  obtain ⟨no_letter, no_point, -, -⟩ := separates_iff.1 h
  have no_digit : isDigit x = false := (Bool.or_eq_false_iff.1 no_letter).2
  unfold cutNumber
  rw [takeWhile_append_cons no_digit, dropWhile_append_cons no_digit]
  cases tail : cs.dropWhile isDigit with
  | nil => simp [no_point]
  | cons d ds =>
    by_cases point : d = '.'
    · subst point
      cases ds with
      | nil => simp [no_digit]
      | cons e es =>
        simp only [List.cons_append, takeWhile_append_cons no_digit, dropWhile_append_cons no_digit]
        split <;> rfl
    · simp [point]

/-- A string that is closed before the seam ends there. -/
theorem cutString_append_rest (closed : (cutString c cs).1.form ≠ .unclosed) :
    cutString c (cs ++ rest) = ((cutString c cs).1, (cutString c cs).2 ++ rest) := by
  have quoted : ∃ q after, cs.dropWhile (· ≠ '"') = q :: after := by
    refine List.exists_cons_of_ne_nil fun nil => closed ?_
    rw [cutString, nil]
  obtain ⟨q, after, tail⟩ := quoted
  have inside : (cs ++ rest).takeWhile (· ≠ '"') = cs.takeWhile (· ≠ '"') := by
    have whole := congrArg List.length
      (List.takeWhile_append_dropWhile (p := fun d => decide (d ≠ '"')) (l := cs))
    rw [tail, List.length_append, List.length_cons] at whole
    rw [List.takeWhile_append, if_neg (by omega)]
  have outside : (cs ++ rest).dropWhile (· ≠ '"') = q :: (after ++ rest) := by
    rw [List.dropWhile_append, tail]
    rfl
  rw [cutString, outside, inside, cutString, tail]

/-- **One piece at a seam**: what is cut off before the seam does not depend on what follows. -/
theorem cut_append_separator (h : separates x = true) (closed : (cut c cs).1.form ≠ .unclosed)
    (ends : x = '\n' ∨ (cut c cs).1.form ≠ .comment) :
    cut c (cs ++ x :: rest) = ((cut c cs).1, (cut c cs).2 ++ x :: rest) := by
  obtain ⟨no_letter, -, no_equals, no_slash⟩ := separates_iff.1 h
  unfold cut at closed ends ⊢
  cases hs : single? c with
  | some kind => rfl
  | none =>
    cases he : extensible? c with
    | some kinds =>
      cases cs with
      | nil => simp [no_equals]
      | cons d ds =>
        by_cases equals : d = '='
        · subst equals
          rfl
        · simp [equals]
    | none =>
      simp only [hs, he] at closed ends ⊢
      split
      next slash =>
        -- a comment goes on over blanks, so here the separator must be a line break
        rw [if_pos slash] at ends
        cases cs with
        | nil => simp [no_slash]
        | cons d ds =>
          by_cases double : d = '/'
          · subst double
            have newline : x = '\n' := ends.resolve_right fun ne => ne rfl
            have stops : (fun d => decide (d ≠ '\n')) x = false := by simp [newline]
            simp only [List.cons_append]
            rw [takeWhile_append_cons stops, dropWhile_append_cons stops]
          · simp [double]
      next not_slash =>
        rw [if_neg not_slash] at closed
        split
        · rfl
        next not_newline =>
          rw [if_neg not_newline] at closed
          split
          · rfl
          next not_blank =>
            rw [if_neg not_blank] at closed
            split
            next quote =>
              -- a string goes on over separators, so here it must be closed
              rw [if_pos quote] at closed
              exact cutString_append_rest closed
            next =>
              split
              · exact cutNumber_append_separator h
              · rw [takeWhile_append_cons no_letter, dropWhile_append_cons no_letter]
                split <;> rfl

/-! ### Sources glued together -/

/-- **Cutting at a line break.** A source in which every quote is closed is cut alone, whatever
stands after the line break. -/
theorem pieces_append_newline {cs : List Char} (closed : ∀ p ∈ pieces cs, p.form ≠ .unclosed)
    (rest : List Char) :
    pieces (cs ++ '\n' :: rest) = pieces cs ++ ⟨.newline, ['\n']⟩ :: pieces rest := by
  fun_induction pieces cs with
  | case1 => rw [List.nil_append, pieces_cons]; rfl
  | case2 c cs ih =>
    obtain ⟨closed_head, closed_tail⟩ := List.forall_mem_cons.1 closed
    rw [List.cons_append, pieces_cons, cut_append_separator (by decide) closed_head (.inl rfl)]
    rw [ih closed_tail, List.cons_append]

end Lox.Lexer
