import Mathlib.Tactic.CasesM
import Lox.Proofs.Lexer.Munch
import Lox.Proofs.Lexer.Lines
import Lox.Text.Blank

/-!
# Blanks that can be left out

Blanks before a source, and blanks before a line break outside strings, can be left out without any
loss: the tokens are the same but for their lines, and there is no new fault. `Reduces` says this of
two lists of pieces. Blanks are meant in the wide sense of `Text.isBlank`, which has more characters
than the lexer knows. One of these is a fault of its own, unless it stands in a comment or a string,
so leaving it out may mend a source but never spoils one.
-/

namespace Lox

/-! ### Blanks and the lexer -/

/-- Blanks are outside the printed part of ASCII. -/
theorem Text.toNat_of_isBlank {c : Char} (h : isBlank c = true) :
    c.toNat ≤ 32 ∨ 128 ≤ c.toNat := by
  simp only [isBlank, isWhiteSpace, Char.isWhitespace, Bool.or_eq_true, Bool.and_eq_true,
    decide_eq_true_eq, beq_iff_eq, Char.le_def, UInt32.le_iff_toNat_le] at h
  casesm* _ ∨ _
  all_goals first
    | (subst c; decide)
    | exact .inr (Nat.le_trans (by decide) h.1)
    | exact .inl (Nat.le_trans h.2 (by decide))

namespace Lexer

variable {c : Char} {cs : List Char}

theorem isAlphanumeric_of_isBlank (h : Text.isBlank c = true) : isAlphanumeric c = false := by
  rw [Bool.eq_false_iff]
  intro letter
  simp only [isAlphanumeric, isAlpha, isDigit, Bool.or_eq_true, Bool.and_eq_true,
    decide_eq_true_eq, beq_iff_eq, Char.le_def, UInt32.le_iff_toNat_le] at letter
  have bounds : 48 ≤ c.toNat ∧ c.toNat ≤ 122 := by
    casesm* _ ∨ _
    all_goals first
      | (subst c; decide)
      | exact ⟨Nat.le_trans (by decide) letter.1, Nat.le_trans letter.2 (by decide)⟩
  have outside := Text.toNat_of_isBlank h
  omega

theorem separates_of_isBlank (h : Text.isBlank c = true) : separates c = true := by
  have ne (d : Char) (printed : 32 < d.toNat ∧ d.toNat < 128) : c ≠ d := by
    rintro rfl
    have outside := Text.toNat_of_isBlank h
    omega
  exact separates_iff.2 ⟨isAlphanumeric_of_isBlank h, ne _ (by decide), ne _ (by decide),
    ne _ (by decide)⟩

/-- A blank is a piece of its own, without a token. -/
theorem cut_of_wideBlank (h : Text.isBlank c = true) (cs : List Char) :
    ∃ form, cut c cs = (⟨form, [c]⟩, cs) ∧ (form = .blank ∨ form = .newline ∨ form = .stray) := by
  by_cases blank : isBlank c = true
  · exact ⟨.blank, cut_of_isBlank blank, .inl rfl⟩
  by_cases newline : c = '\n'
  · subst newline
    exact ⟨.newline, rfl, .inr (.inl rfl)⟩
  have other : (Text.isBlank c && !isBlank c && c != '\n') = true := by simp [h, blank, newline]
  obtain ⟨single, extensible, slash, -, -, quote⟩ :=
    ordinary_of_class (p := fun c => Text.isBlank c && !isBlank c && c != '\n')
      (by decide +kernel) other
  obtain ⟨no_letter, no_digit⟩ := Bool.or_eq_false_iff.1 (isAlphanumeric_of_isBlank h)
  refine ⟨.stray, ?_, .inr (.inr rfl)⟩
  simp [cut, single, extensible, slash, newline, blank, quote, no_letter, no_digit]

/-! ### Pieces left out -/

/-- The tokens of the second pieces are those of the first but for the lines, and if the first have
no fault, nor have the second. -/
structure Reduces (ps qs : List Piece) : Prop where
  tokens_eq : ps.filterMap (Piece.token? · 0) = qs.filterMap (Piece.token? · 0)
  no_fault : (∀ p ∈ ps, p.fault? 0 = none) → ∀ q ∈ qs, q.fault? 0 = none

namespace Reduces

variable {ps qs rs : List Piece}

theorem refl (ps : List Piece) : Reduces ps ps := ⟨rfl, id⟩

theorem trans (first : Reduces ps qs) (second : Reduces qs rs) : Reduces ps rs :=
  ⟨first.tokens_eq.trans second.tokens_eq, second.no_fault ∘ first.no_fault⟩

theorem cons (p : Piece) (others : Reduces ps qs) : Reduces (p :: ps) (p :: qs) where
  tokens_eq := by rw [List.filterMap_cons, List.filterMap_cons, others.tokens_eq]
  no_fault none := by
    obtain ⟨here, later⟩ := List.forall_mem_cons.1 none
    exact List.forall_mem_cons.2 ⟨here, others.no_fault later⟩

/-- A piece without a token is left out. -/
theorem drop {p : Piece} (silent : p.token? 0 = none) (others : Reduces ps qs) :
    Reduces (p :: ps) qs where
  tokens_eq := (List.filterMap_cons_none (f := (Piece.token? · 0)) silent).trans others.tokens_eq
  no_fault none := others.no_fault (List.forall_mem_cons.1 none).2

/-- A comment becomes another. -/
theorem comment (before after : List Char) (others : Reduces ps qs) :
    Reduces (⟨.comment, before⟩ :: ps) (⟨.comment, after⟩ :: qs) where
  tokens_eq := others.tokens_eq
  no_fault none :=
    List.forall_mem_cons.2 ⟨rfl, others.no_fault (List.forall_mem_cons.1 none).2⟩

end Reduces

/-! ### Blanks left out -/

/-- **Blanks in front** can be left out. -/
theorem reduces_blanks {blanks : List Char} (blank : ∀ c ∈ blanks, Text.isBlank c = true)
    (rest : List Char) : Reduces (pieces (blanks ++ rest)) (pieces rest) := by
  induction blanks with
  | nil => exact .refl _
  | cons c blanks ih =>
    obtain ⟨here, later⟩ := List.forall_mem_cons.1 blank
    obtain ⟨form, eq, kind⟩ := cut_of_wideBlank here (blanks ++ rest)
    rw [List.cons_append, pieces_cons, eq]
    refine .drop ?_ (ih later)
    rcases kind with rfl | rfl | rfl <;> rfl

theorem eq_of_comment (h : (cut c cs).1.form = .comment) :
    c = '/' ∧ ∃ body, cs = '/' :: body := by
  have whole := cut_append c cs
  rcases cut_cases c cs with lawful | ⟨-, stray⟩ | ⟨rfl, inside⟩
  · generalize (cut c cs).1 = p at h whole lawful
    cases lawful with
    | comment =>
      obtain ⟨slash, eq⟩ := List.cons_eq_cons.1 whole
      exact ⟨slash.symm, _, eq.symm⟩
    | _ => cases h
  · rw [stray] at h
    cases h
  · rw [cut_unclosed inside] at h
    cases h

theorem eq_of_unclosed (h : (cut c cs).1.form = .unclosed) : c = '"' ∧ '"' ∉ cs := by
  rcases cut_cases c cs with lawful | ⟨-, stray⟩ | unclosed
  · exact absurd h lawful.form_ne.2
  · rw [stray] at h
    cases h
  · exact unclosed

/-- The rest of a line is skipped. -/
theorem dropWhile_line {line : List Char} (inside : '\n' ∉ line) (rest : List Char) :
    (line ++ rest).dropWhile (· ≠ '\n') = rest.dropWhile (· ≠ '\n') :=
  List.dropWhile_append_of_pos fun _ mem => decide_eq_true fun eq => inside (eq ▸ mem)

/-- A line break after blanks comes first, or another one among the blanks does. -/
theorem reduces_dropWhile {blanks : List Char} (blank : ∀ c ∈ blanks, Text.isBlank c = true)
    (rest : List Char) :
    Reduces (pieces ((blanks ++ '\n' :: rest).dropWhile (· ≠ '\n')))
      (pieces (('\n' :: rest).dropWhile (· ≠ '\n'))) := by
  rw [dropWhile_append_cons (p := (· ≠ '\n')) (by decide)]
  exact reduces_blanks (fun c mem => blank c (List.dropWhile_sublist _ |>.subset mem)) _

/-- **Blanks before a line break** can be left out, if every quote before them is closed. -/
theorem reduces_append {blanks : List Char} (closed : ∀ p ∈ pieces cs, p.form ≠ .unclosed)
    (blank : ∀ c ∈ blanks, Text.isBlank c = true) (rest : List Char) :
    Reduces (pieces (cs ++ (blanks ++ '\n' :: rest))) (pieces (cs ++ '\n' :: rest)) := by
  fun_induction pieces cs with
  | case1 => exact reduces_blanks blank _
  | case2 c cs ih =>
    obtain ⟨closed_head, closed_tail⟩ := List.forall_mem_cons.1 closed
    have ih := ih closed_tail
    rw [List.cons_append, List.cons_append, pieces_cons, pieces_cons]
    by_cases comment : (cut c cs).1.form = .comment
    · obtain ⟨rfl, body, rfl⟩ := eq_of_comment comment
      rw [cut_comment] at ih
      rw [List.cons_append, List.cons_append, cut_comment, cut_comment]
      refine .comment _ _ ?_
      -- a comment that ends before the blanks is not touched; another one swallows some of them
      by_cases ends : '\n' ∈ body
      · obtain ⟨line, others, rfl, inside⟩ := List.eq_append_cons_of_mem ends
        simp only [dropWhile_line inside, List.append_assoc] at ih ⊢
        exact ih
      · simp only [dropWhile_line ends]
        exact reduces_dropWhile blank rest
    · obtain ⟨d, ds, eq, separates⟩ :
          ∃ d ds, blanks ++ '\n' :: rest = d :: ds ∧ separates d = true := by
        cases blanks with
        | nil => exact ⟨'\n', rest, rfl, by decide⟩
        | cons d ds => exact ⟨d, _, rfl, separates_of_isBlank (blank d List.mem_cons_self)⟩
      rw [eq] at ih ⊢
      rw [cut_append_separator separates closed_head (.inr comment),
        cut_append_separator (by decide) closed_head (.inr comment)]
      exact .cons _ ih

/-- A line break closes no quote. -/
theorem closed_of_append_newline (closed : ∀ p ∈ pieces (cs ++ ['\n']), p.form ≠ .unclosed) :
    ∀ p ∈ pieces cs, p.form ≠ .unclosed := by
  fun_induction pieces cs with
  | case1 => simp
  | case2 c cs ih =>
    rw [List.cons_append, pieces_cons] at closed
    by_cases unclosed : (cut c cs).1.form = .unclosed
    · obtain ⟨rfl, inside⟩ := eq_of_unclosed unclosed
      rw [cut_unclosed (by simpa using inside)] at closed
      exact absurd rfl (closed _ List.mem_cons_self)
    · rw [cut_append_separator (by decide) unclosed (.inl rfl)] at closed
      obtain ⟨-, later⟩ := List.forall_mem_cons.1 closed
      exact List.forall_mem_cons.2 ⟨unclosed, ih later⟩

end Lexer

end Lox
