import Lox.Proofs.Lexer.Site

/-!
# Columns

A site has its place in a line: the column in which its piece begins is the length of what stands
before it in that line. A piece that holds no newline occupies the columns from there on
(`Site.line_eq`). The tokens of a source and the sites of its tokens are numbered alike
(`exists_site_of_token`).
-/

namespace Lox

/-! ### Lines of texts put together -/

namespace Text

/-- The last line of a text and the first line of the next become one line. -/
theorem lines_append (before after : List Char) :
    ∃ front last first back, lines before = front ++ [last] ∧ lines after = first :: back ∧
      lines (before ++ after) = front ++ (last ++ first) :: back := by
  induction before with
  | nil =>
    obtain ⟨first, back, eq⟩ := List.exists_cons_of_ne_nil (split_ne_nil (· == '\n') after)
    exact ⟨[], [], first, back, rfl, eq, eq⟩
  | cons c before ih =>
    obtain ⟨front, last, first, back, ends, begins, joined⟩ := ih
    by_cases newline : c = '\n'
    · subst newline
      refine ⟨[] :: front, last, first, back, ?_, begins, ?_⟩
      · rw [lines, split_cons_of_pos (by decide), ← lines, ends, List.cons_append]
      · rw [List.cons_append, lines, split_cons_of_pos (by decide), ← lines, joined,
          List.cons_append]
    · have other : (c == '\n') = false := beq_false_of_ne newline
      -- the character belongs to the first line, which may be the last one too
      cases front with
      | nil =>
        exact ⟨[], c :: last, first, back, split_cons_of_not (p := (· == '\n')) other ends, begins,
          split_cons_of_not (p := (· == '\n')) other joined⟩
      | cons line front =>
        exact ⟨(c :: line) :: front, last, first, back,
          split_cons_of_not (p := (· == '\n')) other ends, begins,
          split_cons_of_not (p := (· == '\n')) other joined⟩

/-- Text without a newline is one line. -/
theorem lines_eq_singleton {text : List Char} (inside : '\n' ∉ text) : lines text = [text] := by
  induction text with
  | nil => rfl
  | cons c text ih =>
    obtain ⟨here, later⟩ := not_or.1 (mt List.mem_cons.2 inside)
    exact split_cons_of_not (p := (· == '\n')) (beq_false_of_ne (Ne.symm here)) (ih later)

theorem not_mem_of_mem_lines {cs line : List Char} (mem : line ∈ lines cs) : '\n' ∉ line :=
  fun newline => absurd (eq_false_of_mem_split mem _ newline) (by decide)

end Text

namespace Lexer

namespace Site

variable {source : List Char} (s : Site source)

/-- The line of the source in which the piece begins. -/
def line : List Char := (Text.lines source).getD (s.start.count '\n') []

/-- The column in which the piece begins. The first column has number 0. -/
def column : Nat := ((Text.lines s.start).getLastD []).length

/-- The columns that a piece within one line occupies. -/
def columns : List Nat := List.range' s.column s.piece.text.length

/-- **The place of a piece**: in its line it stands behind as many characters as its column says. -/
theorem line_eq (inside : '\n' ∉ s.piece.text) :
    ∃ left right, s.line = left ++ s.piece.text ++ right ∧ left.length = s.column := by
  obtain ⟨right, others, behind⟩ :=
    Text.exists_lines_append inside (s.after.flatMap Piece.text)
  obtain ⟨front, last, first, back, ends, begins, joined⟩ :=
    Text.lines_append s.start (s.piece.text ++ s.after.flatMap Piece.text)
  obtain ⟨rfl, rfl⟩ := List.cons.inj (begins.symm.trans behind)
  have number : front.length = s.start.count '\n' := by
    have lines := Text.length_split (· == '\n') s.start
    rw [← Text.lines, ends, List.length_append, List.length_singleton] at lines
    exact Nat.succ.inj lines
  have whole : Text.lines source = front ++ (last ++ (s.piece.text ++ right)) :: back := by
    rw [← joined, ← List.append_assoc]
    exact congrArg Text.lines s.source_eq
  refine ⟨last, right, ?_, ?_⟩
  · rw [line, whole, ← number, List.append_assoc]
    simp
  · rw [column, ends]
    simp

end Site

/-- The sites of the tokens of a source, from left to right. -/
def tokenSites (source : String) : List (Site source.toList) :=
  (sites source.toList).filter (·.piece.form.isToken)

/-- **Tokens are numbered as their sites are.** -/
theorem exists_site_of_token {source : String} {i : Nat} {t : Token}
    (at_i : (tokens source)[i]? = some t) (ne_eof : t.kind ≠ .eof) :
    ∃ s, (tokenSites source)[i]? = some s ∧ s.Holds t := by
  have standing : List.Forall₂ Site.Holds (tokenSites source)
      (gather Piece.token? 1 (pieces source.toList)) := by
    have counted : gather Piece.token? 1 (pieces source.toList) = (sites source.toList).filterMap
        fun s => s.piece.token? (1 + s.stop.count '\n') :=
      gather_eq_filterMap Piece.token? (List.nil_append _).symm
    rw [counted]
    apply forall₂_filterMap
    · intro s _
      exact Piece.token?_eq_none_iff
    · intro s _ u token
      obtain ⟨line, lexeme⟩ := Piece.of_token? token
      exact ⟨lexeme, line⟩
  rw [tokens, tokensFrom_eq_gather, List.getElem?_append] at at_i
  split at at_i
  next =>
    obtain ⟨lt, rfl⟩ := List.getElem?_eq_some_iff.1 at_i
    have lt' : i < (tokenSites source).length := standing.length_eq ▸ lt
    exact ⟨_, List.getElem?_eq_getElem lt', standing.get lt' lt⟩
  next =>
    have last := List.mem_singleton.1 (List.mem_of_getElem? at_i)
    rw [last] at ne_eof
    exact absurd rfl ne_eof

end Lexer

end Lox
