import Lox.Proofs.Lexer.Lines
import Lox.Text.Split

/-!
# Where tokens stand in their source

The lexer counts the lines of tokens and faults while it goes through the pieces. Here the numbers
are compared with the lines that one gets by splitting the source at its newlines. All of them are
numbers of lines of the source (`line_of_mem_tokens`, `line_of_mem_faults`), and a token that spans
no newline stands in the line that has its number (`lexeme_of_mem_tokens`).
-/

namespace Lox

/-! ### Lines of a text -/

namespace Text

/-- Text without a newline begins the first line. -/
theorem exists_lines_append {text : List Char} (inside : '\n' ∉ text) (after : List Char) :
    ∃ right others, lines (text ++ after) = (text ++ right) :: others := by
  induction text with
  | nil => exact List.exists_cons_of_ne_nil (split_ne_nil _ after)
  | cons c text ih =>
    obtain ⟨here, later⟩ := not_or.1 (mt List.mem_cons.2 inside)
    obtain ⟨right, others, eq⟩ := ih later
    have other : (c == '\n') = false := beq_false_of_ne (Ne.symm here)
    exact ⟨right, others, split_cons_of_not (p := (· == '\n')) other eq⟩

/-- **Text without a newline stands in one line**: the one that has as many lines before it as the
text has newlines. -/
theorem getElem?_lines (before : List Char) {text : List Char} (inside : '\n' ∉ text)
    (after : List Char) :
    ∃ left right, (lines (before ++ (text ++ after)))[before.count '\n']? =
      some (left ++ text ++ right) := by
  induction before with
  | nil =>
    obtain ⟨right, others, eq⟩ := exists_lines_append inside after
    exact ⟨[], right, by rw [List.nil_append, eq]; rfl⟩
  | cons c before ih =>
    obtain ⟨left, right, found⟩ := ih
    by_cases newline : c = '\n'
    · subst newline
      refine ⟨left, right, ?_⟩
      rw [List.count_cons_self, List.cons_append, lines, split_cons_of_pos (by decide)]
      exact found
    · obtain ⟨part, parts, eq⟩ :=
        List.exists_cons_of_ne_nil (split_ne_nil (· == '\n') (before ++ (text ++ after)))
      have other : (c == '\n') = false := beq_false_of_ne newline
      rw [lines, eq] at found
      rw [List.count_cons_of_ne newline, List.cons_append, lines,
        split_cons_of_not (p := (· == '\n')) other eq]
      -- the character belongs to the first line, and only that line changes
      cases number : before.count '\n' with
      | zero =>
        rw [number] at found
        cases found
        exact ⟨c :: left, right, rfl⟩
      | succ n =>
        rw [number] at found
        exact ⟨left, right, found⟩

end Text

namespace Lexer

/-! ### Numbers of lines -/

theorem Piece.of_token? {p : Piece} {line : Int} {t : Token} (h : p.token? line = some t) :
    t.line = line ∧ t.lexeme = String.ofList p.text := by
  unfold token? at h
  split at h <;> cases h <;> exact ⟨rfl, rfl⟩

theorem Piece.line_of_fault? {p : Piece} {line : Int} {f : Fault} (h : p.fault? line = some f) :
    f.line = line := by
  unfold fault? at h
  split at h <;> cases h <;> rfl

theorem line_of_mem_tokensFrom {line : Int} {ps : List Piece} {t : Token}
    (mem : t ∈ tokensFrom line ps) : line ≤ t.line ∧ t.line ≤ line + newlinesOf ps := by
  rw [tokensFrom_eq_gather] at mem
  rcases List.mem_append.1 mem with given | last
  · obtain ⟨p, -, l, lower, upper, token⟩ := exists_of_mem_gather given
    rw [(Piece.of_token? token).1]
    exact ⟨lower, upper⟩
  · rw [List.mem_singleton.1 last]
    exact ⟨Int.le_add_of_nonneg_right (Int.natCast_nonneg _), Int.le_refl _⟩

theorem line_of_mem_faultsFrom {line : Int} {ps : List Piece} {f : Fault}
    (mem : f ∈ faultsFrom line ps) : line ≤ f.line ∧ f.line ≤ line + newlinesOf ps := by
  rw [faultsFrom_eq_gather] at mem
  obtain ⟨p, -, l, lower, upper, fault⟩ := exists_of_mem_gather mem
  rw [Piece.line_of_fault? fault]
  exact ⟨lower, upper⟩

section Source

variable {source : String}

/-- **The line of a token** is one of its source. -/
theorem line_of_mem_tokens {t : Token} (mem : t ∈ tokens source) :
    1 ≤ t.line ∧ t.line ≤ 1 + lineBreaks source := by
  rw [lineBreaks, ← newlinesOf_pieces]
  exact line_of_mem_tokensFrom mem

/-- **The line of a fault** is one of its source. -/
theorem line_of_mem_faults {f : Fault} (mem : f ∈ faults source) :
    1 ≤ f.line ∧ f.line ≤ 1 + lineBreaks source := by
  rw [lineBreaks, ← newlinesOf_pieces]
  exact line_of_mem_faultsFrom mem

/-! ### Lexemes -/

theorem text_ne_nil_of_mem_pieces {cs : List Char} {p : Piece} (mem : p ∈ pieces cs) :
    p.text ≠ [] := by
  fun_induction pieces cs with
  | case1 => cases mem
  | case2 c cs ih =>
    rcases List.mem_cons.1 mem with rfl | later
    · exact cut_text_ne_nil c cs
    · exact ih later

/-- Every token but the end is that of a piece, which ends on its line. -/
theorem exists_piece_of_mem {line : Int} {ps : List Piece} {t : Token}
    (mem : t ∈ tokensFrom line ps) (ne_eof : t.kind ≠ .eof) :
    ∃ before p after, ps = before ++ p :: after ∧
      p.token? (line + newlinesOf before + p.newlines) = some t := by
  induction ps generalizing line with
  | nil =>
    rw [List.mem_singleton.1 mem] at ne_eof
    exact absurd rfl ne_eof
  | cons p ps ih =>
    rcases List.mem_append.1 mem with here | later
    · refine ⟨[], p, ps, rfl, ?_⟩
      rw [newlinesOf, Int.natCast_zero, Int.add_zero]
      exact Option.mem_toList.1 here
    · obtain ⟨before, q, after, split, token⟩ := ih later
      refine ⟨p :: before, q, after, by rw [split]; rfl, ?_⟩
      rwa [line_add_newlinesOf]

/-- **The place of a token**: its lexeme is not empty, and without a newline in it it stands in the
line of the source that has the token's number. -/
theorem lexeme_of_mem_tokens {t : Token} (mem : t ∈ tokens source) (ne_eof : t.kind ≠ .eof) :
    t.lexeme ≠ "" ∧ ('\n' ∉ t.lexeme.toList →
      ∃ left right, (Text.lines source.toList)[t.line.toNat - 1]? =
        some (left ++ t.lexeme.toList ++ right)) := by
  obtain ⟨before, p, after, split, token⟩ := exists_piece_of_mem mem ne_eof
  obtain ⟨at_line, lexeme⟩ := Piece.of_token? token
  have mem_pieces : p ∈ pieces source.toList := by simp [split]
  rw [lexeme, String.toList_ofList]
  refine ⟨fun empty => text_ne_nil_of_mem_pieces mem_pieces ?_, fun inside => ?_⟩
  · simpa using congrArg String.toList empty
  · have whole : source.toList =
        before.flatMap Piece.text ++ (p.text ++ after.flatMap Piece.text) := by
      rw [← flatten_pieces source.toList, split, List.flatMap_append, List.flatMap_cons]
    have number : t.line.toNat - 1 = (before.flatMap Piece.text).count '\n' := by
      rw [at_line, ← newlinesOf_eq_count, Piece.newlines, List.count_eq_zero.2 inside]
      omega
    rw [whole, number]
    exact Text.getElem?_lines _ inside _

end Source

end Lexer

end Lox
