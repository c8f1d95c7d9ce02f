import Lox.Proofs.Lexer.Marks

/-!
# The front of a source

A source can be cut at any character, also inside a string, a comment, a number or a mark of two
characters. The pieces before the cut are still cut off in the same way (`pieces_append_front`): a
longer piece that the shorter text had would begin the whole text, too. What is left of the piece at
the cut may have pieces of another form, but if all pieces are lawful never one of a brace
(`Piece.Lawful.braces_of_short`). So the front has as many open braces as the first few of all the
pieces (`exists_pieces_of_front`).
-/

namespace Lox.Lexer

variable {cs front : List Char} {ps qs : List Piece}

/-! ### Pieces before the cut -/

/-- The pieces from some place on are those of the text from there on. -/
theorem pieces_of_append (h : pieces cs = ps ++ qs) : pieces (qs.flatMap Piece.text) = qs := by
  induction ps generalizing cs with
  | nil =>
    have all : pieces cs = qs := h
    rw [← all, flatten_pieces]
  | cons p ps ih =>
    cases cs with
    | nil => simp at h
    | cons c cs =>
      rw [pieces_cons, List.cons_append] at h
      exact ih (List.cons.inj h).2

/-- What is first stays first in a shorter text, unless it takes all that is left. -/
theorem First.of_front {rest : List Char} {p : Piece} (first : First cs p rest)
    (closed : p.form ≠ .unclosed) (within : front <+: rest) : First (p.text ++ front) p front := by
  have begins : p.text ++ front <+: p.text ++ rest := (List.prefix_append_right_inj _).2 within
  -- a longer piece that the shorter text had would begin the whole, too
  cases first with
  | longest lawful maximal =>
    exact .longest lawful fun q lawful_q start => maximal q lawful_q (start.trans begins)
  | stray not_quote unruled =>
    exact .stray not_quote fun q lawful_q start => unruled q lawful_q (start.trans begins)
  | unclosed => exact absurd rfl closed

/-- **The pieces before a cut** do not depend on what stands behind it. -/
theorem pieces_append_front (closed : ∀ p ∈ ps, p.form ≠ .unclosed) (h : pieces cs = ps ++ qs)
    (within : front <+: qs.flatMap Piece.text) :
    pieces (ps.flatMap Piece.text ++ front) = ps ++ pieces front := by
  induction ps generalizing cs with
  | nil => rfl
  | cons p ps ih =>
    cases cs with
    | nil => simp at h
    | cons c cs =>
      obtain ⟨closed_p, closed_ps⟩ := List.forall_mem_cons.1 closed
      rw [pieces_cons, List.cons_append] at h
      obtain ⟨rfl, others⟩ := List.cons.inj h
      have behind : ps.flatMap Piece.text ++ front <+: (cut c cs).2 := by
        rw [← flatten_pieces (cut c cs).2, others, List.flatMap_append]
        exact (List.prefix_append_right_inj _).2 within
      have first := (first_cut c cs).of_front closed_p behind
      have decomposition := Decomposes.cons first (decomposes_pieces _)
      rw [List.flatMap_cons, List.append_assoc, ← decomposes_iff.1 decomposition,
        ih closed_ps others, List.cons_append]

theorem kindsOf_append_front (lawful : ∀ p ∈ ps, p.Lawful) (h : pieces cs = ps ++ qs)
    (within : front <+: qs.flatMap Piece.text) :
    kindsOf (ps.flatMap Piece.text ++ front) = ps.filterMap Piece.kind? ++ kindsOf front := by
  rw [kindsOf, pieces_append_front (fun p mem => (lawful p mem).form_ne.2) h within,
    List.filterMap_append, kindsOf]

/-! ### The piece at the cut -/

theorem braces_kindsOf_nil : Kind.braces (kindsOf []) = 0 := by
  rw [kindsOf, pieces_nil]
  rfl

/-- No brace is counted in characters of a class without braces. -/
theorem braces_kindsOf_of_class {p : Char → Bool} (avoids : (p '\x7b' || p '\x7d') = false)
    (all : ∀ c ∈ front, p c = true) : Kind.braces (kindsOf front) = 0 := by
  obtain ⟨no_left, no_right⟩ := Bool.or_eq_false_iff.1 avoids
  refine braces_kindsOf_eq_zero (fun mem => ?_) fun mem => ?_
  · exact Bool.false_ne_true (no_left.symm.trans (all _ mem))
  · exact Bool.false_ne_true (no_right.symm.trans (all _ mem))

/-- **A piece that is cut short** has no brace in what is left of it. -/
theorem Piece.Lawful.braces_of_short {p : Piece} (lawful : p.Lawful) (within : front <+: p.text)
    (short : front ≠ p.text) : Kind.braces (kindsOf front) = 0 := by
  by_cases empty : front = []
  · rw [empty]
    exact braces_kindsOf_nil
  have single (c : Char) (within : front <+: [c]) : front = [c] :=
    (List.prefix_concat_iff.1 within).resolve_right fun nil => empty (List.prefix_nil.1 nil)
  cases lawful with
  | mark known =>
    rcases mark_cases known with ⟨c, rfl, -⟩ | ⟨c, -, rfl, -⟩ | ⟨c, plain, rfl, extensible⟩ |
      ⟨rfl, -⟩
    · exact absurd (single c within) short
    · exact absurd (single c within) short
    · -- half of a mark of two characters is a mark, but no brace
      have within : front <+: [c] := (List.prefix_concat_iff.1 within).resolve_left short
      rw [single c within]
      refine braces_kindsOf_eq_zero ?_ ?_ <;>
      · rw [List.mem_singleton]
        rintro rfl
        cases extensible
    · exact absurd (single '/' within) short
  | integer _ digits =>
    exact braces_kindsOf_of_class (p := isDigit) rfl fun c mem => digits c (within.subset mem)
  | @decimal ds es _ digits _ fraction_digits =>
    refine braces_kindsOf_of_class (p := fun c => isDigit c || c == '.') rfl fun c mem => ?_
    rcases List.mem_append.1 (within.subset mem) with whole | part
    · exact Bool.or_eq_true_iff.2 (.inl (digits c whole))
    · rcases List.mem_cons.1 part with rfl | fraction
      · rfl
      · exact Bool.or_eq_true_iff.2 (.inl (fraction_digits c fraction))
  | @string body inside =>
    -- without its last quote the string is never closed
    have within : front <+: '"' :: body := (List.prefix_concat_iff.1 within).resolve_left short
    rcases List.prefix_cons_iff.1 within with nil | ⟨rest, rfl, behind⟩
    · exact absurd nil empty
    · rw [kindsOf, pieces_cons, cut_unclosed fun mem => inside (behind.subset mem), pieces_nil]
      rfl
  | @word c cs first others =>
    refine braces_kindsOf_of_class (p := isAlphanumeric) rfl fun d mem => ?_
    rcases List.mem_cons.1 (within.subset mem) with rfl | later
    · exact Bool.or_eq_true_iff.2 (.inl first)
    · exact others d later
  | @comment body inside =>
    rcases List.prefix_cons_iff.1 within with nil | ⟨rest, rfl, behind⟩
    · exact absurd nil empty
    rcases List.prefix_cons_iff.1 behind with rfl | ⟨others, rfl, among⟩
    · exact braces_kindsOf_eq_zero (by decide) (by decide)
    · have shorter : Piece.Lawful ⟨.comment, '/' :: '/' :: others⟩ :=
        .comment fun mem => inside (among.subset mem)
      rw [kindsOf, pieces_cons, shorter.cut_eq rfl, pieces_nil]
      rfl
  | @blank c _ => exact absurd (single c within) short
  | newline => exact absurd (single '\n' within) short

/-! ### Braces up to the cut -/

/-- **The braces up to a cut** are those of the first few pieces of the whole. -/
theorem exists_pieces_of_front (lawful : ∀ p ∈ pieces cs, p.Lawful) (within : front <+: cs) :
    ∃ ps, ps <+: pieces cs ∧
      Kind.braces (kindsOf front) = Kind.braces (ps.filterMap Piece.kind?) := by
  fun_induction pieces cs generalizing front with
  | case1 =>
    rw [List.prefix_nil.1 within]
    exact ⟨[], List.nil_prefix, braces_kindsOf_nil⟩
  | case2 c cs ih =>
    obtain ⟨here, later⟩ := List.forall_mem_cons.1 lawful
    have begins : (cut c cs).1.text <+: c :: cs := ⟨_, cut_append c cs⟩
    -- the cut is behind the first piece or in it
    by_cases whole : (cut c cs).1.text <+: front
    · obtain ⟨rest, rfl⟩ := whole
      rw [← cut_append c cs] at within
      have behind : rest <+: (cut c cs).2 := (List.prefix_append_right_inj _).1 within
      obtain ⟨ps, among, same⟩ := ih later behind
      have split : pieces (c :: cs) = [(cut c cs).1] ++ pieces (cut c cs).2 := pieces_cons c cs
      have within_rest : rest <+: (pieces (cut c cs).2).flatMap Piece.text := by
        rw [flatten_pieces]
        exact behind
      have kinds := kindsOf_append_front (List.forall_mem_singleton.2 here) split within_rest
      rw [List.flatMap_singleton] at kinds
      refine ⟨(cut c cs).1 :: ps, List.cons_prefix_cons.2 ⟨rfl, among⟩, ?_⟩
      rw [kinds, Kind.braces_append, same, ← Kind.braces_append, ← List.filterMap_append]
      rfl
    · have short : front <+: (cut c cs).1.text :=
        (List.prefix_or_prefix_of_prefix within begins).resolve_right whole
      refine ⟨[], List.nil_prefix, here.braces_of_short short ?_⟩
      rintro rfl
      exact whole (List.prefix_refl _)

/-- The same for a cut within the first pieces. -/
theorem exists_pieces_of_within (lawful : ∀ p ∈ ps, p.Lawful) (h : pieces cs = ps ++ qs)
    (within : front <+: ps.flatMap Piece.text) :
    ∃ rs, rs <+: ps ∧ Kind.braces (kindsOf front) = Kind.braces (rs.filterMap Piece.kind?) := by
  have alone := pieces_append_front (fun p mem => (lawful p mem).form_ne.2) h List.nil_prefix
  rw [List.append_nil, pieces_nil, List.append_nil] at alone
  have found := exists_pieces_of_front (by rwa [alone]) within
  rwa [alone] at found

/-- Pieces without tokens have no braces. -/
theorem braces_of_silent (lawful : ∀ p ∈ ps, p.Lawful) (silent : ∀ p ∈ ps, p.kind? = none)
    (h : pieces cs = ps ++ qs) (within : front <+: ps.flatMap Piece.text) :
    Kind.braces (kindsOf front) = 0 := by
  obtain ⟨rs, among, same⟩ := exists_pieces_of_within lawful h within
  have none := List.filterMap_eq_nil_iff.2 fun p mem => silent p (among.subset mem)
  rw [same, none]
  rfl

/-! ### Sources in braces -/

/-- A beginning of a text stops before a character of it or goes on over it. -/
theorem prefix_append_cons {before after : List Char} {c : Char}
    (within : front <+: before ++ c :: after) :
    front <+: before ∨ ∃ rest, front = before ++ c :: rest ∧ rest <+: after := by
  rcases List.prefix_or_prefix_of_prefix within (List.prefix_append before (c :: after)) with
    short | ⟨rest, rfl⟩
  · exact .inl short
  · rcases List.prefix_cons_iff.1 ((List.prefix_append_right_inj before).1 within) with
      rfl | ⟨others, rfl, behind⟩
    · rw [List.append_nil]
      exact .inl (List.prefix_refl before)
    · exact .inr ⟨others, rfl, behind⟩

/-- A source in braces: a brace that opens is its first token, and one that closes is its last. -/
structure Enclosed (source : String) where
  before : List Piece
  inside : List Piece
  after : List Piece
  split : pieces source.toList = before ++ .leftBrace :: (inside ++ .rightBrace :: after)
  silent_before : ∀ p ∈ before, p.kind? = none
  silent_after : ∀ p ∈ after, p.kind? = none

namespace Enclosed

variable {source : String}

/-- The place of the brace that opens. -/
def opening (b : Enclosed source) : Nat := (b.before.flatMap Piece.text).length

/-- The place of the brace that closes. -/
def closing (b : Enclosed source) : Nat := b.opening + 1 + (b.inside.flatMap Piece.text).length

/-- A source whose tokens are in braces. -/
theorem exists_of_kinds {ks : List Kind}
    (h : kindsOf source.toList = .leftBrace :: (ks ++ [.rightBrace])) :
    ∃ b : Enclosed source, b.inside.filterMap Piece.kind? = ks := by
  obtain ⟨before, left, behind, split, silent_before, opens, others⟩ :=
    List.filterMap_eq_cons_iff.1 h
  obtain ⟨inside, last, rfl, kinds, closes⟩ := List.filterMap_eq_append_iff.1 others
  obtain ⟨between, right, after, rfl, silent_between, right_kind, none⟩ :=
    List.filterMap_eq_cons_iff.1 closes
  have left_mem : left ∈ pieces source.toList := by simp [split]
  have right_mem : right ∈ pieces source.toList := by simp [split]
  obtain rfl := (piece_of_brace left_mem).1 opens
  obtain rfl := (piece_of_brace right_mem).2 right_kind
  refine ⟨⟨before, inside ++ between, after, ?_, silent_before, ?_⟩, ?_⟩
  · rw [split, List.append_assoc]
  · exact List.filterMap_eq_nil_iff.1 none
  · rw [List.filterMap_append, kinds, List.filterMap_eq_nil_iff.2 silent_between, List.append_nil]

theorem toList_eq (b : Enclosed source) : source.toList =
    b.before.flatMap Piece.text ++
      '\x7b' :: (b.inside.flatMap Piece.text ++ '\x7d' :: b.after.flatMap Piece.text) := by
  rw [← flatten_pieces source.toList, b.split, List.flatMap_append, List.flatMap_cons,
    List.flatMap_append, List.flatMap_cons]
  rfl

/-- The brace that closes is in the source. -/
theorem closing_lt (b : Enclosed source) : b.closing < source.length := by
  have whole := congrArg List.length b.toList_eq
  rw [String.length_toList, List.length_append, List.length_cons, List.length_append,
    List.length_cons] at whole
  unfold closing opening
  omega

section Cut

variable {front : List Char} (b : Enclosed source)
  (lawful : ∀ p ∈ pieces source.toList, p.Lawful)

include lawful

/-- **Between the braces** one is open, wherever the source is cut. -/
theorem braces_of_inside (balanced : Kind.Balanced (b.inside.filterMap Piece.kind?))
    (within : front <+: b.inside.flatMap Piece.text) :
    0 < Kind.braces (kindsOf (b.before.flatMap Piece.text ++ '\x7b' :: front)) := by
  have split : pieces source.toList =
      (b.before ++ [.leftBrace]) ++ (b.inside ++ .rightBrace :: b.after) := by
    rw [b.split, List.append_cons]
  rw [split] at lawful
  obtain ⟨lawful_front, lawful_rest⟩ := List.forall_mem_append.1 lawful
  have start : front <+: (b.inside ++ .rightBrace :: b.after).flatMap Piece.text := by
    rw [List.flatMap_append]
    exact within.trans (List.prefix_append _ _)
  have kinds := kindsOf_append_front lawful_front split start
  rw [List.flatMap_append, List.append_assoc, List.filterMap_append,
    List.filterMap_eq_nil_iff.2 b.silent_before] at kinds
  obtain ⟨rs, among, same⟩ := exists_pieces_of_within
    (List.forall_mem_append.1 lawful_rest).1 (pieces_of_append split) within
  have positive := balanced.pos_of_front (among.filterMap Piece.kind?)
  rw [Kind.braces, ← same] at positive
  exact positive.trans_eq (congrArg Kind.braces kinds).symm

/-- **Behind the braces** none is open. -/
theorem braces_of_after (balanced : Kind.Balanced (b.inside.filterMap Piece.kind?))
    (within : front <+: b.after.flatMap Piece.text) :
    Kind.braces (kindsOf (b.before.flatMap Piece.text ++
      '\x7b' :: (b.inside.flatMap Piece.text ++ '\x7d' :: front))) = 0 := by
  have split : pieces source.toList =
      (b.before ++ .leftBrace :: (b.inside ++ [.rightBrace])) ++ b.after := by
    rw [b.split, List.append_assoc, List.cons_append, List.append_assoc, List.singleton_append]
  rw [split] at lawful
  obtain ⟨lawful_front, lawful_rest⟩ := List.forall_mem_append.1 lawful
  have kinds := kindsOf_append_front lawful_front split within
  simp only [List.flatMap_append, List.flatMap_cons, List.flatMap_nil, List.append_assoc] at kinds
  have alone : pieces (b.after.flatMap Piece.text) = b.after ++ [] := by
    rw [pieces_of_append split, List.append_nil]
  have none := braces_of_silent lawful_rest b.silent_after alone within
  have whole :
        (b.before ++ Piece.leftBrace :: (b.inside ++ [.rightBrace])).filterMap Piece.kind? =
          .leftBrace :: (b.inside.filterMap Piece.kind? ++ [.rightBrace]) := by
    rw [List.filterMap_append, List.filterMap_eq_nil_iff.2 b.silent_before,
      List.filterMap_cons_some (by rfl), List.filterMap_append]
    rfl
  rw [whole] at kinds
  refine (congrArg Kind.braces kinds).trans ?_
  rw [Kind.braces_append, none, balanced.enclosed.total]
  rfl

/-- **Within the braces and only there** one is open. -/
theorem braces_pos_iff (balanced : Kind.Balanced (b.inside.filterMap Piece.kind?))
    (within : front <+: source.toList) :
    0 < Kind.braces (kindsOf front) ↔ b.opening < front.length ∧ front.length ≤ b.closing := by
  rw [b.toList_eq] at within
  unfold closing opening
  rcases prefix_append_cons within with short | ⟨rest, rfl, behind⟩
  · rw [b.split] at lawful
    have none := braces_of_silent (fun p mem => lawful p (List.mem_append_left _ mem))
      b.silent_before b.split short
    have shorter := short.length_le
    omega
  rcases prefix_append_cons behind with short | ⟨others, rfl, beyond⟩
  · have positive := b.braces_of_inside lawful balanced short
    have shorter := short.length_le
    rw [List.length_append, List.length_cons]
    omega
  · have none := b.braces_of_after lawful balanced beyond
    rw [List.length_append, List.length_cons, List.length_append, List.length_cons]
    omega

end Cut

end Enclosed

end Lox.Lexer
