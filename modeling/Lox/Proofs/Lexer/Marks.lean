import Lox.Proofs.Grammar.Braces
import Lox.Proofs.Lexer.Place
import Lox.Proofs.Lexer.Scan

/-!
# Marks among the tokens

A token with the kind of a mark comes from a piece that is this mark: the kinds of words, numbers
and strings are others. So every mark among the tokens stands in the source (`mem_of_mark`), and the
braces that a source opens can be counted on its pieces (`openBraces_eq`).
-/

namespace Lox.Lexer

/-- The kinds of marks. -/
def markKinds : List Kind := marks.map Prod.snd

/-- A word never has the kind of a mark. -/
theorem word_not_mem_markKinds (word : String) :
    (keywords.lookup word).getD .identifier ∉ markKinds := by
  cases found : keywords.lookup word with
  | none => decide
  | some kind =>
    have others : ∀ entry ∈ keywords, entry.2 ∉ markKinds := by decide
    exact others _ (lookup_keywords_iff.1 found)

theorem Piece.form_of_token? {p : Piece} {line : Int} {t : Token} (h : p.token? line = some t)
    (mark : t.kind ∈ markKinds) : p.form = .mark t.kind := by
  unfold token? at h
  split at h <;> cases h
  case h_1 form => exact form
  case h_2 => exact absurd (show Kind.number ∈ markKinds from mark) (by decide)
  case h_3 => exact absurd (show Kind.string ∈ markKinds from mark) (by decide)
  case h_4 => exact absurd mark (word_not_mem_markKinds _)

/-- The text of a mark is one of those of its kind. -/
theorem mem_marks_of_mem_pieces {cs : List Char} {p : Piece} {kind : Kind} (mem : p ∈ pieces cs)
    (form : p.form = .mark kind) : (p.text, kind) ∈ marks := by
  rcases mem_pieces_cases mem with lawful | ⟨c, rfl, -⟩ | ⟨body, rfl, -⟩
  · cases lawful with
    | mark known =>
      cases form
      exact known
    | _ => cases form
  · cases form
  · cases form

/-- **A mark among the tokens** stands in the source. -/
theorem mem_of_mark {source : String} {t : Token} (mem : t ∈ tokens source)
    (mark : t.kind ∈ markKinds) : ∃ text, (text, t.kind) ∈ marks ∧ text <:+: source.toList := by
  have ne_eof : t.kind ≠ .eof := fun eof => absurd (eof ▸ mark) (by decide)
  obtain ⟨before, p, after, split, token⟩ := exists_piece_of_mem mem ne_eof
  have among : p ∈ pieces source.toList := by simp [split]
  refine ⟨p.text, mem_marks_of_mem_pieces among (Piece.form_of_token? token mark), ?_⟩
  refine ⟨before.flatMap Piece.text, after.flatMap Piece.text, ?_⟩
  rw [← flatten_pieces source.toList, split, List.flatMap_append, List.flatMap_cons,
    List.append_assoc]

/-! ### The kinds of pieces -/

/-- The kind of the token of a piece. -/
def Piece.kind? (p : Piece) : Option Kind := (p.token? 0).map Token.kind

/-- The kind does not depend on the line. -/
theorem Piece.map_kind_token? (p : Piece) (line : Int) :
    (p.token? line).map Token.kind = p.kind? := by
  obtain ⟨form, text⟩ := p
  cases form <;> rfl

theorem map_kind_tokensFrom (line : Int) (ps : List Piece) :
    (tokensFrom line ps).map Token.kind = ps.filterMap Piece.kind? ++ [.eof] := by
  rw [tokensFrom_eq_gather, List.map_append, map_gather Piece.map_kind_token?]
  rfl

/-- The kinds of the tokens of a source, but for the end. -/
def kindsOf (source : List Char) : List Kind := (pieces source).filterMap Piece.kind?

theorem map_kind_dropLast_tokens (source : String) :
    (tokens source).dropLast.map Token.kind = kindsOf source.toList := by
  rw [List.map_dropLast, tokens, map_kind_tokensFrom, List.dropLast_concat, kindsOf]

/-- **The open braces of a source** are those of the kinds of its pieces. -/
theorem openBraces_eq (source : String) :
    openBraces source = Kind.braces (kindsOf source.toList) := by
  rw [openBraces, braceBalance_eq, tokens, map_kind_tokensFrom, Kind.braces_append]
  exact Int.add_zero _

/-- A piece with the kind of a mark is this mark. -/
theorem Piece.form_of_kind? {p : Piece} {kind : Kind} (h : p.kind? = some kind)
    (mark : kind ∈ markKinds) : p.form = .mark kind := by
  obtain ⟨t, token, rfl⟩ := Option.map_eq_some_iff.1 h
  exact form_of_token? token mark

/-- The piece of a brace that opens. -/
def Piece.leftBrace : Piece := ⟨.mark .leftBrace, ['\x7b']⟩

/-- The piece of a brace that closes. -/
def Piece.rightBrace : Piece := ⟨.mark .rightBrace, ['\x7d']⟩

/-- The only pieces with the kinds of braces. -/
theorem piece_of_brace {cs : List Char} {p : Piece} (mem : p ∈ pieces cs) :
    (p.kind? = some .leftBrace → p = .leftBrace) ∧
      (p.kind? = some .rightBrace → p = .rightBrace) := by
  constructor
  · intro kind
    have form := Piece.form_of_kind? kind (by decide)
    have known := mem_marks_of_mem_pieces mem form
    obtain ⟨_, text⟩ := p
    cases form
    simpa [marks, Piece.leftBrace] using known
  · intro kind
    have form := Piece.form_of_kind? kind (by decide)
    have known := mem_marks_of_mem_pieces mem form
    obtain ⟨_, text⟩ := p
    cases form
    simpa [marks, Piece.rightBrace] using known

/-- Where no brace stands, none is counted. -/
theorem braces_kindsOf_eq_zero {cs : List Char} (no_left : '\x7b' ∉ cs) (no_right : '\x7d' ∉ cs) :
    Kind.braces (kindsOf cs) = 0 := by
  refine (Kind.Balanced.of_no_braces fun kind mem => ?_).total
  obtain ⟨p, among, found⟩ := List.mem_filterMap.1 mem
  have stands : ∀ c ∈ p.text, c ∈ cs := by
    intro c inside
    rw [← flatten_pieces cs]
    exact List.mem_flatMap.2 ⟨p, among, inside⟩
  obtain ⟨left, right⟩ := piece_of_brace among
  cases kind with
  | leftBrace => exact absurd (stands _ (by rw [left found]; exact List.mem_cons_self)) no_left
  | rightBrace => exact absurd (stands _ (by rw [right found]; exact List.mem_cons_self)) no_right
  | _ => rfl

end Lox.Lexer
