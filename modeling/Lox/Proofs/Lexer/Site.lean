import Mathlib.Data.List.Forall2
import Lox.Proofs.Lexer.Front
import Lox.Proofs.Lexer.Spaces

/-!
# The sites of pieces

A site is a piece at its place in a source, with the pieces before it and behind it. So the text
before a piece is at hand, and with it the number of newlines up to any place. The lexer counts
lines otherwise, as it goes from piece to piece. That both agree is `lines_of_scan`: a token has one
line more than there are newlines before the end of its lexeme, a stray character one more than
there are before it, and a quote that is never closed has the last line, as the end token has.
-/

namespace Lox.Lexer

/-- A piece of a source at its place. -/
structure Site (source : List Char) where
  before : List Piece
  piece : Piece
  after : List Piece
  split : pieces source = before ++ piece :: after

/-- The sites of the pieces from some place on, from left to right. -/
def sitesFrom {source : List Char} (before : List Piece) :
    (rest : List Piece) → pieces source = before ++ rest → List (Site source)
  | [], _ => []
  | p :: ps, split =>
    ⟨before, p, ps, split⟩ :: sitesFrom (before ++ [p]) ps (by rw [split, List.append_cons])

/-- The sites of a source from left to right. -/
def sites (source : List Char) : List (Site source) := sitesFrom [] (pieces source) rfl

namespace Site

variable {source : List Char} (s : Site source)

/-- The text before the piece. -/
def start : List Char := s.before.flatMap Piece.text

/-- The text up to the end of the piece. -/
def stop : List Char := s.start ++ s.piece.text

theorem mem_pieces : s.piece ∈ pieces source := by simp [s.split]

/-- The source goes on where the piece stops. -/
theorem source_eq : source = s.stop ++ s.after.flatMap Piece.text := by
  rw [stop, start, List.append_assoc, ← List.flatMap_cons, ← List.flatMap_append, ← s.split,
    flatten_pieces]

/-- The token of the site stands there: it has the line on which its lexeme ends. -/
structure Holds (t : Token) : Prop where
  lexeme : t.lexeme = String.ofList s.piece.text
  line : t.line = 1 + s.stop.count '\n'

/-- The problem of the site is located there. -/
inductive Blames : Diagnostic → Prop
  | unexpected {c : Char} (stray : s.piece = ⟨.stray, [c]⟩) :
    Blames ⟨.lexical, "Unexpected character '" ++ String.singleton c ++ "'.",
      some (1 + s.start.count '\n'), "", none⟩
  | unterminated (unclosed : s.piece.form = .unclosed) :
    Blames ⟨.lexical, "Unterminated string.", some (1 + source.count '\n'), "", none⟩

/-- A quote that is never closed takes all that is left. -/
theorem after_eq_nil (unclosed : s.piece.form = .unclosed) : s.after = [] := by
  have behind := pieces_of_append s.split
  obtain ⟨c, cs, text⟩ := List.exists_cons_of_ne_nil (text_ne_nil_of_mem_pieces s.mem_pieces)
  rw [List.flatMap_cons, text, List.cons_append, pieces_cons] at behind
  obtain ⟨first, others⟩ := List.cons.inj behind
  obtain ⟨rfl, inside⟩ := eq_of_unclosed (first ▸ unclosed)
  rw [cut_unclosed inside, pieces_nil] at others
  exact others.symm

theorem stop_eq (unclosed : s.piece.form = .unclosed) : s.stop = source := by
  have whole := s.source_eq
  rw [s.after_eq_nil unclosed, List.flatMap_nil, List.append_nil] at whole
  exact whole.symm

/-- Before a piece every quote is closed. -/
theorem closed_before : ∀ p ∈ s.before, p.form ≠ .unclosed := by
  intro p mem unclosed
  obtain ⟨front, between, split⟩ := List.append_of_mem mem
  have there : pieces source = front ++ p :: (between ++ s.piece :: s.after) := by
    rw [s.split, split, List.append_assoc, List.cons_append]
  exact List.append_ne_nil_of_right_ne_nil between (List.cons_ne_nil s.piece s.after)
    (after_eq_nil ⟨front, p, _, there⟩ unclosed)

/-- The text before a piece alone is cut as in the source. -/
theorem pieces_start : pieces s.start = s.before := by
  have front := pieces_append_front s.closed_before s.split List.nil_prefix
  rwa [pieces_nil, List.append_nil, List.append_nil] at front

end Site

/-- A stray character is no white space. -/
theorem stray_of_mem_pieces {cs : List Char} {p : Piece} (mem : p ∈ pieces cs)
    (stray : p.form = .stray) : ∃ c, p = ⟨.stray, [c]⟩ ∧ c ≠ '\n' ∧ c ≠ ' ' := by
  rcases mem_pieces_cases mem with lawful | ⟨c, rfl, unruled⟩ | ⟨body, rfl, -⟩
  · exact absurd stray lawful.form_ne.1
  · refine ⟨c, rfl, ?_, ?_⟩
    · rintro rfl
      exact unruled _ .newline rfl
    · rintro rfl
      exact unruled _ (.blank List.mem_cons_self) rfl
  · cases stray

/-! ### Lines -/

section Lines

variable {source : List Char} {before rest : List Piece}

/-- Behind a piece the lines are counted from that on which it ends. -/
theorem line_append_piece (before : List Piece) (p : Piece) :
    (1 : Int) + ((before ++ [p]).flatMap Piece.text).count '\n' =
      1 + (before.flatMap Piece.text).count '\n' + p.newlines := by
  rw [List.flatMap_append, List.flatMap_singleton, List.count_append, Piece.newlines]
  omega

/-- What pieces give from the lines on which they end is what their sites give. -/
theorem gather_eq_filterMap {α : Type} (give : Piece → Int → Option α)
    (split : pieces source = before ++ rest) :
    gather give (1 + (before.flatMap Piece.text).count '\n') rest =
      (sitesFrom before rest split).filterMap fun s => give s.piece (1 + s.stop.count '\n') := by
  induction rest generalizing before with
  | nil => rfl
  | cons p ps ih =>
    rw [gather, ← line_append_piece, ih (by rw [split, List.append_cons]), sitesFrom,
      List.filterMap_cons, Site.stop, Site.start, List.flatMap_append, List.flatMap_singleton]
    cases give p (1 + (before.flatMap Piece.text ++ p.text).count '\n') <;> rfl

/-- Lines never decrease along the tokens. -/
theorem pairwise_tokensFrom (line : Int) (ps : List Piece) :
    (tokensFrom line ps).Pairwise fun t u => t.line ≤ u.line := by
  induction ps generalizing line with
  | nil => exact List.pairwise_singleton _ _
  | cons p ps ih =>
    refine List.pairwise_append.2 ⟨?_, ih _, fun t here u later => ?_⟩
    · cases p.token? (line + p.newlines) with
      | none => exact .nil
      | some t => exact List.pairwise_singleton _ _
    · rw [(Piece.of_token? (Option.mem_toList.1 here)).1]
      exact (line_of_mem_tokensFrom later).1

end Lines

/-! ### Tokens and problems at their sites -/

/-- The forms of pieces that have a token. -/
def Form.isToken : Form → Bool
  | mark _ | number | string | word => true
  | comment | blank | newline | stray | unclosed => false

/-- The forms of pieces that are a problem. -/
def Form.isFaulty : Form → Bool
  | stray | unclosed => true
  | mark _ | number | string | word | comment | blank | newline => false

/-- What a list gives, one by one, is related to the members that give something. -/
theorem forall₂_filterMap {α β : Type} {R : α → β → Prop} {p : α → Bool} {f : α → Option β}
    {l : List α} (none_iff : ∀ a ∈ l, f a = none ↔ p a = false)
    (related : ∀ a ∈ l, ∀ b, f a = some b → R a b) :
    List.Forall₂ R (l.filter p) (l.filterMap f) := by
  induction l with
  | nil => exact .nil
  | cons a l ih =>
    obtain ⟨none_here, none_later⟩ := List.forall_mem_cons.1 none_iff
    obtain ⟨here, later⟩ := List.forall_mem_cons.1 related
    have ih := ih none_later later
    cases given : f a with
    | none =>
      rw [List.filter_cons_of_neg (by simp [none_here.1 given]), List.filterMap_cons_none given]
      exact ih
    | some b =>
      have passes : p a = true := by
        rw [← Bool.not_eq_false, ← none_here, given]
        simp
      rw [List.filter_cons_of_pos passes, List.filterMap_cons_some given]
      exact .cons (here b given) ih

namespace Piece

theorem token?_eq_none_iff {p : Piece} {line : Int} :
    p.token? line = none ↔ p.form.isToken = false := by
  obtain ⟨form, text⟩ := p
  cases form <;> simp [token?, Form.isToken]

theorem fault?_eq_none_iff {p : Piece} {line : Int} (nonempty : p.text ≠ []) :
    p.fault? line = none ↔ p.form.isFaulty = false := by
  obtain ⟨form, text⟩ := p
  obtain ⟨c, cs, rfl⟩ := List.exists_cons_of_ne_nil nonempty
  cases form <;> simp [fault?, Form.isFaulty]

theorem fault?_cases {p : Piece} {line : Int} {f : Fault} (fault : p.fault? line = some f) :
    (p.form = .stray ∧ ∃ c, f = ⟨.unexpected c, line⟩) ∨
      p.form = .unclosed ∧ f = ⟨.unterminated, line⟩ := by
  unfold fault? at fault
  split at fault
  next c _ stray _ => exact .inl ⟨stray, c, (Option.some.inj fault).symm⟩
  next unclosed => exact .inr ⟨unclosed, (Option.some.inj fault).symm⟩
  next => cases fault

end Piece

/-- The problem of a site is located there. -/
theorem Site.blames_of_fault? {source : List Char} {s : Site source} {f : Fault}
    (fault : s.piece.fault? (1 + s.stop.count '\n') = some f) : s.Blames f.diagnostic := by
  rcases Piece.fault?_cases fault with ⟨stray, -⟩ | ⟨unclosed, rfl⟩
  · obtain ⟨c, piece, no_newline, -⟩ := stray_of_mem_pieces s.mem_pieces stray
    have line : s.stop.count '\n' = s.start.count '\n' := by
      rw [stop, piece, List.count_append, List.count_singleton]
      simp [no_newline]
    rw [line, piece] at fault
    cases fault
    exact .unexpected piece
  · rw [s.stop_eq unclosed]
    exact .unterminated unclosed

/-- **The lines of a scan** are counted in the source. The tokens before the end stand at the sites
with the forms of tokens, one by one, each on the line on which its lexeme ends; the end token is on
the last line. The problems stand at the faulty sites, one by one: an unexpected character on its
line, an unterminated string on the last. Lines never decrease along the tokens. -/
theorem lines_of_scan (source : String) :
    (∃ ts, tokens source = ts ++ [⟨.eof, "", 1 + lineBreaks source, .nil⟩] ∧
        List.Forall₂ Site.Holds ((sites source.toList).filter (·.piece.form.isToken)) ts)
      ∧ List.Forall₂ Site.Blames ((sites source.toList).filter (·.piece.form.isFaulty))
        (diagnostics source)
      ∧ (tokens source).Pairwise fun t u => t.line ≤ u.line := by
  have all : pieces source.toList = [] ++ pieces source.toList := rfl
  have counted {α : Type} (give : Piece → Int → Option α) :
      gather give 1 (pieces source.toList) = (sites source.toList).filterMap fun s =>
        give s.piece (1 + s.stop.count '\n') := gather_eq_filterMap give all
  have ended : tokens source =
      gather Piece.token? 1 (pieces source.toList) ++ [Token.eof (1 + lineBreaks source)] := by
    rw [tokens, tokensFrom_eq_gather, newlinesOf_pieces]
    rfl
  refine ⟨⟨_, ended, ?_⟩, ?_, pairwise_tokensFrom 1 _⟩
  · rw [counted]
    refine forall₂_filterMap (fun s _ => Piece.token?_eq_none_iff) fun s _ t token => ?_
    obtain ⟨line, lexeme⟩ := Piece.of_token? token
    exact ⟨lexeme, line⟩
  · rw [diagnostics, faults, faultsFrom_eq_gather, counted, List.forall₂_map_right_iff]
    refine forall₂_filterMap (fun s _ => ?_) fun s _ f fault => s.blames_of_fault? fault
    exact Piece.fault?_eq_none_iff (text_ne_nil_of_mem_pieces s.mem_pieces)

/-! A string of two lines has the line of its closing quote. -/

example : (tokens "\"a\nb\"\n@ x").map Token.line = [2, 3, 3] := by decide +kernel

end Lox.Lexer
