import Lox.Proofs.Lexer.Seam

/-!
# Lines of tokens and faults

Tokens and faults are read off the pieces one by one (`gather`). Their lines are counted from the
line on which the source starts, so they move with the source as a whole (`tokensFrom_add`). With
the way in which sources are cut at a line break this gives the tokens of two sources glued together
(`tokens_append_newline`), and the faults likewise.
-/

namespace Lox

/-- The token on another line. -/
def Token.relocate (g : Int → Int) (t : Token) : Token := { t with line := g t.line }

@[simp] theorem Token.kind_relocate (g : Int → Int) (t : Token) : (t.relocate g).kind = t.kind :=
  rfl

@[simp] theorem Token.lexeme_relocate (g : Int → Int) (t : Token) :
    (t.relocate g).lexeme = t.lexeme := rfl

/-- The token without its line. -/
abbrev Token.unlined : Token → Token := Token.relocate fun _ => 0

/-- The problem on another line, if it has a line. -/
def Diagnostic.relocate (g : Int → Int) (d : Diagnostic) : Diagnostic :=
  { d with line := d.line.map g }

@[simp] theorem Diagnostic.category_relocate (g : Int → Int) (d : Diagnostic) :
    (d.relocate g).category = d.category := rfl

/-- The problem without its line, if it has one. -/
abbrev Diagnostic.unlined : Diagnostic → Diagnostic := Diagnostic.relocate fun _ => 0

namespace Lexer

/-- The fault on another line. -/
def Fault.relocate (g : Int → Int) (f : Fault) : Fault := { f with line := g f.line }

/-- The number of line breaks in a source. -/
def lineBreaks (source : String) : Nat := source.toList.count '\n'

/-- The number of lines that the pieces end. -/
def newlinesOf : List Piece → Nat
  | [] => 0
  | p :: ps => p.newlines + newlinesOf ps

theorem line_add_newlinesOf (line : Int) (p : Piece) (ps : List Piece) :
    line + newlinesOf (p :: ps) = line + p.newlines + newlinesOf ps := by
  rw [newlinesOf]
  omega

theorem newlinesOf_eq_count (ps : List Piece) :
    newlinesOf ps = (ps.flatMap Piece.text).count '\n' := by
  induction ps with
  | nil => rfl
  | cons p ps ih => rw [newlinesOf, ih, List.flatMap_cons, List.count_append, Piece.newlines]

theorem newlinesOf_append (ps qs : List Piece) :
    newlinesOf (ps ++ qs) = newlinesOf ps + newlinesOf qs := by
  rw [newlinesOf_eq_count, List.flatMap_append, List.count_append, newlinesOf_eq_count,
    newlinesOf_eq_count]

theorem newlinesOf_pieces (cs : List Char) : newlinesOf (pieces cs) = cs.count '\n' := by
  rw [newlinesOf_eq_count, flatten_pieces]

/-! ### What pieces give

Tokens and faults are read off the pieces in the same way, so what does not depend on what is read
is said once, for any reading.
-/

/-- What the pieces give, each from the line on which it ends. -/
def gather {α : Type} (give : Piece → Int → Option α) (line : Int) : List Piece → List α
  | [] => []
  | p :: ps => (give p (line + p.newlines)).toList ++ gather give (line + p.newlines) ps

theorem tokensFrom_eq_gather (line : Int) (ps : List Piece) :
    tokensFrom line ps = gather Piece.token? line ps ++ [Token.eof (line + newlinesOf ps)] := by
  induction ps generalizing line with
  | nil => simp [tokensFrom, gather, newlinesOf]
  | cons p ps ih => rw [tokensFrom, ih, gather, line_add_newlinesOf, List.append_assoc]

theorem faultsFrom_eq_gather (line : Int) (ps : List Piece) :
    faultsFrom line ps = gather Piece.fault? line ps := by
  induction ps generalizing line with
  | nil => rfl
  | cons p ps ih => rw [faultsFrom, ih, gather]

section Gather

variable {α β : Type} {give : Piece → Int → Option α}

theorem gather_append (line : Int) (ps qs : List Piece) :
    gather give line (ps ++ qs) = gather give line ps ++ gather give (line + newlinesOf ps) qs := by
  induction ps generalizing line with
  | nil => simp [gather, newlinesOf]
  | cons p ps ih => rw [List.cons_append, gather, ih, gather, line_add_newlinesOf, List.append_assoc]

/-- What moves with its piece moves with the source. -/
theorem gather_add {move : α → α} {k : Int}
    (moves : ∀ p line, give p (line + k) = (give p line).map move) (line : Int)
    (ps : List Piece) : gather give (line + k) ps = (gather give line ps).map move := by
  induction ps generalizing line with
  | nil => rfl
  | cons p ps ih =>
    have moved : line + k + p.newlines = line + p.newlines + k := by omega
    rw [gather, moved, ih, moves, gather, List.map_append]
    cases give p (line + p.newlines) <;> rfl

/-- What does not depend on lines can be read off the pieces one by one. -/
theorem map_gather {f : α → β} {lineless : Piece → Option β}
    (same : ∀ p line, (give p line).map f = lineless p) (line : Int) (ps : List Piece) :
    (gather give line ps).map f = ps.filterMap lineless := by
  induction ps generalizing line with
  | nil => rfl
  | cons p ps ih =>
    rw [gather, List.map_append, ih, List.filterMap_cons, ← same p (line + p.newlines)]
    cases give p (line + p.newlines) <;> rfl

/-- What is given comes from a piece that ends on one of the lines of the source. -/
theorem exists_of_mem_gather {a : α} {line : Int} {ps : List Piece}
    (mem : a ∈ gather give line ps) :
    ∃ p ∈ ps, ∃ l, line ≤ l ∧ l ≤ line + newlinesOf ps ∧ give p l = some a := by
  induction ps generalizing line with
  | nil => cases mem
  | cons p ps ih =>
    rw [line_add_newlinesOf]
    rcases List.mem_append.1 mem with here | later
    · exact ⟨p, List.mem_cons_self, _, by omega, by omega, Option.mem_toList.1 here⟩
    · obtain ⟨q, among, l, lower, upper, given⟩ := ih later
      exact ⟨q, List.mem_cons_of_mem p among, l, by omega, upper, given⟩

end Gather

/-! ### Moving -/

theorem Piece.token?_relocate (p : Piece) (g : Int → Int) (line : Int) :
    p.token? (g line) = (p.token? line).map (Token.relocate g) := by
  unfold Piece.token?
  split <;> rfl

theorem Piece.fault?_relocate (p : Piece) (g : Int → Int) (line : Int) :
    p.fault? (g line) = (p.fault? line).map (Fault.relocate g) := by
  unfold Piece.fault?
  split <;> rfl

/-- Tokens move with their source. -/
theorem tokensFrom_add (line k : Int) (ps : List Piece) :
    tokensFrom (line + k) ps = (tokensFrom line ps).map (Token.relocate (· + k)) := by
  have last : line + k + newlinesOf ps = line + newlinesOf ps + k := by omega
  rw [tokensFrom_eq_gather, gather_add fun p => p.token?_relocate (· + k), last,
    tokensFrom_eq_gather, List.map_append]
  rfl

/-- Faults move with their source. -/
theorem faultsFrom_add (line k : Int) (ps : List Piece) :
    faultsFrom (line + k) ps = (faultsFrom line ps).map (Fault.relocate (· + k)) := by
  rw [faultsFrom_eq_gather, gather_add fun p => p.fault?_relocate (· + k), faultsFrom_eq_gather]

theorem map_unlined_tokensFrom (line : Int) (ps : List Piece) :
    (tokensFrom line ps).map Token.unlined =
      ps.filterMap (Piece.token? · 0) ++ [Token.eof 0] := by
  rw [tokensFrom_eq_gather, List.map_append,
    map_gather fun p line => (p.token?_relocate (fun _ => 0) line).symm]
  rfl

theorem faultsFrom_eq_nil_iff {line : Int} {ps : List Piece} :
    faultsFrom line ps = [] ↔ ∀ p ∈ ps, p.fault? 0 = none := by
  have lineless := map_gather (fun p line => (p.fault?_relocate (fun _ => 0) line).symm) line ps
  rw [faultsFrom_eq_gather, ← List.map_eq_nil_iff, lineless, List.filterMap_eq_nil_iff]

/-! ### Gluing -/

theorem tokensFrom_append (line : Int) (ps qs : List Piece) :
    tokensFrom line (ps ++ qs) =
      (tokensFrom line ps).dropLast ++ tokensFrom (line + newlinesOf ps) qs := by
  have last : line + newlinesOf (ps ++ qs) = line + newlinesOf ps + newlinesOf qs := by
    rw [newlinesOf_append]
    omega
  rw [tokensFrom_eq_gather, gather_append, last, List.append_assoc, tokensFrom_eq_gather,
    List.dropLast_concat, tokensFrom_eq_gather]

theorem faultsFrom_append (line : Int) (ps qs : List Piece) :
    faultsFrom line (ps ++ qs) =
      faultsFrom line ps ++ faultsFrom (line + newlinesOf ps) qs := by
  rw [faultsFrom_eq_gather, gather_append, ← faultsFrom_eq_gather, ← faultsFrom_eq_gather]

theorem Piece.cause_ne_iff {p : Piece} {line : Int} :
    (∀ f ∈ (p.fault? line).toList, f.cause ≠ .unterminated) ↔ p.form ≠ .unclosed := by
  obtain ⟨form, text⟩ := p
  cases form with
  | stray => cases text <;> simp [fault?]
  | _ => simp [fault?]

/-- Quotes that are never closed are reported, and nothing else is reported as unterminated. -/
theorem cause_ne_iff {line : Int} {ps : List Piece} :
    (∀ f ∈ faultsFrom line ps, f.cause ≠ .unterminated) ↔ ∀ p ∈ ps, p.form ≠ .unclosed := by
  induction ps generalizing line with
  | nil => simp [faultsFrom]
  | cons p ps ih =>
    rw [faultsFrom, List.forall_mem_append, Piece.cause_ne_iff, ih, List.forall_mem_cons]

/-! ### The end token -/

theorem cut_form_ne_eof (c : Char) (cs : List Char) : (cut c cs).1.form ≠ .mark .eof := by
  have of_single {kind : Kind} (h : single? c = some kind) : kind ≠ .eof := by
    rintro rfl
    revert h
    unfold single?
    split <;> simp
  have of_extensible {plain extended : Kind} (h : extensible? c = some (plain, extended)) :
      plain ≠ .eof ∧ extended ≠ .eof := by
    revert h
    unfold extensible?
    split <;> simp +contextual [eq_comm]
  unfold cut cutString cutNumber
  repeat' split
  all_goals simp_all

theorem form_ne_eof (cs : List Char) : ∀ p ∈ pieces cs, p.form ≠ .mark .eof := by
  fun_induction pieces cs with
  | case1 => simp
  | case2 c cs ih => exact List.forall_mem_cons.2 ⟨cut_form_ne_eof c cs, ih⟩

theorem keyword_ne_eof {word : String} {kind : Kind} (h : keywords.lookup word = some kind) :
    kind ≠ .eof := by
  obtain ⟨before, after, eq, -⟩ := List.lookup_eq_some_iff.1 h
  have mem : (word, kind) ∈ keywords := by simp [eq]
  have none_is_eof : ∀ entry ∈ keywords, entry.2 ≠ .eof := by decide
  exact none_is_eof _ mem

theorem Piece.kind_ne_eof {p : Piece} (h : p.form ≠ .mark .eof) {line : Int} {t : Token}
    (ht : p.token? line = some t) : t.kind ≠ .eof := by
  unfold Piece.token? at ht
  split at ht
  next kind form =>
    cases ht
    exact fun eq => h (eq ▸ form)
  next =>
    cases ht
    exact fun h => nomatch h
  next =>
    cases ht
    exact fun h => nomatch h
  next =>
    cases ht
    show (keywords.lookup (String.ofList p.text)).getD .identifier ≠ .eof
    cases reserved : keywords.lookup (String.ofList p.text) with
    | none => exact fun h => nomatch h
    | some kind => exact keyword_ne_eof reserved
  next => cases ht

/-- The end token comes last, and no other token has its kind. -/
theorem tokensFrom_eq_append_eof {ps : List Piece} (h : ∀ p ∈ ps, p.form ≠ .mark .eof)
    (line : Int) :
    ∃ ts : List Token, (∀ t ∈ ts, t.kind ≠ .eof)
      ∧ tokensFrom line ps = ts ++ [Token.eof (line + newlinesOf ps)] := by
  refine ⟨gather Piece.token? line ps, fun t mem => ?_, tokensFrom_eq_gather line ps⟩
  obtain ⟨p, among, l, -, -, token⟩ := exists_of_mem_gather mem
  exact p.kind_ne_eof (h p among) token

/-- The tokens of a source are closed by the end token on its last line. -/
theorem tokens_eq_append_eof (source : String) :
    ∃ ts : List Token, (∀ t ∈ ts, t.kind ≠ .eof)
      ∧ tokens source = ts ++ [Token.eof (1 + lineBreaks source)] := by
  rw [lineBreaks, ← newlinesOf_pieces]
  exact tokensFrom_eq_append_eof (form_ne_eof _) 1

theorem exists_eof (source : String) : ∃ t ∈ tokens source, t.kind = .eof := by
  obtain ⟨ts, -, eq⟩ := tokens_eq_append_eof source
  rw [eq]
  exact ⟨_, List.mem_append_right ts (List.mem_singleton_self _), rfl⟩

section Sources

variable {a : String} (closed : ∀ f ∈ faults a, f.cause ≠ .unterminated) (b : String)

include closed

theorem pieces_append_source :
    pieces (a ++ "\n" ++ b).toList = pieces a.toList ++ ⟨.newline, ['\n']⟩ :: pieces b.toList := by
  have glued : (a ++ "\n" ++ b).toList = a.toList ++ '\n' :: b.toList := by
    simp [String.toList_append]
  rw [glued, pieces_append_newline (cause_ne_iff.1 closed)]

/-- **The tokens of two sources glued at a line break**: those of the first without its end, then
those of the second, moved down. -/
theorem tokens_append_newline :
    tokens (a ++ "\n" ++ b) =
      (tokens a).dropLast ++ (tokens b).map (Token.relocate (· + (1 + lineBreaks a))) := by
  have line : (1 : Int) + lineBreaks a + 1 = 1 + (1 + lineBreaks a) := by omega
  rw [tokens, pieces_append_source closed, tokensFrom_append, newlinesOf_pieces]
  -- the break itself has no token and ends one line
  show (tokens a).dropLast ++ tokensFrom (1 + lineBreaks a + 1) (pieces b.toList) = _
  rw [line, tokensFrom_add]
  rfl

/-- **The faults of two sources glued at a line break**, likewise. -/
theorem faults_append_newline :
    faults (a ++ "\n" ++ b) =
      faults a ++ (faults b).map (Fault.relocate (· + (1 + lineBreaks a))) := by
  have line : (1 : Int) + lineBreaks a + 1 = 1 + (1 + lineBreaks a) := by omega
  rw [faults, pieces_append_source closed, faultsFrom_append, newlinesOf_pieces]
  show faults a ++ faultsFrom (1 + lineBreaks a + 1) (pieces b.toList) = _
  rw [line, faultsFrom_add]
  rfl

/-- **Scanning is compositional at line breaks.** If every quote before the break is closed, what
stands before it is scanned as if nothing followed, and what stands behind it as if nothing went
before, but for the lines. -/
theorem scan_append_newline :
    (∃ ts, tokens a = ts ++ [Token.eof (1 + lineBreaks a)]
        ∧ tokens (a ++ "\n" ++ b) =
          ts ++ (tokens b).map (Token.relocate (· + (1 + lineBreaks a))))
      ∧ diagnostics (a ++ "\n" ++ b) =
        diagnostics a ++ (diagnostics b).map (Diagnostic.relocate (· + (1 + lineBreaks a))) := by
  obtain ⟨ts, -, split⟩ := tokens_eq_append_eof a
  refine ⟨⟨ts, split, ?_⟩, ?_⟩
  · rw [tokens_append_newline closed, split, List.dropLast_concat]
  · rw [diagnostics, faults_append_newline closed, List.map_append, List.map_map, diagnostics,
      diagnostics, List.map_map]
    rfl

end Sources

/-- A point at the end, behind an unexpected character, and digits on the next line. -/
theorem scan_append_newline_point :
    let a := "x\n@7."
    let b := "5 #\n\"y"
    (∀ f ∈ faults a, f.cause ≠ .unterminated)
      ∧ (∃ ts, tokens a = ts ++ [Token.eof (1 + lineBreaks a)]
        ∧ tokens (a ++ "\n" ++ b) =
          ts ++ (tokens b).map (Token.relocate (· + (1 + lineBreaks a))))
      ∧ diagnostics (a ++ "\n" ++ b) =
        diagnostics a ++ (diagnostics b).map (Diagnostic.relocate (· + (1 + lineBreaks a))) := by
  intro a b
  have closed : ∀ f ∈ faults a, f.cause ≠ .unterminated := by decide +kernel
  exact ⟨closed, scan_append_newline closed b⟩

end Lexer

end Lox
