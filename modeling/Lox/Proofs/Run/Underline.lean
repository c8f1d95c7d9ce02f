import Mathlib.Order.Bounds.Basic
import Lox.Proofs.Eval.Relocate
import Lox.Proofs.Lexer.Column
import Lox.Proofs.Run.Diagnosis
import Lox.Proofs.Run.Layout

/-!
# Which part of a line is underlined

A problem keeps the line and the lexeme of the token that it is built from, and not its column. So
the part that is underlined is found by searching the line for the lexeme, and it is the first
occurrence, which may belong to another token or to a part of one (`Analysis.underlines_first`): the
mark is never to the right of the token, and it is below the token unless the lexeme occurs in the
line further to the left.

Equal tokens of a line are told apart by letting every token have its position for its line.
Parsing and execution do the same with these tokens, and a problem that they meet then has the
position of its token for its line (`Analysis.Blames`).
-/

namespace Lox

/-! ### Positions for lines -/

namespace Token

/-- The tokens, with their positions in the place of lines. -/
def byPosition (ts : List Token) : List Token := ts.mapIdx fun i t => { t with line := i }

/-- The line of the token at a position. -/
def lineAt (ts : List Token) (i : Int) : Int := (ts[i.toNat]?.map line).getD 0

variable {ts : List Token}

theorem getElem?_byPosition (i : Nat) :
    (byPosition ts)[i]? = ts[i]?.map fun t => { t with line := i } :=
  List.getElem?_mapIdx

theorem relocate_lineAt {i : Nat} {t : Token} (at_i : ts[i]? = some t) :
    ({ t with line := i } : Token).relocate (lineAt ts) = t := by
  rw [relocate, lineAt, Int.toNat_natCast, at_i]
  rfl

/-- With their lines instead of their positions the tokens are as before. -/
theorem map_relocate_byPosition (ts : List Token) :
    (byPosition ts).map (relocate (lineAt ts)) = ts := by
  refine List.ext_getElem? fun i => ?_
  rw [List.getElem?_map, getElem?_byPosition, Option.map_map]
  cases at_i : ts[i]? with
  | none => rfl
  | some t => exact congrArg some (relocate_lineAt at_i)

theorem exists_of_mem_byPosition {u : Token} (mem : u ∈ byPosition ts) :
    ∃ (i : Nat) (t : Token), ts[i]? = some t ∧ u = { t with line := i } := by
  obtain ⟨i, at_i⟩ := List.mem_iff_getElem?.1 mem
  rw [getElem?_byPosition] at at_i
  obtain ⟨t, there, rfl⟩ := Option.map_eq_some_iff.1 at_i
  exact ⟨i, t, there, rfl⟩

theorem exists_eof_byPosition (ends : ∃ t ∈ ts, t.kind = .eof) :
    ∃ u ∈ byPosition ts, u.kind = .eof := by
  obtain ⟨t, mem, eof⟩ := ends
  rw [← map_relocate_byPosition ts] at mem
  obtain ⟨u, among, rfl⟩ := List.mem_map.1 mem
  exact ⟨u, among, eof⟩

end Token

/-! ### The token of a problem -/

namespace Analysis

variable {limits : Limits} {source : String}

/-- What parsing gives for a source whose tokens have their positions for lines. -/
def parsedByPosition (limits : Limits) (source : String) : Parsed :=
  .ofTokens limits.nesting (Token.byPosition (Lexer.tokens source))

/-- The problem, of parsing or of execution, is built from the token at a position of the source: it
has the position for its line if all tokens have. -/
inductive Blames (limits : Limits) (source : String) : Diagnostic → Nat → Prop
  | grammatical {d : Diagnostic} {i : Nat} (category : d.category = .grammatical)
      (found : d ∈ (parsedByPosition limits source).diagnostics) (told : d.line = some (i : Int)) :
    Blames limits source (d.relocate (Token.lineAt (Lexer.tokens source))) i
  | runtime {rounds depth : Nat} {m m' : Machine} {cause : Failure} {i : Nat}
      (failed : Stmt.executeAll rounds (parsedByPosition limits source).statements depth m =
        .error (.failure cause) m')
      (told : cause.diagnostic.line = some (i : Int)) :
    Blames limits source (cause.diagnostic.relocate (Token.lineAt (Lexer.tokens source))) i

/-- Parsing does the same, whatever stands for lines. -/
theorem ofTokens_eq_map_byPosition (limits : Limits) (source : String) :
    Parsed.ofTokens limits.nesting (Lexer.tokens source) =
      (parsedByPosition limits source).map (Token.relocate (Token.lineAt (Lexer.tokens source))) := by
  have ends := Token.exists_eof_byPosition (Lexer.exists_eof source)
  rw [parsedByPosition, ← Parsed.ofTokens_map (Token.kind_relocate _) limits.nesting ends,
    Token.map_relocate_byPosition]

/-- A complaint is about the end, or it is built from a token. -/
theorem of_grammatical {d : Diagnostic} (category : d.category = .grammatical)
    (found : d ∈ (parsedByPosition limits source).diagnostics) :
    ∃ (i : Nat) (t : Token), (Lexer.tokens source)[i]? = some t ∧ d.line = some (i : Int) ∧
      (d.lexeme = none ∨ t.kind ≠ .eof ∧ d.lexeme = some t.lexeme) := by
  have ends := Token.exists_eof_byPosition (Lexer.exists_eof source)
  rcases List.mem_append.1 found with complained | deep
  · obtain ⟨c, complaint, rfl⟩ := List.mem_map.1 complained
    have blamed : c.blamed.getD (Parsed.closing (Token.byPosition (Lexer.tokens source))) ∈
        Token.byPosition (Lexer.tokens source) := by
      cases eq : c.blamed with
      | none => exact Parsed.closing_mem ends
      | some t => exact Parsed.mem_of_blamed ends complaint eq
    rw [parsedByPosition, Parsed.eof_ofTokens, Parser.Complaint.diagnostic]
    obtain ⟨i, t, at_i, eq⟩ := Token.exists_of_mem_byPosition blamed
    refine ⟨i, t, at_i, ?_⟩
    rw [eq, Diagnostic.atToken]
    split
    next => exact ⟨rfl, .inl rfl⟩
    next ne_eof => exact ⟨rfl, .inr ⟨ne_eof, rfl⟩⟩
  · obtain ⟨t, -, rfl⟩ := List.mem_map.1 deep
    cases category

/-- A failure is built from a token. -/
theorem of_runtime {rounds depth : Nat} {m m' : Machine} {cause : Failure}
    (failed : Stmt.executeAll rounds (parsedByPosition limits source).statements depth m =
      .error (.failure cause) m') :
    ∃ (i : Nat) (t : Token), (Lexer.tokens source)[i]? = some t ∧
      cause.diagnostic.line = some (i : Int) ∧
      t.kind ≠ .eof ∧ cause.diagnostic.lexeme = some t.lexeme := by
  have ends := Token.exists_eof_byPosition (Lexer.exists_eof source)
  have executable : Stmt.AllExecutable (parsedByPosition limits source).statements :=
    (Stmt.allWellFormed_iff.2 fun s mem => Parsed.wellFormed_of_mem mem).executable
  obtain ⟨u, mem, located⟩ := Stmt.executeAll_failsOnly rounds executable depth failed
  obtain ⟨stored, blamable⟩ := executable.of_mem_blamable mem
  have blamed := located.diagnostic_at blamable.kind_ne_eof
  obtain ⟨i, t, at_i, rfl⟩ := Token.exists_of_mem_byPosition (Parsed.mem_of_stored ends stored)
  exact ⟨i, t, at_i, blamed.line, blamable.kind_ne_eof, blamed.lexeme⟩

/-- Every syntax error is built from a token. -/
theorem exists_blames_of_grammatical {d : Diagnostic} (mem : d ∈ (ofSource limits source).problems)
    (category : d.category = .grammatical) : ∃ i, Blames limits source d i := by
  rcases List.mem_append.1 mem with lexical | parsing
  · obtain ⟨f, -, rfl⟩ := List.mem_map.1 lexical
    cases category
  · rw [ofTokens_eq_map_byPosition, Parsed.diagnostics_map] at parsing
    obtain ⟨d, found, rfl⟩ := List.mem_map.1 parsing
    rw [Diagnostic.category_relocate] at category
    obtain ⟨i, t, -, told, -⟩ := of_grammatical category found
    exact ⟨i, .grammatical category found told⟩

/-- What is wrong with a source, and is no syntax error, is not located within its line. -/
theorem lexeme_of_not_grammatical {d : Diagnostic} (mem : d ∈ (ofSource limits source).problems)
    (other : d.category ≠ .grammatical) : d.lexeme = none := by
  rcases List.mem_append.1 mem with lexical | parsing
  · obtain ⟨f, -, rfl⟩ := List.mem_map.1 lexical
    rfl
  · rcases List.mem_append.1 parsing with complained | deep
    · obtain ⟨c, -, rfl⟩ := List.mem_map.1 complained
      exact absurd (Diagnostic.category_atToken _ _ _) other
    · obtain ⟨t, -, rfl⟩ := List.mem_map.1 deep
      rfl

/-- Every failure of an execution is built from a token. -/
theorem exists_blames_of_failed {rounds depth : Nat} {m m' : Machine} {cause : Failure}
    (failed : Stmt.executeAll rounds (ofSource limits source).statements depth m =
      .error (.failure cause) m') : ∃ i, Blames limits source cause.diagnostic i := by
  have statements : (ofSource limits source).statements =
      Stmt.mapAll (Token.relocate (Token.lineAt (Lexer.tokens source)))
        (parsedByPosition limits source).statements :=
    congrArg Parsed.statements (ofTokens_eq_map_byPosition limits source)
  rw [statements, Stmt.executeAll_relocate, Halt.relocating_apply] at failed
  split at failed
  next => cases failed
  next halt s result =>
    cases halt with
    | failure cause' =>
      cases failed
      obtain ⟨i, t, -, told, -⟩ := of_runtime result
      rw [Failure.diagnostic_relocate]
      exact ⟨i, .runtime result told⟩
    | tooDeep | outOfFuel => cases failed

/-- A problem that keeps a lexeme keeps that of its token, which stands at a site, and its line. -/
theorem Blames.holds {d : Diagnostic} {i : Nat} (h : Blames limits source d i) {lexeme : String}
    (blamed : d.lexeme = some lexeme) :
    ∃ s t, (Lexer.tokenSites source)[i]? = some s ∧ s.Holds t ∧ t ∈ Lexer.tokens source ∧
      t.kind ≠ .eof ∧ d.line = some t.line ∧ lexeme = t.lexeme := by
  have standing {d : Diagnostic} {t : Token} (at_i : (Lexer.tokens source)[i]? = some t)
      (ne_eof : t.kind ≠ .eof) (told : d.line = some (i : Int)) (keeps : d.lexeme = some t.lexeme)
      (blamed : (d.relocate (Token.lineAt (Lexer.tokens source))).lexeme = some lexeme) :
      ∃ s u, (Lexer.tokenSites source)[i]? = some s ∧ s.Holds u ∧ u ∈ Lexer.tokens source ∧
        u.kind ≠ .eof ∧ (d.relocate (Token.lineAt (Lexer.tokens source))).line = some u.line ∧
        lexeme = u.lexeme := by
    obtain ⟨s, there, holds⟩ := Lexer.exists_site_of_token at_i ne_eof
    refine ⟨s, t, there, holds, List.mem_of_getElem? at_i, ne_eof, ?_, ?_⟩
    · rw [Diagnostic.relocate, told, Option.map_some, Token.lineAt, Int.toNat_natCast, at_i]
      rfl
    · exact Option.some.inj (blamed.symm.trans keeps)
  cases h with
  | grammatical category found told =>
    obtain ⟨k, t, at_k, line, none | ⟨ne_eof, keeps⟩⟩ := of_grammatical category found
    · exact nomatch none.symm.trans blamed
    · obtain rfl : i = k := Int.ofNat.inj (Option.some.inj (told.symm.trans line))
      exact standing at_k ne_eof told keeps blamed
  | runtime failed told =>
    obtain ⟨k, t, at_k, line, ne_eof, keeps⟩ := of_runtime failed
    obtain rfl : i = k := Int.ofNat.inj (Option.some.inj (told.symm.trans line))
    exact standing at_k ne_eof told keeps blamed

end Analysis

/-! ### The part that is underlined -/

/-- What is found is the least place at which the text stands. -/
theorem Text.isLeast_of_occurrence? {part cs : List Char} {i : Nat}
    (found : occurrence? part cs = some i) : IsLeast {k | part <+: cs.drop k} i := by
  induction cs generalizing i with
  | nil =>
    unfold occurrence? at found
    split at found
    next empty =>
      cases found
      exact ⟨empty ▸ List.nil_prefix, fun k _ => Nat.zero_le k⟩
    next => cases found
  | cons c cs ih =>
    unfold occurrence? at found
    split at found
    next here =>
      cases found
      exact ⟨List.isPrefixOf_iff_prefix.1 here, fun k _ => Nat.zero_le k⟩
    next elsewhere =>
      obtain ⟨j, later, rfl⟩ := Option.map_eq_some_iff.1 found
      obtain ⟨stands, least⟩ := ih later
      refine ⟨stands, fun k there => ?_⟩
      cases k with
      | zero => exact absurd (List.isPrefixOf_iff_prefix.2 there) elsewhere
      | succ k => exact Nat.succ_le_succ (least there)

namespace Journal

/-- The columns of a line that the marker below it marks. Both are indented by two blanks. -/
def markedColumns (shown : String) : List Nat :=
  (((Text.lines shown.toList).getD 1 []).drop 2).findIdxs fun c => c = '^' ∨ c = '~'

theorem findIdxs_replicate {p : Char → Bool} {c : Char} (marked : p c = true) (n start : Nat) :
    (List.replicate n c).findIdxs p start = List.range' start n := by
  induction n generalizing start with
  | zero => rfl
  | succ n ih => simp [List.replicate_succ, marked, ih, List.range'_succ]

/-- The columns of the underlined part are marked. -/
theorem markedColumns_underlined {left part right : List Char} (nonempty : part ≠ [])
    (one_line : '\n' ∉ left ++ part ++ right) :
    markedColumns (underlined false (left ++ part ++ right) left.length part.length) =
      List.range' left.length part.length := by
  let marker := List.replicate left.length ' ' ++ '^' :: List.replicate (part.length - 1) '~'
  have shown : (underlined false (left ++ part ++ right) left.length part.length).toList =
      (' ' :: ' ' :: (left ++ part ++ right)) ++ '\n' :: (' ' :: ' ' :: marker) := by
    rw [underlined_plain]
    simp [String.toList_append, String.toList_ofList, marker]
  have lines : Text.lines ((' ' :: ' ' :: (left ++ part ++ right)) ++ '\n' :: (' ' :: ' ' :: marker)) =
      [' ' :: ' ' :: (left ++ part ++ right), ' ' :: ' ' :: marker] := by
    rw [Text.lines, Text.split_append_cons (by decide), ← Text.lines, ← Text.lines,
      Text.lines_eq_singleton, Text.lines_eq_singleton]
    · rfl
    · simp [marker]
    · simpa using one_line
  obtain ⟨n, length⟩ := Nat.exists_eq_succ_of_ne_zero (mt List.length_eq_zero_iff.1 nonempty)
  have blank : (List.replicate left.length ' ').findIdxs (fun c => c = '^' ∨ c = '~') 0 = [] := by
    rw [List.findIdxs_eq_nil_iff]
    simp
  rw [markedColumns, shown, lines]
  show marker.findIdxs _ = _
  rw [List.findIdxs_append, blank]
  simp [length, findIdxs_replicate, List.range'_succ]

end Journal

namespace Lexer.Site

variable {source : List Char} {s : Site source} {shown : String}

/-- What is shown underlines the first occurrence of the site's text in its line. So it underlines
the site itself, unless the text occurs in the line before. -/
structure FirstMarked (s : Site source) (shown : String) : Prop where
  first : ∃ first, IsLeast {k | s.piece.text <+: s.line.drop k} first ∧ first ≤ s.column ∧
    Journal.markedColumns shown = List.range' first s.piece.text.length
  own : Journal.markedColumns shown = s.columns ↔
    ∀ k < s.column, ¬ s.piece.text <+: s.line.drop k

theorem FirstMarked.of_isLeast {first : Nat} (inside : '\n' ∉ s.piece.text)
    (least : IsLeast {k | s.piece.text <+: s.line.drop k} first)
    (marked : Journal.markedColumns shown = List.range' first s.piece.text.length) :
    s.FirstMarked shown := by
  obtain ⟨left, right, line, column⟩ := s.line_eq inside
  have stands : s.piece.text <+: s.line.drop s.column := by
    rw [line, ← column, List.append_assoc, List.drop_left]
    exact List.prefix_append _ _
  have nonempty : s.piece.text.length ≠ 0 :=
    mt List.length_eq_zero_iff.1 (text_ne_nil_of_mem_pieces s.mem_pieces)
  refine ⟨⟨first, least, least.2 stands, marked⟩, ?_⟩
  have same : Journal.markedColumns shown = s.columns ↔ first = s.column := by
    rw [marked, columns, List.range'_inj]
    simp [nonempty]
  rw [same]
  constructor
  · rintro rfl k before there
    exact absurd (least.2 there) (Nat.not_le.2 before)
  · intro nowhere
    by_contra other
    exact nowhere first (Nat.lt_of_le_of_ne (least.2 stands) other) least.1

end Lexer.Site

/-- **What is shown for a problem** underlines the first occurrence of its token's text. -/
theorem Analysis.Blames.firstMarked {limits : Limits} {source path shown : String} {d : Diagnostic}
    {i : Nat} {j : Journal} (h : Blames limits source d i)
    (registered : j.source = some (path, source)) (plain : j.styled = false)
    (diagnosed : j.diagnose? d = some shown) :
    ∃ s, (Lexer.tokenSites source)[i]? = some s ∧ s.FirstMarked shown := by
  cases blamed : d.lexeme with
  | none => exact nomatch (Journal.diagnose?_of_lexeme_none blamed).symm.trans diagnosed
  | some lexeme =>
    obtain ⟨s, t, at_i, holds, mem, ne_eof, located, rfl⟩ := h.holds blamed
    obtain ⟨one_le, le⟩ := Lexer.line_of_mem_tokens mem
    obtain ⟨line, mem_lines, found⟩ := Journal.exists_lineAt? registered one_le le
    have nonempty := (Lexer.lexeme_of_mem_tokens mem ne_eof).1
    rw [Journal.diagnose?_of_lexeme_some located found blamed nonempty] at diagnosed
    obtain ⟨first, occurs, rfl⟩ := Option.map_eq_some_iff.1 diagnosed
    obtain ⟨left, right, split, rfl⟩ := Text.exists_eq_of_occurrence? occurs
    have text : t.lexeme.toList = s.piece.text := by rw [holds.lexeme, String.toList_ofList]
    have one_line := Text.not_mem_of_mem_lines mem_lines
    have inside : '\n' ∉ s.piece.text := fun newline => one_line (by simp [split, text, newline])
    -- without a newline in it, the piece ends on the line on which it begins
    have same_line : s.line = line := by
      have number : t.line.toNat - 1 = s.start.count '\n' := by
        rw [holds.line, Lexer.Site.stop, List.count_append, List.count_eq_zero.2 inside]
        omega
      rw [Journal.lineAt?_of_registered registered one_le, number] at found
      rw [Lexer.Site.line, List.getD_eq_getElem?_getD, found, Option.getD_some]
    have least : IsLeast {k | s.piece.text <+: s.line.drop k} left.length := by
      rw [same_line, ← text]
      exact Text.isLeast_of_occurrence? occurs
    refine ⟨s, at_i, .of_isLeast inside least ?_⟩
    rw [plain, split, ← text]
    exact Journal.markedColumns_underlined (by simpa using nonempty) (split ▸ one_line)

/-- **The first occurrence is underlined.** Every syntax error of a source, and every failure of its
execution, is built from a token of the source; and if its line is shown, the columns that are
marked are those of the first occurrence of the token's text in the token's line. They are the
columns of the token itself exactly if the text does not occur in the line before. For no other
problem of a source a line is shown. -/
theorem Analysis.underlines_first (limits : Limits) (source : String) :
    (∀ d ∈ (ofSource limits source).problems,
      if d.category = .grammatical then ∃ i, Blames limits source d i
      else ∀ j : Journal, j.diagnose? d = none) ∧
    (∀ (rounds depth : Nat) (m m' : Machine) (cause : Failure),
      Stmt.executeAll rounds (ofSource limits source).statements depth m =
        .error (.failure cause) m' → ∃ i, Blames limits source cause.diagnostic i) ∧
    ∀ (d : Diagnostic) (i : Nat), Blames limits source d i →
      ∀ (j : Journal) (path shown : String), j.source = some (path, source) → j.styled = false →
        j.diagnose? d = some shown →
        ∃ s, (Lexer.tokenSites source)[i]? = some s ∧ s.FirstMarked shown := by
  refine ⟨fun d mem => ?_,
    fun rounds depth m m' cause failed => exists_blames_of_failed failed,
    fun d i blames j path shown registered plain diagnosed => ?_⟩
  · split
    next category => exact exists_blames_of_grammatical mem category
    next other =>
      exact fun j => Journal.diagnose?_of_lexeme_none (lexeme_of_not_grammatical mem other)
  · exact blames.firstMarked registered plain diagnosed

/-- A semicolon that stands nowhere else in its line is underlined itself. -/
theorem Analysis.underlines_first_semicolon :
    let source := "var a;\nprint a +;"
    let shown := "  print a +;\n           ^"
    ∃ s, (Lexer.tokenSites source)[6]? = some s ∧ s.FirstMarked shown ∧
      Journal.markedColumns shown = s.columns := by
  intro source shown
  let told : Diagnostic := ⟨.grammatical, "Expect expression.", some 6, " at ';'", some ";"⟩
  have blames : Blames ⟨9, 9⟩ source (told.relocate (Token.lineAt (Lexer.tokens source))) 6 :=
    .grammatical rfl (by decide +kernel) rfl
  obtain ⟨s, at_6, first⟩ := (underlines_first ⟨9, 9⟩ source).2.2 _ 6 blames
    { source := some ("", source) } "" shown rfl rfl (by decide +kernel)
  have columns : (Lexer.tokenSites source)[6]?.map (·.columns) =
      some (Journal.markedColumns shown) := by
    decide +kernel
  rw [at_6] at columns
  exact ⟨s, at_6, first, (Option.some.inj columns).symm⟩

/-- What is underlined need not be the token: a second `print` is at fault here, and the first is
underlined. -/
theorem Analysis.underlines_other :
    ¬ ∀ (limits : Limits) (source path shown : String) (d : Diagnostic) (i : Nat) (j : Journal),
      Blames limits source d i → j.source = some (path, source) → j.styled = false →
        j.diagnose? d = some shown →
        ∃ s, (Lexer.tokenSites source)[i]? = some s ∧ Journal.markedColumns shown = s.columns := by
  intro claim
  let source := "print a print b;"
  let shown := "  print a print b;\n  ^~~~~"
  let told : Diagnostic :=
    ⟨.grammatical, "Expect ';' after value.", some 2, " at 'print'", some "print"⟩
  have blames : Blames ⟨9, 9⟩ source (told.relocate (Token.lineAt (Lexer.tokens source))) 2 :=
    .grammatical rfl (by decide +kernel) rfl
  obtain ⟨s, at_2, same⟩ := claim ⟨9, 9⟩ source "" shown _ 2 { source := some ("", source) } blames
    rfl rfl (by decide +kernel)
  have columns : (Lexer.tokenSites source)[2]?.map (·.columns) = some [8, 9, 10, 11, 12] := by
    decide +kernel
  have marked : Journal.markedColumns shown = [0, 1, 2, 3, 4] := by decide +kernel
  rw [at_2] at columns
  have equal := marked.symm.trans (same.trans (Option.some.inj columns))
  exact absurd equal (by decide)

end Lox
