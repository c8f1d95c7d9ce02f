import Lox.Proofs.Eval.Blame
import Lox.Proofs.Lexer.Place
import Lox.Proofs.Parser.Origin
import Lox.Proofs.Session.Records

/-!
# Every located problem can be shown

A problem that is reported with a line is located in its source: it is a fault of the lexer, or it
is blamed on a token of the source, or on its end (`Diagnostic.Located`). So its line is one of the
source's, and a journal in which the source is registered finds the blamed text in that line, unless
there is no such text or it spans lines (`Diagnostic.Shown`). This holds for everything that a
session reports, whichever way it looks at the source (`Session.reports_shown`).

The lines are counted by the lexer and looked up by splitting the source at its newlines; that the
two agree is shown with the tokens' places. The blamed tokens are found again through parsing, which
makes up none, and through execution, which blames only tokens that the statements keep.
-/

namespace Lox

open Lexer (lineBreaks)

/-! ### Where problems are located -/

/-- The problem is located on this line of the source. -/
inductive Diagnostic.Located (source : String) : Diagnostic → Int → Prop
  | fault {f : Lexer.Fault} (mem : f ∈ Lexer.faults source) : Located source f.diagnostic f.line
  /-- A problem of parsing or execution that is blamed on a token. -/
  | token {d : Diagnostic} {t : Token} (mem : t ∈ Lexer.tokens source) (ne_eof : t.kind ≠ .eof)
      (not_lexical : d.category ≠ .lexical) (place : d.place = placeOf t.lexeme)
      (lexeme : d.lexeme = some t.lexeme) : Located source d t.line
  /-- A problem of parsing at the end. -/
  | finish {t : Token} {message : String} (mem : t ∈ Lexer.tokens source) (eof : t.kind = .eof) :
    Located source (.atToken .grammatical t message) t.line
  | overflow {t : Token} (mem : t ∈ Lexer.tokens source) :
    Located source (.tooDeep (some t.line)) t.line

namespace Analysis

variable {limits : Limits} {source : String}

/-- Every problem found without execution is located. -/
theorem located_of_mem {d : Diagnostic} (mem : d ∈ (ofSource limits source).problems) :
    ∃ n, d.line = some n ∧ d.Located source n := by
  have ends := Lexer.exists_eof source
  rcases List.mem_append.1 mem with lexical | parsing
  · obtain ⟨f, fault, rfl⟩ := List.mem_map.1 lexical
    exact ⟨f.line, rfl, .fault fault⟩
  rcases List.mem_append.1 parsing with complained | deep
  · obtain ⟨c, complaint, rfl⟩ := List.mem_map.1 complained
    rw [Parsed.eof_ofTokens, Parser.Complaint.diagnostic]
    have blamed : c.blamed.getD (Parsed.closing (Lexer.tokens source)) ∈ Lexer.tokens source := by
      cases eq : c.blamed with
      | none => exact Parsed.closing_mem ends
      | some t => exact Parsed.mem_of_blamed ends complaint eq
    generalize c.blamed.getD (Parsed.closing (Lexer.tokens source)) = t at blamed
    by_cases eof : t.kind = .eof
    · exact ⟨t.line, by rw [Diagnostic.atToken, if_pos eof], .finish blamed eof⟩
    · rw [Diagnostic.atToken, if_neg eof]
      exact ⟨t.line, rfl, .token blamed eof (by simp) rfl rfl⟩
  · obtain ⟨t, exceeded, rfl⟩ := List.mem_map.1 deep
    exact ⟨t.line, rfl, .overflow (Parsed.mem_of_overflow ends (Option.mem_toList.1 exceeded))⟩

/-- Every failure of the statements is located. -/
theorem located_of_failed {rounds depth : Nat} {m m' : Machine} {cause : Failure}
    (failed : Stmt.executeAll rounds (ofSource limits source).statements depth m =
      .error (.failure cause) m') :
    ∃ n, cause.diagnostic.line = some n ∧ cause.diagnostic.Located source n := by
  have executable : Stmt.AllExecutable (ofSource limits source).statements :=
    (Stmt.allWellFormed_iff.2 fun s mem => Parsed.wellFormed_of_mem mem).executable
  obtain ⟨t, mem, located⟩ := Stmt.executeAll_failsOnly rounds executable depth failed
  obtain ⟨stored, blamable⟩ := executable.of_mem_blamable mem
  have blamed := located.diagnostic_at blamable.kind_ne_eof
  have not_lexical : cause.diagnostic.category ≠ .lexical := by
    rw [blamed.category]
    exact fun h => nomatch h
  exact ⟨t.line, blamed.line, .token (Parsed.mem_of_stored (Lexer.exists_eof source) stored)
    blamable.kind_ne_eof not_lexical blamed.place blamed.lexeme⟩

end Analysis

/-! ### Looking up a line -/

namespace Journal

variable {j : Journal} {path text : String} {n : Int}

theorem lineAt?_of_registered (registered : j.source = some (path, text)) (pos : 1 ≤ n) :
    j.lineAt? n = (Text.lines text.toList)[n.toNat - 1]? := by
  rw [lineAt?, registered]
  exact if_pos (by omega)

theorem exists_lineAt? (registered : j.source = some (path, text)) (one_le : 1 ≤ n)
    (le : n ≤ 1 + lineBreaks text) : ∃ line ∈ Text.lines text.toList, j.lineAt? n = some line := by
  have bound : n.toNat - 1 < (Text.lines text.toList).length := by
    rw [Text.lines, Text.length_split, ← List.count_eq_countP, ← lineBreaks]
    omega
  refine ⟨_, List.getElem_mem bound, ?_⟩
  rw [lineAt?_of_registered registered one_le, List.getElem?_eq_getElem bound]

/-- A line that is shown without a style: the line, and a mark below the underlined part. -/
theorem underlined_plain (left part right : List Char) :
    underlined false (left ++ part ++ right) left.length part.length =
      "  " ++ String.ofList (left ++ part ++ right) ++ "\n"
        ++ "  " ++ String.ofList (List.replicate left.length ' ')
        ++ String.ofList ('^' :: List.replicate (part.length - 1) '~') := by
  have first : (left ++ part ++ right).take left.length = left := by
    rw [List.append_assoc, List.take_left]
  have second : ((left ++ part ++ right).drop left.length).take part.length = part := by
    rw [List.append_assoc, List.drop_left, List.take_left]
  have third : (left ++ part ++ right).drop (left.length + part.length) = right := by
    rw [← List.length_append, List.drop_left]
  simp only [underlined, Text.bold, Bool.false_eq_true, if_false, first, second, third,
    String.ofList_append, String.append_assoc]

/-- A problem without a lexeme is not shown in its line. -/
theorem diagnose?_of_lexeme_none {d : Diagnostic} (blamed : d.lexeme = none) :
    j.diagnose? d = none := by
  rw [diagnose?, blamed]
  cases d.line with
  | none => rfl
  | some n =>
    show ((j.lineAt? n).bind fun _ => none) = none
    cases j.lineAt? n <;> rfl

/-- A problem with a lexeme is shown as the search for the lexeme in the line says. -/
theorem diagnose?_of_lexeme_some {d : Diagnostic} {line : List Char} {lexeme : String}
    (located : d.line = some n) (found : j.lineAt? n = some line) (blamed : d.lexeme = some lexeme)
    (nonempty : lexeme ≠ "") :
    j.diagnose? d = (Text.occurrence? lexeme.toList line).map
      (underlined j.styled line · lexeme.length) := by
  rw [Option.map_eq_bind]
  simp [diagnose?, located, found, blamed, nonempty]

end Journal

/-! ### Showing a problem -/

/-- The problem can be shown on this line of the source: in a journal in which the source is
registered, the line is found with the blamed text in it, if there is a text that one line holds. -/
structure Diagnostic.Shown (source : String) (d : Diagnostic) (n : Int) : Prop where
  one_le : 1 ≤ n
  le : n ≤ 1 + lineBreaks source
  /-- The problems that blame no text. -/
  lexeme_eq_none_iff : d.lexeme = none ↔
    d.category = .lexical ∨ d.place = " at end" ∨ d = Diagnostic.tooDeep (some n)
  diagnose?_eq_none_iff {j : Journal} {path : String} (registered : j.source = some (path, source)) :
    j.diagnose? d = none ↔ d.lexeme = none ∨ ∃ lexeme ∈ d.lexeme, '\n' ∈ lexeme.toList
  /-- The line is shown with the text marked where it stands. -/
  diagnose?_eq_some {j : Journal} {path lexeme : String}
    (registered : j.source = some (path, source)) (blamed : d.lexeme = some lexeme)
    (inside : '\n' ∉ lexeme.toList) :
    ∃ left right, j.lineAt? n = some (left ++ lexeme.toList ++ right) ∧ (j.styled = false →
      j.diagnose? d = some ("  " ++ String.ofList (left ++ lexeme.toList ++ right) ++ "\n"
        ++ "  " ++ String.ofList (List.replicate left.length ' ')
        ++ String.ofList ('^' :: List.replicate (lexeme.length - 1) '~')))

namespace Diagnostic

variable {source : String} {d : Diagnostic} {n : Int}

/-- A problem that blames no text is shown by its line number alone. -/
theorem Shown.of_lexeme_none (one_le : 1 ≤ n) (le : n ≤ 1 + lineBreaks source)
    (blamed : d.lexeme = none) (kind : d.category = .lexical ∨ d.place = " at end" ∨
      d = Diagnostic.tooDeep (some n)) : d.Shown source n where
  one_le := one_le
  le := le
  lexeme_eq_none_iff := iff_of_true blamed kind
  diagnose?_eq_none_iff _ := iff_of_true (Journal.diagnose?_of_lexeme_none blamed) (.inl blamed)
  diagnose?_eq_some _ h := nomatch blamed.symm.trans h

/-- The place of a lexeme is not the end. -/
theorem placeOf_ne_end (lexeme : String) : placeOf lexeme ≠ " at end" := by
  intro h
  have letters := congrArg (fun s => s.toList[4]?) h
  simp [placeOf] at letters

/-- A problem that blames a token is shown in the token's line. -/
theorem Shown.of_token {t : Token} (mem : t ∈ Lexer.tokens source) (ne_eof : t.kind ≠ .eof)
    (located : d.line = some t.line) (not_lexical : d.category ≠ .lexical)
    (place : d.place = placeOf t.lexeme) (blamed : d.lexeme = some t.lexeme) :
    d.Shown source t.line := by
  obtain ⟨one_le, le⟩ := Lexer.line_of_mem_tokens mem
  obtain ⟨nonempty, stands⟩ := Lexer.lexeme_of_mem_tokens mem ne_eof
  refine ⟨one_le, le, ?_, ?_, ?_⟩
  · refine iff_of_false (by simp [blamed]) ?_
    rintro (lexical | at_end | rfl)
    · exact not_lexical lexical
    · exact placeOf_ne_end _ (place.symm.trans at_end)
    · cases blamed
  · intro j path registered
    obtain ⟨line, mem_lines, found⟩ := Journal.exists_lineAt? registered one_le le
    rw [Journal.diagnose?_of_lexeme_some located found blamed nonempty, Option.map_eq_none_iff,
      Text.occurrence?_eq_none_iff, blamed]
    constructor
    · intro absent
      refine .inr ⟨t.lexeme, rfl, by_contra fun inside => absent ?_⟩
      obtain ⟨left, right, stands⟩ := stands inside
      rw [← Journal.lineAt?_of_registered registered one_le, found] at stands
      exact ⟨left, right, (Option.some.inj stands).symm⟩
    · rintro (none | ⟨lexeme, eq, newline⟩) occurs
      · cases none
      · cases eq
        exact absurd (Text.eq_false_of_mem_split mem_lines _ (occurs.subset newline)) (by decide)
  · intro j path lexeme registered eq inside
    cases blamed.symm.trans eq
    obtain ⟨before, after, stands⟩ := stands inside
    have found := (Journal.lineAt?_of_registered registered one_le).trans stands
    have shown := Journal.diagnose?_of_lexeme_some located found blamed nonempty
    -- the occurrence that is marked need not be the token itself
    cases first : Text.occurrence? t.lexeme.toList (before ++ t.lexeme.toList ++ after) with
    | none => exact absurd ⟨before, after, rfl⟩ (Text.occurrence?_eq_none_iff.1 first)
    | some start =>
      obtain ⟨left, right, line, rfl⟩ := Text.exists_eq_of_occurrence? first
      rw [line] at found shown
      refine ⟨left, right, found, fun plain => ?_⟩
      rw [shown, plain, ← line, first]
      exact congrArg some (line ▸ Journal.underlined_plain left t.lexeme.toList right)

/-- **A located problem can be shown.** -/
theorem Located.shown (located : d.Located source n) (line : d.line = some n) :
    d.Shown source n := by
  cases located with
  | fault mem =>
    obtain ⟨one_le, le⟩ := Lexer.line_of_mem_faults mem
    exact .of_lexeme_none one_le le rfl (.inl rfl)
  | token mem ne_eof not_lexical place lexeme =>
    exact .of_token mem ne_eof line not_lexical place lexeme
  | finish mem eof =>
    obtain ⟨one_le, le⟩ := Lexer.line_of_mem_tokens mem
    exact .of_lexeme_none one_le le (by rw [atToken, if_pos eof])
      (.inr (.inl (by rw [atToken, if_pos eof])))
  | overflow mem =>
    obtain ⟨one_le, le⟩ := Lexer.line_of_mem_tokens mem
    exact .of_lexeme_none one_le le rfl (.inr (.inr rfl))

end Diagnostic

/-! ### Sessions -/

namespace Session

/-- Since the problems before, only such have been recorded of this source as can be shown in it if
they have a line. -/
def Shows (path source : String) (before : List Diagnostic) (j : Journal) : Prop :=
  ∃ reported, j.errors = before ++ reported ∧ j.source = some (path, source) ∧
    ∀ d ∈ reported, ∀ n, d.line = some n → d.Shown source n

/-- Whatever records only problems that can be shown, shows them. -/
theorem shows_of_records {ε α : Type} {action : EStateM ε Session α} {source : String}
    {s : Session} (registered : s.journal.source = some (s.path, source))
    (records : Records journal (fun d => ∀ n, d.line = some n → d.Shown source n) action) :
    Shows s.path source s.journal.errors (finalState (action s)).journal := by
  obtain ⟨recorded, eq, all⟩ := records s
  rw [eq]
  exact ⟨recorded, rfl, registered, all⟩

/-- **Everything that a session reports with a line can be shown**: by a run, whatever scopes it
starts from, and by looking at the tokens or the statements. -/
theorem reports_shown (limits : Limits) (given : Option String) (s : Session) :
    let text := given.getD s.source
    Shows s.path text [] (finalState (run limits given s)).journal
      ∧ Shows s.path text s.journal.errors (finalState (tokens given s)).journal
      ∧ Shows s.path text s.journal.errors (finalState (statements limits given s)).journal := by
  intro text
  have problem : ∀ d ∈ (Analysis.ofSource limits text).problems,
      ∀ n, d.line = some n → d.Shown text n := by
    intro d mem n line
    obtain ⟨m, at_line, located⟩ := Analysis.located_of_mem mem
    cases line.symm.trans at_line
    exact located.shown line
  have lexical := Interaction.reportAll_records fun d mem =>
    problem d (List.mem_append_left _ mem)
  have grammatical := Interaction.reportAll_records fun d mem =>
    problem d (List.mem_append_right _ mem)
  refine ⟨?_, ?_, ?_⟩
  · rw [run_eq]
    refine shows_of_records rfl (onWorkspace_records (run_records problem ?_ ?_))
    · intro n line
      cases line
    · intro m cause m' failed n line
      obtain ⟨l, at_line, located⟩ := Analysis.located_of_failed failed
      cases line.symm.trans at_line
      exact located.shown line
  · rw [tokens_eq]
    exact shows_of_records rfl ((onConsole_records lexical).bind fun _ => .pure _)
  · rw [statements_eq]
    exact shows_of_records rfl ((onConsole_records lexical).bind fun _ =>
      (onConsole_records grammatical).bind fun _ => .pure _)

end Session

end Lox
