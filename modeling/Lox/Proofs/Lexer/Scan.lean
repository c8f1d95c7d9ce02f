import Lox.Proofs.Lexer.Munch
import Lox.Proofs.Run.Summary

/-!
# What scanning gives

The pieces of a source decide its tokens and its problems: each piece gives one token, one problem
or nothing, with the line on which it ends (`Emits`), and the end token comes last (`EmitsAll`).
Together with the longest matches of the lexical grammar this describes scanning without reference
to the lexer; the lexer does exactly that, and with a journal that is not fatal all the problems
are recorded (`scan_munches`).
-/

namespace Lox.Lexer

/-- The tokens and problems that a piece gives which ends on this line. -/
inductive Emits (line : Int) : Piece → List Token → List Diagnostic → Prop
  | mark {kind : Kind} {text : List Char} :
    Emits line ⟨.mark kind, text⟩ [⟨kind, String.ofList text, line, .nil⟩] []
  | number {text : List Char} :
    Emits line ⟨.number, text⟩
      [⟨.number, String.ofList text, line, .num (Piece.numberValue text)⟩] []
  /-- The value of a string is its text without the quotes. -/
  | string {body : List Char} :
    Emits line ⟨.string, '"' :: body ++ ['"']⟩
      [⟨.string, String.ofList ('"' :: body ++ ['"']), line, .str (String.ofList body)⟩] []
  | keyword {text : List Char} {kind : Kind} (reserved : (String.ofList text, kind) ∈ keywords) :
    Emits line ⟨.word, text⟩ [⟨kind, String.ofList text, line, .nil⟩] []
  | identifier {text : List Char} (free : ∀ kind, (String.ofList text, kind) ∉ keywords) :
    Emits line ⟨.word, text⟩ [⟨.identifier, String.ofList text, line, .nil⟩] []
  | comment {text : List Char} : Emits line ⟨.comment, text⟩ [] []
  | blank {text : List Char} : Emits line ⟨.blank, text⟩ [] []
  | newline {text : List Char} : Emits line ⟨.newline, text⟩ [] []
  | stray {c : Char} :
    Emits line ⟨.stray, [c]⟩ []
      [⟨.lexical, "Unexpected character '" ++ String.singleton c ++ "'.", some line, "", none⟩]
  | unclosed {text : List Char} :
    Emits line ⟨.unclosed, text⟩ [] [⟨.lexical, "Unterminated string.", some line, "", none⟩]

/-- The tokens and problems of pieces that start on this line. The end token is on the last. -/
inductive EmitsAll : Int → List Piece → List Token → List Diagnostic → Prop
  | nil {line : Int} : EmitsAll line [] [⟨.eof, "", line, .nil⟩] []
  | cons {line : Int} {p : Piece} {ps : List Piece} {ts us : List Token} {ds es : List Diagnostic}
      (first : Emits (line + p.text.count '\n') p ts ds)
      (others : EmitsAll (line + p.text.count '\n') ps us es) :
    EmitsAll line (p :: ps) (ts ++ us) (ds ++ es)

theorem lookup_keywords_iff {word : String} {kind : Kind} :
    keywords.lookup word = some kind ↔ (word, kind) ∈ keywords := by
  constructor
  · intro found
    obtain ⟨before, after, eq, -⟩ := List.lookup_eq_some_iff.1 found
    rw [eq]
    exact List.mem_append_right before (List.mem_cons_self ..)
  · intro mem
    have first : ∀ entry ∈ keywords, keywords.lookup entry.1 = some entry.2 := by decide
    exact first _ mem

/-- A piece gives no more than its token and its fault. -/
theorem Emits.eq {line : Int} {p : Piece} {ts : List Token} {ds : List Diagnostic}
    (h : Emits line p ts ds) :
    ts = (p.token? line).toList ∧ ds = (p.fault? line).toList.map Fault.diagnostic := by
  cases h with
  | mark | number | comment | blank | newline | stray | unclosed => exact ⟨rfl, rfl⟩
  | string =>
    refine ⟨?_, rfl⟩
    simp [Piece.token?]
  | keyword reserved =>
    refine ⟨?_, rfl⟩
    simp [Piece.token?, lookup_keywords_iff.2 reserved]
  | @identifier text free =>
    have missing : keywords.lookup (String.ofList text) = none := by
      rw [Option.eq_none_iff_forall_ne_some]
      exact fun kind found => free kind (lookup_keywords_iff.1 found)
    refine ⟨?_, rfl⟩
    simp [Piece.token?, missing]

/-- A piece that is first somewhere gives its token or its fault. -/
theorem First.emits {cs rest : List Char} {p : Piece} (first : First cs p rest) (line : Int) :
    ∃ ts ds, Emits line p ts ds := by
  cases first with
  | longest lawful =>
    cases lawful with
    | mark => exact ⟨_, _, .mark⟩
    | integer => exact ⟨_, _, .number⟩
    | decimal => exact ⟨_, _, .number⟩
    | string => exact ⟨_, _, .string⟩
    | @word c cs =>
      by_cases reserved : ∃ kind, (String.ofList (c :: cs), kind) ∈ keywords
      · obtain ⟨kind, mem⟩ := reserved
        exact ⟨_, _, .keyword mem⟩
      · exact ⟨_, _, .identifier (not_exists.1 reserved)⟩
    | comment => exact ⟨_, _, .comment⟩
    | blank => exact ⟨_, _, .blank⟩
    | newline => exact ⟨_, _, .newline⟩
  | stray => exact ⟨_, _, .stray⟩
  | unclosed => exact ⟨_, _, .unclosed⟩

/-- **The tokens and problems of a decomposition** are those that the lexer reads off the pieces. -/
theorem emitsAll_iff {cs : List Char} {ps : List Piece} (decomposition : Decomposes cs ps)
    {line : Int} {ts : List Token} {ds : List Diagnostic} :
    EmitsAll line ps ts ds ↔
      ts = tokensFrom line ps ∧ ds = (faultsFrom line ps).map Fault.diagnostic := by
  constructor
  · intro emitted
    clear decomposition
    induction emitted with
    | nil => exact ⟨rfl, rfl⟩
    | cons first _ ih =>
      obtain ⟨rfl, rfl⟩ := first.eq
      obtain ⟨rfl, rfl⟩ := ih
      exact ⟨rfl, (List.map_append ..).symm⟩
  · rintro ⟨rfl, rfl⟩
    induction decomposition generalizing line with
    | nil => exact .nil
    | @cons cs rest p ps first _ ih =>
      obtain ⟨ts, ds, emits⟩ := first.emits (line + p.text.count '\n')
      obtain ⟨rfl, rfl⟩ := emits.eq
      rw [faultsFrom, List.map_append]
      exact .cons emits ih

/-- **Scanning is taking longest matches.** Every source has one decomposition from left to right
into longest matches of the lexical grammar, stray characters and at the end perhaps a quote that
is never closed; nothing is lost in it. Scanning gives the tokens that go with it, and with a
journal that is not fatal it ends with exactly the problems that go with it recorded. -/
theorem scan_munches (source : String) (console : Console)
    (nonfatal : console.journal.fatal = false) :
    ∃ ps ds console', (∀ qs, Decomposes source.toList qs ↔ qs = ps)
      ∧ ps.flatMap Piece.text = source.toList
      ∧ (∀ us es, EmitsAll 1 ps us es ↔ us = tokens source ∧ es = ds)
      ∧ Interaction.reportAll (diagnostics source) console = .ok () console'
      ∧ console'.journal.errors = console.journal.errors ++ ds := by
  refine ⟨pieces source.toList, diagnostics source, _, fun qs => decomposes_iff,
    flatten_pieces source.toList, fun us es => ?_,
    Interaction.reportAll_of_nonfatal nonfatal (diagnostics source),
    Interaction.errors_reportedAll (diagnostics source) console⟩
  exact emitsAll_iff (decomposes_pieces source.toList)

/-- A point and a slash at the end of a line, a null character, and a quote that stays open. -/
theorem scan_munches_unclosed :
    let source := "1.5.x/\n\x00//.\n\"a"
    let console : Console := { journal := {} }
    console.journal.fatal = false
      ∧ ∃ ps ds console', (∀ qs, Decomposes source.toList qs ↔ qs = ps)
        ∧ ps.flatMap Piece.text = source.toList
        ∧ (∀ us es, EmitsAll 1 ps us es ↔ us = tokens source ∧ es = ds)
        ∧ Interaction.reportAll (diagnostics source) console = .ok () console'
        ∧ console'.journal.errors = console.journal.errors ++ ds := by
  intro source console
  exact ⟨rfl, scan_munches source console rfl⟩

end Lox.Lexer
