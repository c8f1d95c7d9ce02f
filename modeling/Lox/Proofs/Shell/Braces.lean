import Lox.Proofs.Lexer.Front
import Lox.Proofs.Shell.Typing

/-!
# Open braces tell what is unfinished

The shell counts the braces of what was typed so far, which can stop anywhere in a program, also
inside a string or a comment. The count agrees with the grammar all the same: a program without
problems never closes more than it opened up to any character, and while a block is typed, braces
are open from the character that opens it to the one before the character that closes it, and at no
other time (`braces_of_program`). So the shell keeps the lines of a block until the one that closes
it, and runs them then (`feed_lines_of_block`).
-/

namespace Lox

variable {limits : Limits} {source : String}

/-! ### Sources without problems -/

namespace Analysis

open Lexer

/-- The pieces of a source without problems are lawful. -/
theorem lawful_of_clean (clean : (ofSource limits source).problems = []) :
    ∀ p ∈ pieces source.toList, p.Lawful := by
  obtain ⟨no_faults, -⟩ := clean_iff.1 ⟨clean, rfl⟩
  intro p mem
  have sound := faultsFrom_eq_nil_iff.1 no_faults p mem
  rcases mem_pieces_cases mem with lawful | ⟨c, rfl, -⟩ | ⟨body, rfl, -⟩
  · exact lawful
  · cases sound
  · cases sound

/-- The kinds of a source without problems are those of its statements. -/
theorem kindsOf_of_clean (clean : (ofSource limits source).problems = []) :
    kindsOf source.toList = Symbol.kinds (Stmt.flattenAll (ofSource limits source).statements) := by
  rw [← map_kind_dropLast_tokens, (kinds_of_clean clean).1]

/-- A source that is a block stands in braces. -/
theorem exists_enclosed_of_block (clean : (ofSource limits source).problems = [])
    {body : List Stmt} (block : (ofSource limits source).statements = [.block body]) :
    ∃ b : Enclosed source, Kind.Balanced (b.inside.filterMap Piece.kind?) := by
  have kinds := kindsOf_of_clean clean
  have wellFormed := (kinds_of_clean clean).2
  rw [block] at kinds wellFormed
  have written : Symbol.kinds (Stmt.flattenAll [.block body]) =
      .leftBrace :: (Symbol.kinds (Stmt.flattenAll body) ++ [.rightBrace]) := by
    rw [Stmt.flattenAll, Stmt.flattenAll, List.append_nil, Stmt.flatten, Symbol.kinds,
      List.map_cons, List.map_append]
    rfl
  obtain ⟨b, inside⟩ := Enclosed.exists_of_kinds (kinds.trans written)
  refine ⟨b, ?_⟩
  rw [inside]
  exact Stmt.balanced_all wellFormed.1

/-- **A source without problems** never closes more braces than it opened, wherever it is cut. -/
theorem openBraces_nonneg_of_front (clean : (ofSource limits source).problems = [])
    {front : String} (within : front.toList <+: source.toList) : 0 ≤ openBraces front := by
  obtain ⟨ps, among, same⟩ := exists_pieces_of_front (lawful_of_clean clean) within
  have balanced := Stmt.balanced_all (kinds_of_clean clean).2
  rw [openBraces_eq, same]
  refine balanced.front _ ?_
  rw [← kindsOf_of_clean clean]
  exact among.filterMap _

end Analysis

/-- **Within a block and only there** a brace is open, also with a newline behind the source. -/
theorem Lexer.Enclosed.openBraces_pos_iff (b : Lexer.Enclosed source)
    (clean : (Analysis.ofSource limits source).problems = [])
    (balanced : Kind.Balanced (b.inside.filterMap Lexer.Piece.kind?)) {front : String}
    (within : front.toList <+: source.toList ++ ['\n']) :
    0 < Lexer.openBraces front ↔ b.opening < front.length ∧ front.length ≤ b.closing := by
  rcases List.prefix_concat_iff.1 within with whole | within
  · -- a newline more is another source without problems
    have eq : front = source ++ "\n" := by
      rw [← String.toList_inj, whole, String.toList_append]
      rfl
    have longer := (Analysis.ofSource_append clean (Analysis.clean_empty limits)).1
    rw [String.append_empty, ← eq] at longer
    have none := Analysis.openBraces_of_clean longer
    have closed := b.closing_lt
    have length : front.length = source.length + 1 := by rw [eq, String.length_append]; rfl
    omega
  · rw [Lexer.openBraces_eq, b.braces_pos_iff (Analysis.lawful_of_clean clean) balanced within,
      String.length_toList]

/-! ### In the shell -/

namespace Shell

/-- What the count of open braces tells about a source. -/
structure Counts (limits : Limits) (source : String) : Prop where
  /-- The source closes the braces that it opens. -/
  total : Lexer.openBraces source = 0
  /-- It never closes more than it opened, wherever it is cut. -/
  front : ∀ front rest : String, front ++ rest = source → 0 ≤ Lexer.openBraces front
  /-- If it is a block, braces are open within the block and only there. So the shell keeps what was
  typed as long as the block is open, and runs it with the line that closes the block. -/
  block : ∀ body, (Analysis.ofSource limits source).statements = [.block body] →
    ∃ b : Lexer.Enclosed source,
      (∀ front rest : String, front ++ rest = source →
        (0 < Lexer.openBraces front ↔ b.opening < front.length ∧ front.length ≤ b.closing)) ∧
      ∀ (s : Shell) (line text rest : String), s.pending ++ line ++ "\n" = text →
        text ++ rest = source ++ "\n" → b.opening < text.length →
        feed limits line s =
          if text.length ≤ b.closing then
            .ok () { s with pending := text, prompt := secondaryPrompt }
          else afterRun (Session.run limits (some text) s.session)

/-- **The count of open braces agrees with the grammar** for every source without problems. -/
theorem braces_of_program (clean : (Analysis.ofSource limits source).problems = []) :
    Counts limits source where
  total := Analysis.openBraces_of_clean clean
  front front rest split := Analysis.openBraces_nonneg_of_front clean
    ⟨rest.toList, by rw [← split, String.toList_append]⟩
  block body block := by
    obtain ⟨b, balanced⟩ := Analysis.exists_enclosed_of_block clean block
    refine ⟨b, fun front rest split => ?_, fun s line text rest typed split opened => ?_⟩
    · refine b.openBraces_pos_iff clean balanced ⟨rest.toList ++ ['\n'], ?_⟩
      rw [← split, String.toList_append, List.append_assoc]
    · have braces : 0 < Lexer.openBraces text ↔ b.opening < text.length ∧ text.length ≤ b.closing :=
        b.openBraces_pos_iff clean balanced
          ⟨rest.toList, by rw [← String.toList_append, split, String.toList_append]; rfl⟩
      by_cases inside : text.length ≤ b.closing
      · rw [if_pos inside, ← typed]
        exact feed_of_open (typed ▸ braces.2 ⟨opened, inside⟩)
      · rw [if_neg inside, ← typed]
        refine feed_of_finished (Int.not_lt.1 fun unfinished => inside ?_)
        exact (braces.1 (typed ▸ unfinished)).2

/-- A block with braces in a comment and in a string. -/
theorem braces_of_program_block :
    let source := "\x7b // \x7d\nprint \"\x7d\"; \x7d"
    (Analysis.ofSource ⟨9, 9⟩ source).problems = [] ∧
      (Analysis.ofSource ⟨9, 9⟩ source).statements =
        [.block [.print (.literal ⟨.string, "\"\x7d\"", 2, .str "\x7d"⟩)]] ∧
      Counts ⟨9, 9⟩ source := by
  intro source
  have clean : (Analysis.ofSource ⟨9, 9⟩ source).problems = [] := by decide +kernel
  exact ⟨clean, by decide +kernel, braces_of_program clean⟩

/-! ### Line by line -/

/-- **Lines of an unfinished entry** are kept one after the other. -/
theorem feed_lines_of_open (limits : Limits) {lines : List String} {s : Shell}
    (unfinished : ∀ front, front ≠ [] → front <+: lines →
      0 < Lexer.openBraces (s.pending ++ textOf front)) :
    ∃ prompt, lines.forM (feed limits) s =
      .ok () { s with pending := s.pending ++ textOf lines, prompt } := by
  induction lines generalizing s with
  | nil => exact ⟨s.prompt, by rw [textOf, String.append_empty]; rfl⟩
  | cons line lines ih =>
    have assoc (front : List String) :
        s.pending ++ textOf (line :: front) = s.pending ++ line ++ "\n" ++ textOf front := by
      rw [textOf, String.append_assoc, String.append_assoc, String.append_assoc]
    have opened := unfinished [line] (List.cons_ne_nil _ _) (List.prefix_append [line] lines)
    rw [assoc, textOf, String.append_empty] at opened
    have kept : feed limits line s =
        .ok () { s with pending := s.pending ++ line ++ "\n", prompt := secondaryPrompt } :=
      feed_of_open opened
    obtain ⟨prompt, others⟩ :=
      ih (s := { s with pending := s.pending ++ line ++ "\n", prompt := secondaryPrompt })
        fun front _ among => assoc front ▸
          unfinished (line :: front) (List.cons_ne_nil _ _) (List.cons_prefix_cons.2 ⟨rfl, among⟩)
    refine ⟨prompt, ?_⟩
    show (feed limits line >>= fun _ => lines.forM (feed limits)).run s = _
    rw [EStateM.run_bind, EStateM.run, kept, assoc]
    exact others

/-- **Lines up to the end of an entry** are run with the last one, all at once. -/
theorem feed_lines_of_finished {lines : List String} {last : String} {s : Shell}
    (unfinished : ∀ front, front ≠ [] → front <+: lines →
      0 < Lexer.openBraces (s.pending ++ textOf front))
    (finished : Lexer.openBraces (s.pending ++ textOf (lines ++ [last])) ≤ 0) :
    (lines ++ [last]).forM (feed limits) s =
      afterRun (Session.run limits (some (s.pending ++ textOf (lines ++ [last]))) s.session) := by
  obtain ⟨prompt, kept⟩ := feed_lines_of_open limits unfinished
  have text :
      s.pending ++ textOf (lines ++ [last]) = s.pending ++ textOf lines ++ last ++ "\n" := by
    rw [textOf_concat, String.append_assoc, String.append_assoc, String.append_assoc]
  rw [text] at finished ⊢
  have ran : feed limits last { s with pending := s.pending ++ textOf lines, prompt } = _ :=
    feed_of_finished finished
  show ((lines ++ [last]).forM (feed limits)).run s = _
  rw [List.forM_eq_forM, List.forM_append, EStateM.run_bind, EStateM.run, ← List.forM_eq_forM, kept]
  show (feed limits last >>= fun _ => pure ()).run
    { s with pending := s.pending ++ textOf lines, prompt } = _
  rw [EStateM.run_bind, EStateM.run, ran]
  cases Session.run limits (some (s.pending ++ textOf lines ++ last ++ "\n")) s.session <;> rfl

/-- **A block line by line**: if it is opened in the first of the lines and closed in the last one,
nothing is run before the last line, and with it the whole text is run. -/
theorem feed_lines_of_block (clean : (Analysis.ofSource limits source).problems = [])
    {body : List Stmt} (block : (Analysis.ofSource limits source).statements = [.block body]) :
    ∃ b : Lexer.Enclosed source, ∀ (s : Shell) (lines : List String) (last rest : String),
      s.pending = "" → textOf (lines ++ [last]) ++ rest = source ++ "\n" →
      (∀ first ∈ lines.head?, b.opening ≤ first.length) → (textOf lines).length ≤ b.closing →
      b.closing < (textOf (lines ++ [last])).length →
      (lines ++ [last]).forM (feed limits) s =
        afterRun (Session.run limits (some (textOf (lines ++ [last]))) s.session) := by
  obtain ⟨b, balanced⟩ := Analysis.exists_enclosed_of_block clean block
  refine ⟨b, fun s lines last rest fresh split opens closes closed => ?_⟩
  have pending (text : String) : s.pending ++ text = text := by rw [fresh, String.empty_append]
  have braces (front more : List String) (eq : front ++ more = lines ++ [last]) :
      0 < Lexer.openBraces (textOf front) ↔
        b.opening < (textOf front).length ∧ (textOf front).length ≤ b.closing := by
    refine b.openBraces_pos_iff clean balanced ⟨(textOf more ++ rest).toList, ?_⟩
    rw [← String.toList_append, ← String.append_assoc, ← textOf_append, eq, split,
      String.toList_append]
    rfl
  rw [← pending (textOf (lines ++ [last]))]
  refine feed_lines_of_finished ?_ ?_
  · rintro (_ | ⟨first, others⟩) ne ⟨more, rfl⟩
    · exact absurd rfl ne
    · have opened := opens first rfl
      rw [pending, braces _ (more ++ [last]) (List.append_assoc ..).symm]
      rw [textOf_append, String.length_append] at closes
      rw [textOf, String.length_append, String.length_append] at closes ⊢
      have newline : "\n".length = 1 := rfl
      omega
  · refine Int.not_lt.1 fun unfinished => ?_
    rw [pending, braces _ [] (List.append_nil _)] at unfinished
    omega

end Shell

end Lox
