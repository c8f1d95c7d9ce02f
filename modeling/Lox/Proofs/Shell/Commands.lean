import Lox.Proofs.Lexer.Marks
import Lox.Proofs.Shell.Entries

/-!
# Commands are not programs

The shell knows a command by its words: the line starts with the word of a command and goes on with
identifiers. It never asks whether the line is a program. No program is lost by that, since a line
that is taken for a command has problems as a source (`problems_of_command`).

For a source without problems is empty but for comments, or it has a statement, and every statement
ends in a semicolon or a closing brace (`Stmt.ends`). The line of a command has letters, digits,
underscores and blanks, and marks are none of them. The one exception is a question mark in front,
with which no piece of a program begins.
-/

namespace Lox

/-! ### How statements end -/

/-- The kinds in which statements end. -/
def Kind.endsStatement (k : Kind) : Prop := k = .semicolon ∨ k = .rightBrace

/-- **A statement ends** in a semicolon or a closing brace. -/
theorem Stmt.ends {s : Stmt} (h : s.WellFormed) :
    ∃ before last, s.flatten = before ++ [last] ∧ last.kind.endsStatement := by
  cases s with
  | expression e => exact ⟨e.flatten, _, rfl, .inl rfl⟩
  | print e => exact ⟨.implied .kwPrint :: e.flatten, _, rfl, .inl rfl⟩
  | var name initializer =>
    cases initializer with
    | none => exact ⟨[.implied .kwVar, .stored name], _, rfl, .inl rfl⟩
    | some e =>
      exact ⟨.implied .kwVar :: .stored name :: .implied .equal :: e.flatten, _, rfl, .inl rfl⟩
  | block body => exact ⟨.implied .leftBrace :: Stmt.flattenAll body, _, rfl, .inr rfl⟩
  | ifThen condition yes =>
    obtain ⟨before, last, eq, kind⟩ := Stmt.ends h.2.2
    exact ⟨.implied .kwIf :: (condition.flattenCondition ++ before), last,
      by simp [Stmt.flatten, eq], kind⟩
  | ifElse condition yes no =>
    obtain ⟨before, last, eq, kind⟩ := Stmt.ends h.2.2.2
    exact ⟨.implied .kwIf ::
      (condition.flattenCondition ++ (yes.flatten ++ .implied .kwElse :: before)), last,
      by simp [Stmt.flatten, eq], kind⟩
  | loop condition body =>
    obtain ⟨before, last, eq, kind⟩ := Stmt.ends h.2.2
    exact ⟨.implied .kwWhile :: (condition.flattenCondition ++ before), last,
      by simp [Stmt.flatten, eq], kind⟩
  | foreign _ => cases h

/-- A writing has a token for every symbol. -/
theorem Symbol.exists_fits {ss : List Symbol} {ts : List Token} (fits : List.Forall₂ Fits ss ts)
    {s : Symbol} (mem : s ∈ ss) : ∃ t ∈ ts, s.Fits t := by
  induction fits with
  | nil => cases mem
  | cons first _ ih =>
    rcases List.mem_cons.1 mem with rfl | later
    · exact ⟨_, List.mem_cons_self, first⟩
    · obtain ⟨t, among, fits⟩ := ih later
      exact ⟨t, List.mem_cons_of_mem _ among, fits⟩

/-- **A source without problems** has a semicolon or a closing brace, if it has any token. -/
theorem Analysis.exists_end_of_clean {limits : Limits} {source : String}
    (clean : (ofSource limits source).problems = [])
    (tokens : (Lexer.tokens source).dropLast ≠ []) :
    ';' ∈ source.toList ∨ '\x7d' ∈ source.toList := by
  obtain ⟨-, fits, wellFormed, -⟩ := clean_iff.1 ⟨clean, rfl⟩
  generalize (ofSource limits source).statements = ss at fits wellFormed
  cases ss with
  | nil => exact absurd (List.forall₂_nil_left_iff.1 fits) tokens
  | cons s ss =>
    obtain ⟨before, last, eq, kind⟩ := Stmt.ends wellFormed.1
    have written : last ∈ Stmt.flattenAll (s :: ss) := by simp [Stmt.flattenAll, eq]
    obtain ⟨t, among, fits⟩ := Symbol.exists_fits fits written
    have mem : t ∈ Lexer.tokens source := (List.dropLast_sublist _).subset among
    have stands (known : t.kind ∈ Lexer.markKinds) := Lexer.mem_of_mark mem known
    rw [fits.kind_eq] at stands
    rcases kind with semicolon | rightBrace
    · rw [semicolon] at stands
      obtain ⟨text, known, inside⟩ := stands (by decide)
      have spelled : text = [';'] := by simpa [Lexer.marks] using known
      exact .inl (inside.subset (by simp [spelled]))
    · rw [rightBrace] at stands
      obtain ⟨text, known, inside⟩ := stands (by decide)
      have spelled : text = ['\x7d'] := by simpa [Lexer.marks] using known
      exact .inr (inside.subset (by simp [spelled]))

/-! ### What the line of a command is made of -/

/-- A character that is not blank is left when the blanks at both ends are dropped. -/
theorem Text.mem_strip {c : Char} {cs : List Char} (mem : c ∈ cs) (h : isBlank c = false) :
    c ∈ strip cs := by
  obtain ⟨blanks, eq, blank⟩ := dropWhile_eq_strip_append cs
  have not_blank : ¬ isBlank c = true := by simp [h]
  rw [← List.takeWhile_append_dropWhile (p := isBlank) (l := cs), eq] at mem
  rcases List.mem_append.1 mem with front | rest
  · exact absurd (List.mem_takeWhile_imp front) not_blank
  · exact (List.mem_append.1 rest).resolve_right fun behind => not_blank (blank c behind)

theorem Text.isIdentifierPart_of_isIdentifier {c : Char} {word : List Char}
    (h : isIdentifier word = true) (mem : c ∈ word) : isIdentifierPart c = true := by
  cases word with
  | nil => cases mem
  | cons d ds =>
    obtain ⟨start, parts⟩ := Bool.and_eq_true_iff.1 h
    rcases List.mem_cons.1 mem with rfl | later
    · unfold isIdentifierStart at start
      unfold isIdentifierPart
      split
      next ascii =>
        rw [if_pos ascii, Bool.or_eq_true] at start
        rw [Char.isAlphanum, Bool.or_eq_true, Bool.or_eq_true]
        exact start.imp_left .inl
      next wide =>
        rw [if_neg wide] at start
        rw [start, Bool.true_or]
    · exact List.all_eq_true.1 parts c later

/-- No piece begins with a question mark. -/
theorem Lexer.fault_of_question_mark (rest : List Char) :
    ¬ ∀ p ∈ pieces ('?' :: rest), p.fault? 0 = none := by
  rw [pieces_cons]
  intro none
  cases none _ List.mem_cons_self

/-- Without blanks in front, a text scans alike. -/
theorem Lexer.reduces_strip (cs : List Char) :
    ∃ blanks, Reduces (pieces cs) (pieces (Text.strip cs ++ blanks)) := by
  obtain ⟨blanks, eq, -⟩ := Text.dropWhile_eq_strip_append cs
  have blank : ∀ c ∈ cs.takeWhile Text.isBlank, Text.isBlank c = true :=
    fun c => List.mem_takeWhile_imp
  have front := reduces_blanks blank (cs.dropWhile Text.isBlank)
  rw [List.takeWhile_append_dropWhile, eq] at front
  exact ⟨blanks, front⟩

namespace Entry

variable {pending line text argument : String} {command : Command}

/-- A question mark in front stands for the help command. -/
def expand : List Char → List Char
  | '?' :: rest => "help ".toList ++ rest
  | chars => chars

/-- What characters mean to the shell if no entry is unfinished. -/
def ofChars (chars : List Char) : Entry :=
  match Command.ofWord? (split chars).1 with
  | some command =>
    if (Text.words (split chars).2).all Text.isIdentifier then
      ⟨some (command, String.ofList (split chars).2), String.ofList chars⟩
    else ⟨none, String.ofList chars⟩
  | none => ⟨none, String.ofList chars⟩

theorem ofFreshLine_eq (text : String) :
    ofFreshLine text = ofChars (expand (Text.strip text.toList)) := by
  unfold ofFreshLine
  extract_lets stripped chars
  have same : chars = expand stripped := by
    simp only [chars]
    cases stripped with
    | nil => rfl
    | cons c rest =>
      by_cases mark : c = '?'
      · subst mark
        rfl
      · simp [expand, mark]
  rw [same]
  rfl

theorem line_ofChars (chars : List Char) : (ofChars chars).line = String.ofList chars := by
  unfold ofChars
  split
  · split <;> rfl
  · rfl

/-- Characters that are taken for a command start with its word and go on with identifiers. -/
theorem words_of_command {chars : List Char}
    (h : (ofChars chars).command = some (command, argument)) :
    String.ofList (chars.takeWhile isWordChar) = command.word ∧
      ∀ word ∈ Text.words (Text.strip (chars.dropWhile isWordChar)),
        Text.isIdentifier word = true := by
  unfold ofChars at h
  cases found : Command.ofWord? (split chars).1 with
  | none =>
    rw [found] at h
    cases h
  | some command' =>
    rw [found] at h
    dsimp only at h
    split at h
    next plain =>
      cases h
      have same : command.word = (split chars).1 := beq_iff_eq.1 (List.find?_some found :)
      exact ⟨same.symm, List.all_eq_true.1 plain⟩
    next => cases h

theorem expand_cases (chars : List Char) :
    (∃ rest, chars = '?' :: rest) ∨ expand chars = chars := by
  unfold expand
  split
  next rest => exact .inl ⟨rest, rfl⟩
  next => exact .inr rfl

/-- **While an entry is unfinished**, only the line for the end of input is a command. -/
theorem ofLine_of_command (h : (ofLine pending line).command = some (command, argument)) :
    (pending ≠ "" → line = "EOF") ∧
      ofLine pending line = ofChars (expand (Text.strip line.toList)) := by
  unfold ofLine at h ⊢
  split at h
  next => cases h
  next fresh =>
    refine ⟨fun unfinished => by_contra fun other => fresh ⟨unfinished, other⟩, ?_⟩
    rw [if_neg fresh, ofFreshLine_eq]

/-- Whether a character can stand in the line of a command. -/
def isPlain (c : Char) : Bool := Text.isBlank c || isWordChar c || Text.isIdentifierPart c

/-- **The line of a command** is made of characters that can stand in one. -/
theorem isPlain_of_command {chars : List Char}
    (h : (ofChars chars).command = some (command, argument)) {c : Char} (mem : c ∈ chars) :
    isPlain c = true := by
  obtain ⟨-, plain⟩ := words_of_command h
  rw [isPlain, Bool.or_eq_true, Bool.or_eq_true, or_assoc]
  by_cases blank : Text.isBlank c = true
  · exact .inl blank
  rw [← List.takeWhile_append_dropWhile (p := isWordChar) (l := chars)] at mem
  rcases List.mem_append.1 mem with first | behind
  · exact .inr (.inl (List.mem_takeWhile_imp first))
  · have not_blank : Text.isBlank c = false := by simpa using blank
    obtain ⟨word, among, inside⟩ :=
      Text.exists_mem_words (Text.mem_strip behind not_blank) not_blank
    exact .inr (.inr (Text.isIdentifierPart_of_isIdentifier (plain word among) inside))

/-- The line of a command starts with a letter. -/
theorem exists_letter_of_command {chars : List Char}
    (h : (ofChars chars).command = some (command, argument)) :
    ∃ c cs, chars = c :: cs ∧ Lexer.isAlpha c = true := by
  obtain ⟨word, -⟩ := words_of_command h
  have letter : ∃ c cs, command.word.toList = c :: cs ∧ Lexer.isAlpha c = true := by
    cases command <;> exact ⟨_, _, rfl, by decide⟩
  obtain ⟨c, cs, eq, letter⟩ := letter
  rw [← word, String.toList_ofList] at eq
  refine ⟨c, cs ++ chars.dropWhile isWordChar, ?_, letter⟩
  rw [← List.cons_append, ← eq, List.takeWhile_append_dropWhile]

/-- The line of a command is not empty. -/
theorem line_ne_empty_of_command (h : (ofLine pending line).command = some (command, argument)) :
    (ofLine pending line).line ≠ "" := by
  obtain ⟨-, eq⟩ := ofLine_of_command h
  rw [eq] at h ⊢
  obtain ⟨c, cs, start, -⟩ := exists_letter_of_command h
  rw [line_ofChars, start]
  exact fun empty => by simpa using congrArg String.toList empty

/-- A source that starts with a letter after blanks has a token. -/
theorem tokens_of_letter {c : Char} {cs : List Char} (letter : Lexer.isAlpha c = true)
    (start : Text.strip line.toList = c :: cs) : (Lexer.tokens line).dropLast ≠ [] := by
  obtain ⟨blanks, reduces⟩ := Lexer.reduces_strip line.toList
  rw [start, List.cons_append, Lexer.pieces_cons, Lexer.cut_of_isAlpha letter] at reduces
  have count := congrArg List.length
    (Lexer.map_unlined_tokensFrom 1 (Lexer.pieces line.toList))
  rw [reduces.tokens_eq, List.filterMap_cons_some (by rfl), List.length_map] at count
  intro nothing
  have short := congrArg List.length nothing
  rw [Lexer.tokens, List.length_dropLast, count] at short
  simp at short

/-- **A command is not a program.** A line that is taken for a command has problems as a source;
and while an entry is unfinished, no line is taken for a command but the one that stands for the
end of input. -/
theorem problems_of_command (limits : Limits)
    (h : (ofLine pending line).command = some (command, argument)) :
    (pending = "" → (Analysis.ofSource limits line).problems ≠ []) ∧
      (pending ≠ "" → line = "EOF") := by
  obtain ⟨ends, eq⟩ := ofLine_of_command h
  refine ⟨fun _ clean => ?_, ends⟩
  rw [eq] at h
  rcases expand_cases (Text.strip line.toList) with ⟨rest, marked⟩ | same
  · -- the question mark is a stray character
    obtain ⟨blanks, reduces⟩ := Lexer.reduces_strip line.toList
    obtain ⟨no_faults, -⟩ := Analysis.clean_iff.1 ⟨clean, rfl⟩
    have none := reduces.no_fault (Lexer.faultsFrom_eq_nil_iff.1 no_faults)
    rw [marked] at none
    exact Lexer.fault_of_question_mark _ none
  · rw [same] at h
    obtain ⟨c, cs, start, letter⟩ := exists_letter_of_command h
    have absent (c : Char) (mark : isPlain c = false) : c ∉ line.toList := by
      intro mem
      have not_blank : Text.isBlank c = false := by
        rw [isPlain, Bool.or_eq_false_iff, Bool.or_eq_false_iff] at mark
        exact mark.1.1
      rw [isPlain_of_command h (Text.mem_strip mem not_blank)] at mark
      cases mark
    rcases Analysis.exists_end_of_clean clean (tokens_of_letter letter start) with mem | mem
    · exact absent _ (by decide) mem
    · exact absent _ (by decide) mem

/-- A command with an argument, between blanks that only the shell knows. -/
theorem problems_of_command_help :
    let line := "\u00a0help print α_1 \t"
    (ofLine "" line).command = some (.help, "print α_1") ∧
      (("" = "" → (Analysis.ofSource ⟨9, 9⟩ line).problems ≠ []) ∧
        ("" ≠ "" → line = "EOF")) := by
  intro line
  have taken : (ofLine "" line).command = some (.help, "print α_1") := by decide +kernel
  exact ⟨taken, problems_of_command ⟨9, 9⟩ taken⟩

end Entry

end Lox
