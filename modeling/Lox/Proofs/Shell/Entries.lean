import Mathlib.Data.List.Induction
import Lox.Proofs.Run.Spaces
import Lox.Shell

/-!
# Entries of a shell

The shell takes a program line by line and runs it entry by entry: an entry ends with the first line
at which no brace is open (`entries`). What it runs is not quite the text of the lines. The first
line of an entry loses the blanks at both ends, and empty lines after it are dropped (`taken`).

This does no harm unless it happens inside a string (`Intact`): the lexer cannot tell the difference
(`reduces_taken`).
-/

namespace Lox

/-! ### Blanks at both ends -/

/-- Without the blanks in front, what is left of a text is its stripped form and blanks. -/
theorem Text.dropWhile_eq_strip_append (cs : List Char) :
    ∃ blanks, cs.dropWhile isBlank = strip cs ++ blanks ∧ ∀ c ∈ blanks, isBlank c = true := by
  refine ⟨((cs.dropWhile isBlank).reverse.takeWhile isBlank).reverse, ?_, fun c mem => ?_⟩
  · rw [strip, trim, ← List.reverse_append, List.takeWhile_append_dropWhile, List.reverse_reverse]
  · exact List.mem_takeWhile_imp (List.mem_reverse.1 mem)

namespace Shell

/-! ### Lines and entries -/

/-- The text of lines: each is ended by a newline. -/
def textOf : List String → String
  | [] => ""
  | line :: lines => line ++ "\n" ++ textOf lines

/-- Cuts lines into entries: an entry ends with the first line at which no brace is open. The lines
of the first entry that are already there come in front. -/
def entries (current : List String) : List String → List (List String)
  | [] => if current = [] then [] else [current]
  | line :: lines =>
    if Lexer.openBraces (textOf (current ++ [line])) ≤ 0 then
      (current ++ [line]) :: entries [] lines
    else entries (current ++ [line]) lines

/-- The text of an entry as the shell takes it. -/
def taken : List String → String
  | [] => ""
  | first :: others =>
    String.ofList (Text.strip first.toList) ++ "\n" ++ textOf (others.filter (· ≠ ""))

/-- No string is still open where the text ends. -/
def EndsOutside (text : String) : Prop := ∀ f ∈ Lexer.faults text, f.cause ≠ .unterminated

instance (text : String) : Decidable (EndsOutside text) :=
  inferInstanceAs (Decidable (∀ f ∈ Lexer.faults text, f.cause ≠ .unterminated))

/-- No string of the entry loses anything when the shell takes it: the first line does not end in
blanks while a string is open, and no string is open before an empty line. -/
structure Intact (entry : List String) : Prop where
  first : ∀ line ∈ entry.head?, line.toList.dropWhile Text.isBlank = Text.strip line.toList ∨
    EndsOutside (String.ofList (Text.strip line.toList))
  others : ∀ i < entry.length, 0 < i → entry[i]? = some "" → EndsOutside (textOf (entry.take i))

instance (entry : List String) : Decidable (Intact entry) :=
  decidable_of_iff
    ((∀ line ∈ entry.head?, line.toList.dropWhile Text.isBlank = Text.strip line.toList ∨
        EndsOutside (String.ofList (Text.strip line.toList)))
      ∧ ∀ i < entry.length, 0 < i → entry[i]? = some "" → EndsOutside (textOf (entry.take i)))
    ⟨fun ⟨first, others⟩ => ⟨first, others⟩, fun h => ⟨h.first, h.others⟩⟩

theorem textOf_append (lines more : List String) :
    textOf (lines ++ more) = textOf lines ++ textOf more := by
  induction lines with
  | nil => simp [textOf]
  | cons line lines ih => simp only [List.cons_append, textOf, ih, String.append_assoc]

theorem textOf_concat (lines : List String) (line : String) :
    textOf (lines ++ [line]) = textOf lines ++ line ++ "\n" := by
  rw [textOf_append, textOf, textOf, String.append_empty, String.append_assoc]

/-- The text of some lines ends with a newline. -/
theorem exists_textOf_eq {lines : List String} (ne_nil : lines ≠ []) :
    ∃ text, textOf lines = text ++ "\n" := by
  obtain ⟨before, last, rfl⟩ := List.eq_nil_or_concat lines |>.resolve_left ne_nil
  exact ⟨textOf before ++ last, by
    rw [List.concat_eq_append, textOf_append, textOf, textOf, String.append_empty,
      String.append_assoc]⟩

/-- Cutting loses no line. -/
theorem flatten_entries (current lines : List String) :
    (entries current lines).flatten = current ++ lines := by
  induction lines generalizing current with
  | nil =>
    rw [entries]
    split
    next empty => simp [empty]
    next => simp
  | cons line lines ih =>
    rw [entries]
    split
    next => rw [List.flatten_cons, ih, List.nil_append, List.append_assoc, List.singleton_append]
    next => rw [ih, List.append_assoc, List.singleton_append]

/-- Braces are open within the lines, wherever these are cut. -/
def OpenWithin (entry : List String) : Prop :=
  ∀ i, 0 < i → i < entry.length → 0 < Lexer.openBraces (textOf (entry.take i))

theorem OpenWithin.of_append {lines more : List String} (h : OpenWithin (lines ++ more))
    (nonempty : lines ≠ []) (unfinished : more ≠ []) : 0 < Lexer.openBraces (textOf lines) := by
  have shorter : lines.length < (lines ++ more).length := by
    simpa using List.length_pos_iff.2 unfinished
  have opened := h lines.length (List.length_pos_iff.2 nonempty) shorter
  rwa [List.take_left] at opened

/-- **Entries are not cut too late**: before its last line, an entry has open braces. -/
theorem openWithin_of_mem_entries {current lines entry : List String}
    (unfinished : ∀ i, 0 < i → i ≤ current.length →
      0 < Lexer.openBraces (textOf (current.take i)))
    (mem : entry ∈ entries current lines) : entry ≠ [] ∧ OpenWithin entry := by
  induction lines generalizing current with
  | nil =>
    rw [entries] at mem
    split at mem
    next => cases mem
    next nonempty =>
      rw [List.mem_singleton.1 mem]
      exact ⟨nonempty, fun i pos lt => unfinished i pos (Nat.le_of_lt lt)⟩
  | cons line lines ih =>
    have within : OpenWithin (current ++ [line]) := by
      intro i pos lt
      have le : i ≤ current.length := by simpa [Nat.lt_succ_iff] using lt
      rw [List.take_append_of_le_length le]
      exact unfinished i pos le
    rw [entries] at mem
    split at mem
    next =>
      rcases List.mem_cons.1 mem with rfl | later
      · exact ⟨by simp, within⟩
      · refine ih (fun i pos le => ?_) later
        rw [List.length_nil] at le
        omega
    next more =>
      refine ih (fun i pos le => ?_) mem
      rcases Nat.lt_or_eq_of_le le with lt | rfl
      · exact within i pos lt
      · rw [List.take_length]
        omega

/-! ### What the shell takes -/

theorem taken_singleton (line : String) :
    taken [line] = String.ofList (Text.strip line.toList) ++ "\n" :=
  String.append_empty

theorem taken_append (first : String) (others : List String) (line : String) :
    taken (first :: (others ++ [line])) =
      taken (first :: others) ++ if line = "" then "" else line ++ "\n" := by
  rw [taken, taken, List.filter_append, textOf_append, ← String.append_assoc]
  by_cases empty : line = "" <;> simp [empty, textOf]

namespace Intact

/-- The beginning of an entry that loses nothing loses nothing. -/
theorem of_append {lines : List String} (more : List String) (h : Intact (lines ++ more)) :
    Intact lines where
  first line head := h.first line (List.mem_head?_append_of_mem_head? head)
  others i lt pos empty := by
    have outside := h.others i (by rw [List.length_append]; omega) pos
      (by rwa [List.getElem?_append_left lt])
    rwa [List.take_append_of_le_length (Nat.le_of_lt lt)] at outside

end Intact

/-- A text that ends outside strings has no open quote. -/
theorem EndsOutside.closed {text : String} (h : EndsOutside text) :
    ∀ p ∈ Lexer.pieces text.toList, p.form ≠ .unclosed :=
  Lexer.cause_ne_iff.1 h

open Lexer (Reduces pieces)

/-- The first line of an entry. -/
theorem reduces_first {line : String}
    (kept : line.toList.dropWhile Text.isBlank = Text.strip line.toList ∨
      EndsOutside (String.ofList (Text.strip line.toList))) (rest : List Char) :
    Reduces (pieces (line.toList ++ '\n' :: rest))
      (pieces (Text.strip line.toList ++ '\n' :: rest)) := by
  have front : Reduces (pieces (line.toList ++ '\n' :: rest))
      (pieces (line.toList.dropWhile Text.isBlank ++ '\n' :: rest)) := by
    have blank : ∀ c ∈ line.toList.takeWhile Text.isBlank, Text.isBlank c = true :=
      fun c => List.mem_takeWhile_imp
    have reduces :=
      Lexer.reduces_blanks blank (line.toList.dropWhile Text.isBlank ++ '\n' :: rest)
    rwa [← List.append_assoc, List.takeWhile_append_dropWhile] at reduces
  obtain ⟨blanks, eq, blank⟩ := Text.dropWhile_eq_strip_append line.toList
  rcases kept with kept | outside
  · rwa [kept] at front
  · refine front.trans ?_
    rw [eq, List.append_assoc]
    have closed := outside.closed
    rw [String.toList_ofList] at closed
    exact Lexer.reduces_append closed blank rest

/-- An empty line. -/
theorem reduces_empty {text : String} (outside : EndsOutside (text ++ "\n")) (rest : List Char) :
    Reduces (pieces (text.toList ++ '\n' :: '\n' :: rest))
      (pieces (text.toList ++ '\n' :: rest)) := by
  have closed := outside.closed
  rw [String.toList_append] at closed
  show Reduces (pieces (text.toList ++ (['\n'] ++ '\n' :: rest))) _
  exact Lexer.reduces_append (Lexer.closed_of_append_newline closed)
    (List.forall_mem_singleton.2 (by decide)) rest

/-- **What the shell takes** scans like the lines of the entry, whatever follows. -/
theorem reduces_taken {first : String} {others : List String} (intact : Intact (first :: others))
    (rest : List Char) :
    Reduces (pieces ((textOf (first :: others)).toList ++ rest))
      (pieces ((taken (first :: others)).toList ++ rest)) := by
  induction others using List.reverseRecOn generalizing rest with
  | nil =>
    have reduces := reduces_first (intact.first first rfl) rest
    simpa [textOf, taken] using reduces
  | append_singleton others line ih =>
    have before : Intact (first :: others) := intact.of_append [line]
    rw [taken_append, ← List.cons_append, textOf_append, String.toList_append, List.append_assoc,
      String.toList_append, List.append_assoc]
    by_cases empty : line = ""
    · subst empty
      have outside : EndsOutside (textOf (first :: others)) := by
        have ends := intact.others (others.length + 1) (by simp) (by omega) (by simp)
        rwa [← List.cons_append, List.take_left' (by simp)] at ends
      obtain ⟨text, eq⟩ := exists_textOf_eq (List.cons_ne_nil first others)
      have dropped := reduces_empty (eq ▸ outside) rest
      have reduces := ih before rest
      rw [eq, String.toList_append, List.append_assoc] at reduces ⊢
      exact dropped.trans reduces
    · rw [if_neg empty]
      have reduces := ih before ((textOf [line]).toList ++ rest)
      simpa [textOf] using reduces

theorem reduces_entry {first : String} {others : List String} (intact : Intact (first :: others)) :
    Reduces (pieces (textOf (first :: others)).toList)
      (pieces (taken (first :: others)).toList) := by
  simpa using reduces_taken intact []

end Shell

end Lox
