import Lox.Proofs.Session.Records
import Lox.Proofs.Shell.Commands

/-!
# Typing a program into the shell

A program that is typed into the shell line by line does what it does as one source, if its entries
are programs of their own and no string loses anything on the way (`mapM_onLine_of_run`).

The proof goes from lines to entries and from entries to the program. While an entry is unfinished,
the pending text is what the shell has taken of it, and braces are open in that text exactly if they
are open in the lines. So the entry is run when its last line is typed. What is run scans like the
lines of the entry, and running the entries one after the other is running their texts at once.
-/

namespace Lox

/-! ### Running in a session -/

namespace Session

theorem onWorkspace_eq_ok_iff {α : Type} {action : EStateM Interrupt Workspace α} {s s' : Session}
    {a : α} : onWorkspace action s = .ok a s' ↔
      ∃ w, action s.workspace = .ok a w ∧ s' = { s with workspace := w } := by
  rw [onWorkspace]
  cases action s.workspace <;> simp [eq_comm]

/-- A source runs with success in a session exactly if it executes. -/
theorem run_eq_ok_iff {limits : Limits} {text : String} {s s' : Session} :
    run limits (some text) s = .ok true s' ↔
      ∃ m, Executes limits text ⟨s.workspace.chain, s.workspace.console.out⟩ m ∧
        s' = { s with
          source := text
          workspace := ⟨m.chain, { s.workspace.console with
            journal := s.journal.reset.register s.path text
            out := m.output }⟩ } := by
  rw [run_eq, onWorkspace_eq_ok_iff]
  constructor
  · rintro ⟨w, success, rfl⟩
    obtain ⟨m, executes, rfl⟩ := Lox.run_eq_ok_iff.1 success
    exact ⟨m, executes, rfl⟩
  · rintro ⟨m, executes, rfl⟩
    exact ⟨_, Lox.run_eq_ok_iff.2 ⟨m, executes, rfl⟩, rfl⟩

end Session

namespace Shell

variable {limits : Limits} {s s' s'' : Shell} {line : String} {lines more : List String}

/-! ### One line -/

/-- The text of an unfinished entry is kept. -/
theorem feed_of_open (unfinished : 0 < Lexer.openBraces (s.pending ++ line ++ "\n")) :
    feed limits line s =
      .ok () { s with pending := s.pending ++ line ++ "\n", prompt := secondaryPrompt } := by
  show (if 0 < Lexer.openBraces (s.pending ++ line ++ "\n") then _ else _ : Action Unit) s = _
  rw [if_pos unfinished]
  rfl

/-- After a run the shell is ready for a new entry, whatever becomes of the run. -/
def afterRun : EStateM.Result Interrupt Session Bool → EStateM.Result Interrupt Shell Unit
  | .ok _ session => .ok () { session }
  | .error interrupt session => .error interrupt { session }

/-- The text of a finished entry is run. -/
theorem feed_of_finished (finished : Lexer.openBraces (s.pending ++ line ++ "\n") ≤ 0) :
    feed limits line s =
      afterRun (Session.run limits (some (s.pending ++ line ++ "\n")) s.session) := by
  show (if 0 < Lexer.openBraces (s.pending ++ line ++ "\n") then _ else _ : Action Unit) s = _
  rw [if_neg (by omega)]
  show (onSession (Session.run limits (some (s.pending ++ line ++ "\n"))) >>= fun _ => pure ()).run
    { s with pending := "", prompt := primaryPrompt } = _
  rw [EStateM.run_bind, EStateM.run, onSession]
  cases Session.run limits (some (s.pending ++ line ++ "\n")) s.session <;> rfl

theorem feed_of_closed {session : Session}
    (finished : Lexer.openBraces (s.pending ++ line ++ "\n") ≤ 0)
    (ran : Session.run limits (some (s.pending ++ line ++ "\n")) s.session = .ok true session) :
    feed limits line s = .ok () { session } := by
  rw [feed_of_finished finished, ran]
  rfl

theorem onLine_of_empty (empty : (Entry.ofLine s.pending line).line = "") :
    onLine limits line s = .ok false s := by
  show (if (Entry.ofLine s.pending line).line = "" then _ else _ : Action Bool) s = _
  rw [if_pos empty]
  rfl

theorem onLine_of_source (nonempty : (Entry.ofLine s.pending line).line ≠ "")
    (plain : (Entry.ofLine s.pending line).command = none)
    (fed : feed limits (Entry.ofLine s.pending line).line s = .ok () s') :
    onLine limits line s = .ok false s' := by
  have source_eq : source limits (Entry.ofLine s.pending line).line s = .ok () s' := by
    rw [source, fed]
  show (if (Entry.ofLine s.pending line).line = "" then _ else _ : Action Bool) s = _
  rw [if_neg nonempty, plain]
  show (source limits (Entry.ofLine s.pending line).line >>= fun _ => pure false).run s = _
  rw [EStateM.run_bind, EStateM.run, source_eq]
  rfl

/-- A line of an unfinished entry is source. -/
theorem ofLine_of_pending (unfinished : s.pending ≠ "") (not_end : line ≠ "EOF") :
    Entry.ofLine s.pending line = ⟨none, line⟩ :=
  if_pos ⟨unfinished, not_end⟩

theorem ofLine_of_fresh (fresh : s.pending = "") :
    Entry.ofLine s.pending line = Entry.ofFreshLine line :=
  if_neg fun h => h.1 fresh

/-- A first line that is no command is taken without the blanks at both ends, unless there is a
question mark in front. -/
theorem ofFreshLine_line (mark : ∀ rest, Text.strip line.toList ≠ '?' :: rest) :
    (Entry.ofFreshLine line).line = String.ofList (Text.strip line.toList) := by
  have unmarked : ¬ ∃ rest, Text.strip line.toList = '?' :: rest := not_exists.2 mark
  rw [Entry.ofFreshLine_eq, Entry.line_ofChars, (Entry.expand_cases _).resolve_left unmarked]

/-- A line of an unfinished entry is fed as it is. -/
theorem onLine_of_pending (unfinished : s.pending ≠ "") (not_end : line ≠ "EOF")
    (nonempty : line ≠ "") (fed : feed limits line s = .ok () s') :
    onLine limits line s = .ok false s' := by
  have source := ofLine_of_pending unfinished not_end
  refine onLine_of_source ?_ ?_ ?_ <;> rw [source]
  · exact nonempty
  · exact fed

/-- Between entries a blank line does nothing. -/
theorem onLine_of_blank (fresh : s.pending = "") (blank : Text.strip line.toList = []) :
    onLine limits line s = .ok false s := by
  have unmarked (rest : List Char) : Text.strip line.toList ≠ '?' :: rest := by simp [blank]
  refine onLine_of_empty ?_
  rw [ofLine_of_fresh fresh, ofFreshLine_line unmarked, blank]

/-- The first line of an entry is fed without the blanks at both ends. -/
theorem onLine_of_fresh (fresh : s.pending = "")
    (unmarked : ∀ rest, Text.strip line.toList ≠ '?' :: rest)
    (plain : (Entry.ofFreshLine line).command = none) (nonblank : Text.strip line.toList ≠ [])
    (fed : feed limits (String.ofList (Text.strip line.toList)) s = .ok () s') :
    onLine limits line s = .ok false s' := by
  refine onLine_of_source ?_ ?_ ?_ <;> rw [ofLine_of_fresh fresh]
  · rw [ofFreshLine_line unmarked]
    intro empty
    exact nonblank (by simpa using congrArg String.toList empty)
  · exact plain
  · rwa [ofFreshLine_line unmarked]

/-! ### One line after the other -/

/-- The shell takes the lines one after the other, and none of them leaves it. -/
def Takes (limits : Limits) (s : Shell) (lines : List String) (s' : Shell) : Prop :=
  lines.mapM (onLine limits) s = .ok (lines.map fun _ => false) s'

namespace Takes

theorem nil : Takes limits s [] s := rfl

theorem cons (first : onLine limits line s = .ok false s') (others : Takes limits s' lines s'') :
    Takes limits s (line :: lines) s'' := by
  rw [Takes, List.mapM_cons]
  show (onLine limits line >>= fun _ => _).run s = _
  rw [EStateM.run_bind, EStateM.run, first]
  show (lines.mapM (onLine limits) >>= fun _ => _).run s' = _
  rw [EStateM.run_bind, EStateM.run, others]
  rfl

theorem append (first : Takes limits s lines s') (second : Takes limits s' more s'') :
    Takes limits s (lines ++ more) s'' := by
  rw [Takes, List.mapM_append]
  show (lines.mapM (onLine limits) >>= fun _ => _).run s = _
  rw [EStateM.run_bind, EStateM.run, first]
  show (more.mapM (onLine limits) >>= fun _ => _).run s' = _
  rw [EStateM.run_bind, EStateM.run, second]
  rw [List.map_append]
  rfl

end Takes

/-! ### One entry -/

/-- In what is taken as many braces are open as in the lines. -/
theorem openBraces_taken {first : String} {others : List String}
    (intact : Intact (first :: others)) :
    Lexer.openBraces (textOf (first :: others)) = Lexer.openBraces (taken (first :: others)) :=
  (reduces_entry intact).openBraces_eq

theorem taken_ne_empty (first : String) (others : List String) : taken (first :: others) ≠ "" := by
  intro empty
  have none := congrArg String.toList empty
  simp [taken] at none

/-- **The lines after the first** are gathered until the last of them finishes the entry. -/
theorem takes_others {first : String} (before : List String) {todo : List String}
    {session : Session}
    (intact : Intact (first :: (before ++ todo))) (within : OpenWithin (first :: (before ++ todo)))
    (closed : Lexer.openBraces (textOf (first :: (before ++ todo))) ≤ 0) (no_end : "EOF" ∉ todo)
    (ran : Session.run limits (some (taken (first :: (before ++ todo)))) s.session =
      .ok true session)
    (pending : s.pending = taken (first :: before)) (more : todo ≠ []) :
    Takes limits s todo { session } := by
  induction todo generalizing before s with
  | nil => exact absurd rfl more
  | cons line todo ih =>
    have assoc : first :: (before ++ line :: todo) = first :: (before ++ [line]) ++ todo := by simp
    have here : Intact (first :: (before ++ [line])) := Intact.of_append todo (assoc ▸ intact)
    obtain ⟨not_end, no_end_later⟩ := not_or.1 (mt List.mem_cons.2 no_end)
    have unfinished : s.pending ≠ "" := by
      rw [pending]
      exact taken_ne_empty first before
    have not_end : line ≠ "EOF" := Ne.symm not_end
    by_cases empty : line = ""
    · subst empty
      have same : taken (first :: (before ++ [""])) = taken (first :: before) := by
        rw [taken_append, if_pos rfl, String.append_empty]
      -- an empty line closes no brace, so it is not the last
      have more : todo ≠ [] := by
        rintro rfl
        have unclosed : 0 < Lexer.openBraces (textOf (first :: before)) :=
          OpenWithin.of_append within (List.cons_ne_nil _ _) (List.cons_ne_nil "" [])
        have before_intact : Intact (first :: before) := here.of_append [""]
        rw [openBraces_taken before_intact, ← same, ← openBraces_taken here] at unclosed
        omega
      rw [List.append_cons] at intact within closed ran
      refine .cons (onLine_of_empty (by rw [ofLine_of_pending unfinished not_end])) ?_
      exact ih _ intact within closed no_end_later ran (pending.trans same.symm) more
    · have text : s.pending ++ line ++ "\n" = taken (first :: (before ++ [line])) := by
        rw [taken_append, if_neg empty, pending, String.append_assoc]
      cases todo with
      | nil =>
        refine .cons (onLine_of_pending unfinished not_end empty (feed_of_closed ?_ ?_)) .nil
        · rwa [text, ← openBraces_taken here]
        · rwa [text]
      | cons next todo =>
        have unclosed := OpenWithin.of_append (assoc ▸ within) (List.cons_ne_nil _ _)
          (List.cons_ne_nil next todo)
        rw [List.append_cons] at intact within closed ran
        refine .cons (onLine_of_pending unfinished not_end empty (feed_of_open ?_)) ?_
        · rwa [text, ← openBraces_taken here]
        · exact ih _ intact within closed no_end_later ran text (List.cons_ne_nil _ _)

/-- What an entry must be like to be run like its lines. -/
structure Runnable (limits : Limits) (entry : List String) : Prop where
  ne_nil : entry ≠ []
  within : OpenWithin entry
  clean : (Analysis.ofSource limits (textOf entry)).problems = []
  plain : ∀ first ∈ entry.head?, (Entry.ofFreshLine first).command = none
  no_end : "EOF" ∉ entry
  intact : Intact entry

/-- A blank line is an entry of its own. -/
theorem eq_nil_of_blank {first : String} {others : List String} (intact : Intact [first])
    (within : OpenWithin (first :: others)) (blank : Text.strip first.toList = []) :
    others = [] := by
  by_contra more
  have unclosed : 0 < Lexer.openBraces (textOf [first]) :=
    OpenWithin.of_append within (List.cons_ne_nil _ _) more
  rw [openBraces_taken intact, taken_singleton, blank] at unclosed
  exact absurd unclosed (by decide +kernel)

/-- A question mark in front of an entry is a fault. -/
theorem strip_ne_mark {first : String} {others : List String}
    (no_faults : Lexer.faults (taken (first :: others)) = []) (rest : List Char) :
    Text.strip first.toList ≠ '?' :: rest := by
  intro marked
  have stray := Lexer.faultsFrom_eq_nil_iff.1 no_faults
  rw [taken, marked, String.toList_append, String.toList_append, String.toList_ofList] at stray
  exact Lexer.fault_of_question_mark _ stray

/-- **One entry** does in the shell what its lines do. -/
theorem takes_entry {entry : List String} {m : Machine} (runnable : Runnable limits entry)
    (fresh : s.pending = "")
    (executes : Executes limits (textOf entry)
      ⟨s.session.workspace.chain, s.session.workspace.console.out⟩ m) :
    ∃ s', Takes limits s entry s' ∧ s'.pending = "" ∧ s'.session.workspace.chain = m.chain ∧
      s'.session.workspace.console.out = m.output := by
  obtain ⟨ne_nil, within, clean, plain, no_end, intact⟩ := runnable
  obtain ⟨first, others, rfl⟩ := List.exists_cons_of_ne_nil ne_nil
  have closed := Analysis.openBraces_of_clean clean
  have executes := executes.of_reduces (reduces_entry intact)
  have intact_first : Intact [first] := intact.of_append others
  by_cases blank : Text.strip first.toList = []
  · cases eq_nil_of_blank intact_first within blank
    rw [taken_singleton, blank] at executes
    cases executes.eq_of_no_tokens (by decide +kernel)
    exact ⟨s, .cons (onLine_of_blank fresh blank) .nil, fresh, rfl, rfl⟩
  · obtain ⟨no_faults, -⟩ := Analysis.clean_iff.1 ⟨executes.clean, rfl⟩
    have unmarked := strip_ne_mark no_faults
    obtain ⟨session, ran, chain, out⟩ : ∃ session,
        Session.run limits (some (taken (first :: others))) s.session = .ok true session ∧
          session.workspace.chain = m.chain ∧ session.workspace.console.out = m.output :=
      ⟨_, Session.run_eq_ok_iff.2 ⟨m, executes, rfl⟩, rfl, rfl⟩
    have text : s.pending ++ String.ofList (Text.strip first.toList) ++ "\n" = taken [first] := by
      rw [fresh, String.empty_append, taken_singleton]
    have taken_line {s' : Shell}
        (fed : feed limits (String.ofList (Text.strip first.toList)) s = .ok () s') :
        onLine limits first s = .ok false s' :=
      onLine_of_fresh fresh unmarked (plain first rfl) blank fed
    refine ⟨{ session }, ?_, rfl, chain, out⟩
    cases others with
    | nil =>
      refine .cons (taken_line (feed_of_closed ?_ ?_)) .nil
      · rw [text, ← openBraces_taken intact_first]
        omega
      · rwa [text]
    | cons next others =>
      have unclosed : 0 < Lexer.openBraces (textOf [first]) :=
        OpenWithin.of_append within (List.cons_ne_nil _ _) (List.cons_ne_nil next others)
      refine .cons (taken_line (feed_of_open ?_)) ?_
      · rwa [text, ← openBraces_taken intact_first]
      · exact takes_others [] intact within (Int.le_of_eq closed)
          (fun mem => no_end (List.mem_cons_of_mem _ mem)) ran text (List.cons_ne_nil _ _)

/-! ### One entry after the other -/

/-- Entries without problems are a program without problems. -/
theorem clean_flatten {es : List (List String)} (runnable : ∀ e ∈ es, Runnable limits e) :
    (Analysis.ofSource limits (textOf es.flatten)).problems = [] := by
  induction es with
  | nil => exact Analysis.clean_empty limits
  | cons e es ih =>
    obtain ⟨first, others⟩ := List.forall_mem_cons.1 runnable
    obtain ⟨text, eq⟩ := exists_textOf_eq first.ne_nil
    rw [List.flatten_cons, textOf_append, eq]
    exact Analysis.clean_append (eq ▸ first.clean) (ih others)

/-- **Entries one after the other** do in the shell what they do as one source. -/
theorem takes_entries {es : List (List String)} {m : Machine}
    (runnable : ∀ e ∈ es, Runnable limits e) (fresh : s.pending = "")
    (executes : Executes limits (textOf es.flatten)
      ⟨s.session.workspace.chain, s.session.workspace.console.out⟩ m) :
    ∃ s', Takes limits s es.flatten s' ∧ s'.pending = "" ∧ s'.session.workspace.chain = m.chain ∧
      s'.session.workspace.console.out = m.output := by
  induction es generalizing s with
  | nil =>
    cases executes.eq_of_no_tokens (by decide +kernel)
    exact ⟨s, .nil, fresh, rfl, rfl⟩
  | cons e es ih =>
    obtain ⟨first, others⟩ := List.forall_mem_cons.1 runnable
    obtain ⟨text, eq⟩ := exists_textOf_eq first.ne_nil
    rw [List.flatten_cons, textOf_append, eq] at executes
    obtain ⟨m₁, executes_first, executes_others⟩ :=
      executes_append (eq ▸ first.clean) (clean_flatten others) executes
    rw [← eq] at executes_first
    obtain ⟨s₁, takes_first, fresh₁, chain₁, out₁⟩ := takes_entry first fresh executes_first
    rw [← show (⟨s₁.session.workspace.chain, s₁.session.workspace.console.out⟩ : Machine) = m₁ by
      rw [chain₁, out₁]] at executes_others
    obtain ⟨s', takes_others, left⟩ := ih others fresh₁ executes_others
    exact ⟨s', takes_first.append takes_others, left⟩

/-- **Typing a program is running it.** If the text of the lines runs with success, if each entry is
a program of its own that does not start with a command, if no line stands for the end of input,
and if no string loses anything, then the shell takes the lines without being left. It ends with
the same scopes and the same output, and without an unfinished entry. -/
theorem mapM_onLine_of_run {after : Session} (fresh : s.pending = "")
    (ran : Session.run limits (some (textOf lines)) s.session = .ok true after)
    (clean : ∀ entry ∈ entries [] lines, (Analysis.ofSource limits (textOf entry)).problems = [])
    (plain : ∀ entry ∈ entries [] lines, ∀ first ∈ entry.head?,
      (Entry.ofFreshLine first).command = none)
    (no_end : "EOF" ∉ lines) (intact : ∀ entry ∈ entries [] lines, Intact entry) :
    ∃ s', lines.mapM (onLine limits) s = .ok (lines.map fun _ => false) s' ∧ s'.pending = "" ∧
      s'.session.workspace.chain = after.workspace.chain ∧
      s'.session.workspace.console.out = after.workspace.console.out := by
  have whole : (entries [] lines).flatten = lines := flatten_entries [] lines
  have runnable (entry : List String) (mem : entry ∈ entries [] lines) : Runnable limits entry := by
    obtain ⟨ne_nil, within⟩ := openWithin_of_mem_entries
      (by intro i pos le; exact absurd pos (Nat.not_lt.2 le)) mem
    refine ⟨ne_nil, within, clean entry mem, plain entry mem, fun ends => no_end ?_, intact entry mem⟩
    rw [← whole]
    exact List.mem_flatten.2 ⟨entry, mem, ends⟩
  obtain ⟨m, executes, rfl⟩ := Session.run_eq_ok_iff.1 ran
  have taken := takes_entries runnable fresh (whole.symm ▸ executes)
  rw [whole] at taken
  exact taken

/-- A shell on an empty global scope. -/
def initial : Shell := { session := ⟨commandLinePath, "", .global, { journal := {} }⟩ }

/-- Blanks after a comment, an empty line outside strings, and a string that spans lines. -/
theorem mapM_onLine_of_run_block :
    let lines := ["  \x7b // text  ", "", "print \"a", " b\"; \x7d", "", "var c; "]
    ∃ after, Session.run ⟨9, 9⟩ (some (textOf lines)) initial.session = .ok true after ∧
      ∃ s', lines.mapM (onLine ⟨9, 9⟩) initial = .ok (lines.map fun _ => false) s' ∧
        s'.pending = "" ∧ s'.session.workspace.chain = after.workspace.chain ∧
        s'.session.workspace.console.out = after.workspace.console.out := by
  intro lines
  obtain ⟨_, after, ran, rfl⟩ : ∃ answer after,
      Session.run ⟨9, 9⟩ (some (textOf lines)) initial.session = .ok answer after ∧
        answer = true := by decide +kernel
  exact ⟨after, ran, mapM_onLine_of_run rfl ran (by decide +kernel) (by decide +kernel)
    (by decide +kernel) (by decide +kernel)⟩

/-- **Strings do lose empty lines.** An empty line that is typed while a string is open is dropped,
and the string is printed without it, although the lines run as one source print it. -/
theorem mapM_onLine_ne_run :
    let lines := ["\x7b print \"a", "", "b\"; \x7d"]
    (∃ after, Session.run ⟨9, 9⟩ (some (textOf lines)) initial.session = .ok true after ∧
        after.workspace.console.out = "a\n\nb\n") ∧
      (∀ entry ∈ entries [] lines, (Analysis.ofSource ⟨9, 9⟩ (textOf entry)).problems = []) ∧
      (∀ entry ∈ entries [] lines, ∀ first ∈ entry.head?,
        (Entry.ofFreshLine first).command = none) ∧
      "EOF" ∉ lines ∧
      ∃ answers s', lines.mapM (onLine ⟨9, 9⟩) initial = .ok answers s' ∧
        s'.session.workspace.console.out = "a\nb\n" := by
  intro lines
  obtain ⟨_, after, ran, rfl, out⟩ : ∃ answer after,
      Session.run ⟨9, 9⟩ (some (textOf lines)) initial.session = .ok answer after ∧
        answer = true ∧ after.workspace.console.out = "a\n\nb\n" := by decide +kernel
  exact ⟨⟨after, ran, out⟩, by decide +kernel, by decide +kernel, by decide +kernel,
    by decide +kernel⟩

end Shell

end Lox
