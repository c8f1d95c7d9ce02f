import Lox.Proofs.Run.Fatal
import Lox.Proofs.Session.Fresh
import Lox.Proofs.Shell.Typing

/-!
# The ledger of a shell

The shell either runs what it takes or holds it for later. Its books are the lines of source that it
took (`delivered?`) and the texts that it handed over to its session (`handed?`), in order, and they
always balance: the texts handed over and the pending text make up the lines taken, each ended by a
newline. Nothing is lost, run twice or put in another order, whatever becomes of the runs. Moreover
an entry is handed over with its first line at which no brace is open, and not before or after that
(`ledger_afterLines`).

What a line does is said by three equations, one for each case: it is no source, it leaves an entry
unfinished, or it finishes one. From them `Books.step` derives what a line does to the books, and an
induction over the lines gives what a whole history does.
-/

namespace Lox

/-! ### What becomes of a session -/

namespace Session

variable {limits : Limits} {given : Option String} {s s' : Session} {interrupt : Interrupt}

/-- The session after something was printed. -/
def printed (s : Session) (text : String) : Session :=
  { s with workspace := { s.workspace with
      console := { s.workspace.console with out := s.workspace.console.out ++ text } } }

theorem printed_empty (s : Session) : s.printed "" = s := by
  rw [printed, String.append_empty]

/-- Running the texts in order, and nothing but printing in between, turns the first session into
the second. -/
inductive Runs (limits : Limits) (start : Session) : List String → Session → Prop
  | start : Runs limits start [] start
  | print {texts : List String} {s : Session} (text : String) (before : Runs limits start texts s) :
    Runs limits start texts (s.printed text)
  | run {texts : List String} {s : Session} (text : String) (before : Runs limits start texts s) :
    Runs limits start (texts ++ [text]) (finalState (run limits (some text) s))

/-- Running a source does not change whether the first problem is fatal. -/
theorem fatal_run (limits : Limits) (given : Option String) (s : Session) :
    (finalState (run limits given s)).journal.fatal = s.journal.fatal := by
  have records : Records Workspace.journal (fun _ => True) (Lox.run limits (given.getD s.source)) :=
    run_records (by simp) trivial (by simp)
  obtain ⟨recorded, journal, -⟩ := onWorkspace_records records
    { s.withJournal (s.journal.reset.register s.path (given.getD s.source)) with
      source := given.getD s.source }
  rw [run_eq, journal]
  rfl

theorem Runs.fatal_eq {texts : List String} (runs : Runs limits s texts s') :
    s'.journal.fatal = s.journal.fatal := by
  induction runs with
  | start => rfl
  | print text _ ih => exact ih
  | run text _ ih => exact (fatal_run limits (some text) _).trans ih

/-- A run of a source that is cut short, from a workspace in which no problem is recorded. -/
theorem interrupt_of_fresh {w w' : Workspace} {source : String}
    (fresh : w.console.journal.errors = []) (cut : Lox.run limits source w = .error interrupt w') :
    interrupt = .unfinished ∨
      w.console.journal.fatal = true ∧ ∃ status, interrupt = .exit status := by
  have ending : (summary limits source w).ending = .error interrupt := by
    rw [summary, cut]
    rfl
  cases fatal : w.console.journal.fatal with
  | false =>
    left
    rcases ending_of_nonfatal limits source fatal with ⟨answer, answered⟩ | unfinished
    · cases ending.symm.trans answered
    · cases ending.symm.trans unfinished
      rfl
  | true =>
    have same : w.fresh true = w := by
      obtain ⟨chain, ⟨⟨_, echo, styled, _, registered⟩, out, err⟩⟩ := w
      cases fatal
      cases fresh
      rfl
    -- the first problem of the run that is not fatal is where this one is cut short
    have tolerant := summary_cutAtFirst limits source w
    rw [same] at tolerant
    cases found : (summary limits source (w.fresh false)).errors with
    | nil =>
      left
      have ending' := (tolerant.of_no_errors found).2.symm.trans ending
      rcases ending_of_nonfatal limits source (w := w.fresh false) rfl with
        ⟨answer, answered⟩ | unfinished
      · cases ending'.symm.trans answered
      · cases ending'.symm.trans unfinished
        rfl
    | cons d ds =>
      cases ending.symm.trans (tolerant.of_errors d ds found).2.2
      exact .inr ⟨rfl, _, rfl⟩

theorem exists_of_onWorkspace_error {α : Type} {action : EStateM Interrupt Workspace α}
    (cut : onWorkspace action s = .error interrupt s') :
    ∃ w, action s.workspace = .error interrupt w := by
  rw [onWorkspace] at cut
  cases result : action s.workspace with
  | ok a w =>
    rw [result] at cut
    cases cut
  | error interrupt' w =>
    rw [result] at cut
    cases cut
    exact ⟨w, rfl⟩

/-- **A run is cut short** only if it does not end, or by the first problem if that is fatal. -/
theorem interrupt_of_run (cut : run limits given s = .error interrupt s') :
    interrupt = .unfinished ∨ s.journal.fatal = true ∧ ∃ status, interrupt = .exit status := by
  rw [run_eq] at cut
  obtain ⟨w, cut⟩ := exists_of_onWorkspace_error cut
  exact interrupt_of_fresh
    (w := (s.withJournal (s.journal.reset.register s.path (given.getD s.source))).workspace) rfl cut

end Session

namespace Shell

variable {limits : Limits} {s : Shell} {line : String}

/-! ### What a line is -/

/-- The source that the shell takes this line for, if it is neither a command nor empty. -/
def delivered? (s : Shell) (line : String) : Option String :=
  let entry := Entry.ofLine s.pending line
  if entry.line ≠ "" ∧ entry.command = none then some entry.line else none

/-- The text that the shell hands over to its session when it takes this line, if the line finishes
an entry. -/
def handed? (s : Shell) (line : String) : Option String :=
  (delivered? s line).bind fun source =>
    let text := s.pending ++ source ++ "\n"
    if 0 < Lexer.openBraces text then none else some text

/-- Whether this is a command to leave the shell. -/
def Leaves (entry : Entry) : Prop :=
  entry.command = some (.exit, "") ∨ entry.command = some (.endOfInput, "")

/-! ### What a line does -/

/-- A warning at most prints. -/
theorem onConsole_warn (message : String) (s : Shell) :
    ∃ text, onConsole (Interaction.warn message) s =
      .ok () { s with session := s.session.printed text } := by
  obtain ⟨⟨path, source, chain, ⟨⟨fatal, echo, styled, errors, registered⟩, out, err⟩⟩, pending,
    prompt⟩ := s
  cases echo with
  | true => exact ⟨_, rfl⟩
  | false =>
    refine ⟨"", ?_⟩
    rw [Session.printed_empty]
    rfl

/-- Leaving is refused if there is an argument. -/
theorem leave_eq (argument : String) (s : Shell) :
    ∃ text, leave argument s =
      .ok (decide (argument = "")) { s with session := s.session.printed text } := by
  by_cases empty : argument = ""
  · refine ⟨"", ?_⟩
    rw [leave, if_pos empty, Session.printed_empty, decide_eq_true empty]
    rfl
  · obtain ⟨text, warned⟩ :=
      onConsole_warn ("unrecognized argument to exit: '" ++ argument ++ "'") s
    refine ⟨text, ?_⟩
    rw [leave, if_neg empty, decide_eq_false empty]
    show (onConsole _ >>= fun _ => pure false).run s = _
    rw [EStateM.run_bind, EStateM.run, warned]
    rfl

/-- **A command** only prints. It leaves the shell if it is one of two and has no argument. -/
theorem perform_eq (command : Command) (argument : String) (s : Shell) :
    ∃ text, perform command argument s =
      .ok (decide ((command = .exit ∨ command = .endOfInput) ∧ argument = ""))
        { s with session := s.session.printed text } := by
  cases command with
  | help => exact ⟨_, rfl⟩
  | env => exact ⟨_, rfl⟩
  | exit =>
    obtain ⟨text, eq⟩ := leave_eq argument s
    exact ⟨text, by simpa [perform] using eq⟩
  | endOfInput =>
    obtain ⟨text, eq⟩ := leave_eq argument { s with session := s.session.printed "\n" }
    refine ⟨"\n" ++ text, ?_⟩
    show leave argument { s with session := s.session.printed "\n" } = _
    rw [eq]
    simp [Session.printed, String.append_assoc]

/-- What interrupts a run is not absorbed, so that a line of source does what feeding it does. -/
theorem source_eq (limits : Limits) (line : String) (s : Shell) :
    source limits line s = feed limits line s := by
  rw [source]
  by_cases unfinished : 0 < Lexer.openBraces (s.pending ++ line ++ "\n")
  · rw [feed_of_open unfinished]
  · rw [feed_of_finished (Int.not_lt.1 unfinished)]
    cases ran : Session.run limits (some (s.pending ++ line ++ "\n")) s.session with
    | ok answer session => rfl
    | error interrupt session =>
      rcases Session.interrupt_of_run ran with rfl | ⟨-, status, rfl⟩ <;> rfl

theorem delivered?_eq_some_iff {source : String} : delivered? s line = some source ↔
    (Entry.ofLine s.pending line).line = source ∧ source ≠ "" ∧
      (Entry.ofLine s.pending line).command = none := by
  rw [delivered?]
  split
  next h =>
    obtain ⟨nonempty, plain⟩ := h
    constructor
    · rintro ⟨⟩
      exact ⟨rfl, nonempty, plain⟩
    · rintro ⟨rfl, -⟩
      rfl
  next h =>
    constructor
    · rintro ⟨⟩
    · rintro ⟨rfl, nonempty, plain⟩
      exact absurd ⟨nonempty, plain⟩ h

/-- **A line that is no source** only prints. -/
theorem onLine_of_none (limits : Limits) (none : delivered? s line = none) :
    ∃ answer text, onLine limits line s = .ok answer { s with session := s.session.printed text } ∧
      (answer = true ↔ Leaves (Entry.ofLine s.pending line)) := by
  cases taken : (Entry.ofLine s.pending line).command with
  | none =>
    have empty : (Entry.ofLine s.pending line).line = "" := by
      by_contra nonempty
      cases none.symm.trans (delivered?_eq_some_iff.2 ⟨rfl, nonempty, taken⟩)
    refine ⟨false, "", ?_, ?_⟩
    · rw [onLine_of_empty empty, Session.printed_empty]
    · simp [Leaves, taken]
  | some found =>
    obtain ⟨command, argument⟩ := found
    obtain ⟨text, performed⟩ := perform_eq command argument s
    refine ⟨decide ((command = .exit ∨ command = .endOfInput) ∧ argument = ""), text, ?_, ?_⟩
    · show (if (Entry.ofLine s.pending line).line = "" then _ else _ : Action Bool) s = _
      rw [if_neg (Entry.line_ne_empty_of_command taken), taken]
      exact performed
    · simp [Leaves, taken, or_and_right]

/-- **A line of source** is fed, and does not leave the shell. -/
theorem onLine_of_delivered {source : String} (delivered : delivered? s line = some source) :
    onLine limits line s = match feed limits source s with
      | .ok () s' => .ok false s'
      | .error interrupt s' => .error interrupt s' := by
  obtain ⟨rfl, nonempty, plain⟩ := delivered?_eq_some_iff.1 delivered
  show (if (Entry.ofLine s.pending line).line = "" then _ else _ : Action Bool) s = _
  rw [if_neg nonempty, plain]
  show (Shell.source limits (Entry.ofLine s.pending line).line >>= fun _ => pure false).run s = _
  rw [EStateM.run_bind, EStateM.run, source_eq]
  cases feed limits (Entry.ofLine s.pending line).line s <;> rfl

/-- The line that finishes an entry starts the next one afresh, whatever becomes of the run. -/
theorem onLine_of_finished (limits : Limits) {source : String}
    (delivered : delivered? s line = some source)
    (finished : Lexer.openBraces (s.pending ++ source ++ "\n") ≤ 0) :
    finalState (onLine limits line s) =
      ⟨finalState (Session.run limits (some (s.pending ++ source ++ "\n")) s.session), "",
        primaryPrompt⟩ := by
  rw [onLine_of_delivered delivered, feed_of_finished finished]
  cases Session.run limits (some (s.pending ++ source ++ "\n")) s.session <;> rfl

/-! ### The books -/

/-- The shell after the lines, whatever becomes of each. -/
def afterLines (limits : Limits) : List String → Shell → Shell
  | [], s => s
  | line :: lines, s => afterLines limits lines (finalState (onLine limits line s))

/-- What the lines are to the shell, each in the state in which the shell takes it. -/
def along (limits : Limits) (what : Shell → String → Option String) :
    List String → Shell → List String
  | [], _ => []
  | line :: lines, s =>
    (what s line).toList ++ along limits what lines (finalState (onLine limits line s))

/-- The state of the books: these entries were handed over, of the next one these lines are there,
and all this has made this shell of a new one with the session. -/
structure Books (limits : Limits) (session : Session) (es : List (List String))
    (begun : List String) (s : Shell) : Prop where
  pending_eq : s.pending = textOf begun
  prompt_eq : s.prompt = if s.pending = "" then primaryPrompt else secondaryPrompt
  finished : ∀ e ∈ es, Lexer.openBraces (textOf e) ≤ 0 ∧ OpenWithin e
  unfinished : ∀ i, 0 < i → i ≤ begun.length → 0 < Lexer.openBraces (textOf (begun.take i))
  runs : session.Runs limits (es.map textOf) s.session

theorem textOf_concat_ne_empty (lines : List String) (line : String) :
    textOf (lines ++ [line]) ≠ "" := by
  rw [textOf_concat]
  exact fun empty => by simpa using congrArg String.toList empty

namespace Books

variable {session : Session} {es : List (List String)} {begun : List String}

/-- A new shell has an empty ledger. -/
theorem start (limits : Limits) (session : Session) : Books limits session [] [] { session } where
  pending_eq := rfl
  prompt_eq := rfl
  finished := List.forall_mem_nil _
  unfinished _ pos le := absurd pos (Nat.not_lt.2 le)
  runs := .start

/-- Braces are open after all lines of the next entry but perhaps the one that is taken now. -/
theorem openWithin (books : Books limits session es begun s) (source : String) :
    OpenWithin (begun ++ [source]) := by
  intro i pos lt
  have le : i ≤ begun.length := by simpa [Nat.lt_succ_iff] using lt
  rw [List.take_append_of_le_length le]
  exact books.unfinished i pos le

/-- **One line** adds to the lines taken and to the texts handed over what it is to the shell. -/
theorem step (books : Books limits session es begun s) (line : String) :
    ∃ es' begun', Books limits session es' begun' (finalState (onLine limits line s)) ∧
      es'.flatten ++ begun' = es.flatten ++ begun ++ (delivered? s line).toList ∧
      es'.map textOf = es.map textOf ++ (handed? s line).toList := by
  cases delivered : delivered? s line with
  | none =>
    obtain ⟨answer, text, eq, -⟩ := onLine_of_none limits delivered
    have handed : handed? s line = none := by rw [handed?, delivered, Option.bind_none]
    rw [eq, handed]
    refine ⟨es, begun, ?_, (List.append_nil _).symm, (List.append_nil _).symm⟩
    exact { books with runs := books.runs.print text }
  | some source =>
    -- what is pending are the lines of the next entry, so the braces counted are those of its lines
    have text : s.pending ++ source ++ "\n" = textOf (begun ++ [source]) := by
      rw [textOf_concat, books.pending_eq]
    have within := books.openWithin source
    by_cases unfinished : 0 < Lexer.openBraces (textOf (begun ++ [source]))
    · have handed : handed? s line = none := by
        rw [handed?, delivered, Option.bind_some, text, if_pos unfinished]
      rw [onLine_of_delivered delivered, feed_of_open (text ▸ unfinished), handed, text]
      refine ⟨es, begun ++ [source], ?_, (List.append_assoc ..).symm, (List.append_nil _).symm⟩
      refine ⟨rfl, (if_neg (textOf_concat_ne_empty begun source)).symm, books.finished, ?_,
        books.runs⟩
      intro i pos le
      rcases Nat.lt_or_eq_of_le le with lt | rfl
      · exact within i pos lt
      · rwa [List.take_length]
    · have closed : Lexer.openBraces (textOf (begun ++ [source])) ≤ 0 := Int.not_lt.1 unfinished
      have handed : handed? s line = some (textOf (begun ++ [source])) := by
        rw [handed?, delivered, Option.bind_some, text, if_neg unfinished]
      have ended := onLine_of_finished limits delivered (text ▸ closed)
      rw [ended, handed, text]
      refine ⟨es ++ [begun ++ [source]], [], ?_, by simp, by simp⟩
      refine ⟨rfl, rfl, List.forall_mem_append.2 ⟨books.finished, ?_⟩,
        fun _ pos le => absurd pos (Nat.not_lt.2 le), ?_⟩
      · exact List.forall_mem_singleton.2 ⟨closed, within⟩
      · rw [List.map_append]
        exact books.runs.run (textOf (begun ++ [source]))

/-- **A whole history** adds to the lines taken and to the texts handed over what its lines are to
the shell. -/
theorem run (books : Books limits session es begun s) (lines : List String) :
    ∃ es' begun', Books limits session es' begun' (afterLines limits lines s) ∧
      es'.flatten ++ begun' = es.flatten ++ begun ++ along limits delivered? lines s ∧
      es'.map textOf = es.map textOf ++ along limits handed? lines s := by
  induction lines generalizing es begun s with
  | nil => exact ⟨es, begun, books, (List.append_nil _).symm, (List.append_nil _).symm⟩
  | cons line lines ih =>
    obtain ⟨es₁, begun₁, books₁, delivered₁, handed₁⟩ := books.step line
    obtain ⟨es', begun', books', delivered', handed'⟩ := ih books₁
    refine ⟨es', begun', books', ?_, ?_⟩
    · rw [delivered', delivered₁, along, List.append_assoc _ _ (along ..)]
    · rw [handed', handed₁, along, List.append_assoc _ _ (along ..)]

end Books

/-! ### The ledger -/

/-- What can be said of a shell that was new with the session, when these lines of source were taken
and these texts handed over. -/
structure Ledger (limits : Limits) (session : Session) (delivered handed : List String)
    (s : Shell) : Prop where
  /-- The pending text is empty, or it ends with a newline and has open braces. -/
  pending : s.pending = "" ∨
    (∃ text, s.pending = text ++ "\n") ∧ 0 < Lexer.openBraces s.pending
  /-- The second prompt asks for the next line of an unfinished entry. -/
  prompt : s.prompt = if s.pending = "" then primaryPrompt else secondaryPrompt
  /-- The books balance. -/
  balance : String.join handed ++ s.pending = textOf delivered
  /-- A text is handed over with the first line at which no brace is open. -/
  entries : ∃ (es : List (List String)) (begun : List String),
    delivered = es.flatten ++ begun ∧ handed = es.map textOf ∧ s.pending = textOf begun ∧
    ∀ e ∈ es, Lexer.openBraces (textOf e) ≤ 0 ∧ OpenWithin e
  /-- The texts handed over are run, in this order and nothing else. -/
  runs : session.Runs limits handed s.session
  /-- Only a command without an argument leaves the shell. -/
  leaves : ∀ line, (∃ s', onLine limits line s = .ok true s') ↔ Leaves (Entry.ofLine s.pending line)
  /-- A line is cut short only with a run. -/
  interrupts : ∀ line interrupt s', onLine limits line s = .error interrupt s' →
    interrupt = .unfinished ∨
      session.journal.fatal = true ∧ ∃ status, interrupt = .exit status

theorem textOf_flatten (es : List (List String)) :
    textOf es.flatten = String.join (es.map textOf) := by
  induction es with
  | nil => rfl
  | cons e es ih => rw [List.flatten_cons, textOf_append, ih, List.map_cons, String.join_cons]

theorem onLine_eq_ok_true_iff :
    (∃ s', onLine limits line s = .ok true s') ↔ Leaves (Entry.ofLine s.pending line) := by
  cases delivered : delivered? s line with
  | none =>
    obtain ⟨answer, text, eq, leaves⟩ := onLine_of_none limits delivered
    rw [eq, ← leaves]
    constructor
    · rintro ⟨s', ⟨⟩⟩
      rfl
    · rintro rfl
      exact ⟨_, rfl⟩
  | some source =>
    obtain ⟨-, -, plain⟩ := delivered?_eq_some_iff.1 delivered
    have stays : ¬ Leaves (Entry.ofLine s.pending line) := by simp [Leaves, plain]
    refine iff_of_false ?_ stays
    rintro ⟨s', left⟩
    rw [onLine_of_delivered delivered] at left
    cases fed : feed limits source s with
    | ok u s₁ => rw [fed] at left; cases left
    | error interrupt s₁ => rw [fed] at left; cases left

theorem interrupt_of_onLine {interrupt : Interrupt} {s' : Shell}
    (cut : onLine limits line s = .error interrupt s') :
    interrupt = .unfinished ∨
      s.session.journal.fatal = true ∧ ∃ status, interrupt = .exit status := by
  cases delivered : delivered? s line with
  | none =>
    obtain ⟨answer, text, eq, -⟩ := onLine_of_none limits delivered
    cases eq.symm.trans cut
  | some source =>
    rw [onLine_of_delivered delivered] at cut
    by_cases unfinished : 0 < Lexer.openBraces (s.pending ++ source ++ "\n")
    · rw [feed_of_open unfinished] at cut
      cases cut
    · rw [feed_of_finished (Int.not_lt.1 unfinished)] at cut
      cases ran : Session.run limits (some (s.pending ++ source ++ "\n")) s.session with
      | ok answer session =>
        rw [ran] at cut
        cases cut
      | error interrupt' session =>
        rw [ran] at cut
        cases cut
        exact Session.interrupt_of_run ran

/-- **The ledger of a shell.** After any lines, also after lines that leave it and runs that fail, a
new shell has run or still holds exactly the lines of source that it took. -/
theorem ledger_afterLines (limits : Limits) (session : Session) (lines : List String) :
    Ledger limits session (along limits delivered? lines { session })
      (along limits handed? lines { session }) (afterLines limits lines { session }) := by
  obtain ⟨es, begun, books, delivered, handed⟩ := (Books.start limits session).run lines
  simp only [List.flatten_nil, List.map_nil, List.nil_append] at delivered handed
  rw [← delivered, ← handed]
  have pending := books.pending_eq
  refine ⟨?_, books.prompt_eq, ?_, ⟨es, begun, rfl, rfl, pending, books.finished⟩, books.runs,
    fun line => onLine_eq_ok_true_iff, fun line interrupt s' cut => ?_⟩
  · by_cases nothing : begun = []
    · rw [nothing] at pending
      exact .inl pending
    · have positive : 0 < begun.length := List.length_pos_iff.2 nothing
      have unfinished := books.unfinished begun.length positive (Nat.le_refl _)
      rw [List.take_length] at unfinished
      rw [pending]
      exact .inr ⟨exists_textOf_eq nothing, unfinished⟩
  · rw [pending, textOf_append, textOf_flatten]
  · rw [← books.runs.fatal_eq]
    exact interrupt_of_onLine cut

/-! A word that is a command elsewhere is source in an unfinished entry. An empty line is not. -/

example :
    let lines := ["\x7b print 1;", "", "exit", "\x7d", "exit"]
    along ⟨9, 9⟩ delivered? lines initial = ["\x7b print 1;", "exit", "\x7d"] ∧
      along ⟨9, 9⟩ handed? lines initial = ["\x7b print 1;\nexit\n\x7d\n"] := by
  decide +kernel

end Shell

end Lox
