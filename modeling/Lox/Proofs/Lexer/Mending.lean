import Lox.Proofs.Lexer.Site

/-!
# Mending a source

A stray character costs itself and nothing else. Put a space in its place, and the other pieces are
cut off as before: with a blank in it a longer piece could only be a string or a comment, and those
do not end earlier than they must (`pieces_of_blanked`).
-/

namespace Lox.Lexer

/-! ### Texts with blanks in them -/

/-- The second text has spaces in the place of some characters of the first, but not of newlines. -/
abbrev Blanked (cs ds : List Char) : Prop :=
  List.Forall₂ (fun c d => d = c ∨ d = ' ' ∧ c ≠ '\n') cs ds

theorem Blanked.refl (cs : List Char) : Blanked cs cs := List.forall₂_same.2 fun _ _ => .inl rfl

/-- What begins the second text without a space begins the first. -/
theorem Blanked.begins {cs ds front : List Char} (h : Blanked cs ds) (begins : front <+: ds)
    (no_space : ' ' ∉ front) : front <+: cs := by
  induction h generalizing front with
  | nil => exact begins
  | @cons c d cs ds same _ ih =>
    rcases List.prefix_cons_iff.1 begins with rfl | ⟨rest, rfl, behind⟩
    · exact List.nil_prefix
    · obtain ⟨here, later⟩ := not_or.1 (mt List.mem_cons.2 no_space)
      obtain rfl := same.resolve_right fun space => here space.1.symm
      exact List.cons_prefix_cons.2 ⟨rfl, ih behind later⟩

/-- A piece with a space in it is a string, a comment, or the space alone. -/
theorem Piece.Lawful.form_of_space {p : Piece} (lawful : p.Lawful) (space : ' ' ∈ p.text) :
    p.form = .string ∨ p.form = .comment ∨ p.text = [' '] := by
  cases lawful with
  | @mark text kind known =>
    have none : ∀ entry ∈ marks, ' ' ∉ entry.1 := by decide
    exact absurd space (none _ known)
  | integer _ digits => exact absurd (digits _ space) (by decide)
  | decimal _ digits _ fraction_digits =>
    rcases List.mem_append.1 space with whole | part
    · exact absurd (digits _ whole) (by decide)
    · exact absurd (fraction_digits _ ((List.mem_cons.1 part).resolve_left (by decide)))
        (by decide)
  | word first others =>
    rcases List.mem_cons.1 space with rfl | later
    · exact absurd first (by decide)
    · exact absurd (others _ later) (by decide)
  | string => exact .inl rfl
  | comment => exact .inr (.inl rfl)
  | @blank c _ =>
    rw [List.mem_singleton.1 space]
    exact .inr (.inr rfl)
  | newline => exact absurd (List.mem_singleton.1 space) (by decide)

section Cut

variable {c : Char} {cs rest rest' more : List Char} {p q : Piece}

/-- A string ends at its first quote. -/
theorem eq_nil_of_string (lawful : p.Lawful) (cut_eq : cut c cs = (p, rest)) (lawful_q : q.Lawful)
    (string : q.form = .string) (longer : p.text ++ more = q.text) : more = [] := by
  have whole : p.text ++ rest = c :: cs := by rw [← cut_append c cs, cut_eq]
  obtain ⟨d, tail, text⟩ := List.exists_cons_of_ne_nil lawful.text_ne_nil
  rw [text, List.cons_append] at whole longer
  obtain ⟨rfl, -⟩ := List.cons.inj whole
  have quote : d = '"' := by
    cases lawful_q with
    | string => exact (List.cons.inj longer).1
    | _ => cases string
  subst quote
  by_cases inside : '"' ∈ cs
  · obtain ⟨body, behind, rfl, outside⟩ := List.eq_append_cons_of_mem inside
    rw [cut_closed outside] at cut_eq
    obtain ⟨rfl, rfl⟩ := Prod.mk.inj cut_eq
    -- the longer one stands alone and is cut off as a whole, and still it ends at that quote
    have alone := lawful_q.cut_eq longer.symm
    obtain ⟨-, rfl⟩ := List.cons.inj text
    have split : body.append ['"'] ++ more = body ++ '"' :: more := List.append_assoc body ['"'] more
    rw [split, cut_closed outside] at alone
    exact (Prod.mk.inj alone).2
  · rw [cut_unclosed inside] at cut_eq
    obtain ⟨rfl, -⟩ := Prod.mk.inj cut_eq
    exact absurd rfl lawful.form_ne.2

/-- A comment ends with its line, and a slash begins one only in front of a slash. -/
theorem eq_nil_of_comment (lawful : p.Lawful) (cut_eq : cut c cs = (p, rest))
    (blanked : Blanked rest rest') (begins : more <+: rest') {body : List Char}
    (inside : '\n' ∉ body) (longer : p.text ++ more = '/' :: '/' :: body) : more = [] := by
  have whole : p.text ++ rest = c :: cs := by rw [← cut_append c cs, cut_eq]
  obtain ⟨d, tail, text⟩ := List.exists_cons_of_ne_nil lawful.text_ne_nil
  have starts := longer
  rw [text, List.cons_append] at whole starts
  obtain ⟨rfl, -⟩ := List.cons.inj whole
  obtain ⟨rfl, -⟩ := List.cons.inj starts
  cases more with
  | nil => rfl
  | cons x xs =>
    obtain ⟨ys, rfl⟩ := begins
    obtain ⟨y, others, same, -, rfl⟩ := List.forall₂_cons_right_iff.1 blanked
    by_cases double : ∃ behind, cs = '/' :: behind
    · obtain ⟨behind, rfl⟩ := double
      rw [cut_comment] at cut_eq
      obtain ⟨rfl, left⟩ := Prod.mk.inj cut_eq
      have newline : y = '\n' := by
        have stopped := List.head?_dropWhile_not (fun d => decide (d ≠ '\n')) behind
        rw [left] at stopped
        simpa using stopped
      obtain rfl := same.resolve_right fun space => space.2 newline
      have among : x ∈ body := by
        have tails := (List.cons.inj (List.cons.inj longer).2).2
        rw [← tails]
        simp
      exact absurd (newline ▸ among) inside
    · rw [cut_slash (not_exists.1 double)] at cut_eq
      obtain ⟨rfl, rfl⟩ := Prod.mk.inj cut_eq
      have slash : x = '/' := (List.cons.inj (List.cons.inj longer).2).1
      subst slash
      rcases same with rfl | ⟨space, -⟩
      · exact absurd ⟨others, rfl⟩ double
      · exact absurd space (by decide)

/-- **What is cut off** is still cut off when characters behind it are blanked out. -/
theorem pieces_of_blanked (lawful : p.Lawful) (cut_eq : cut c cs = (p, rest))
    (blanked : Blanked rest rest') : pieces (p.text ++ rest') = p :: pieces rest' := by
  have first : First (p.text ++ rest') p rest' := by
    refine .longest lawful fun q lawful_q front => Nat.le_of_not_lt fun longer => ?_
    have whole : p.text ++ rest = c :: cs := by rw [← cut_append c cs, cut_eq]
    obtain ⟨more, eq⟩ : p.text <+: q.text :=
      List.prefix_of_prefix_length_le (List.prefix_append _ _) front (Nat.le_of_lt longer)
    rw [← eq] at front longer
    have begins : more <+: rest' := (List.prefix_append_right_inj _).1 front
    by_cases space : ' ' ∈ more
    · -- with a space in it the longer piece does not exist
      have nothing : more = [] := by
        rcases lawful_q.form_of_space (eq ▸ List.mem_append_right _ space) with
          string | comment | alone
        · exact eq_nil_of_string lawful cut_eq lawful_q string eq
        · cases lawful_q with
          | comment inside => exact eq_nil_of_comment lawful cut_eq blanked begins inside eq
          | _ => cases comment
        · rw [← eq] at alone
          rcases List.append_eq_singleton_iff.1 alone with ⟨empty, -⟩ | ⟨-, nothing⟩
          · exact absurd empty lawful.text_ne_nil
          · exact nothing
      rw [nothing] at longer
      simp at longer
    · -- without a space in it the longer piece begins the source, too
      have among : q.text <+: c :: cs := by
        rw [← eq, ← whole]
        exact (List.prefix_append_right_inj _).2 (blanked.begins begins space)
      have longest := (cut_longest lawful_q among).1
      rw [cut_eq, ← eq] at longest
      dsimp only at longest
      omega
  exact (decomposes_iff.1 (.cons first (decomposes_pieces rest'))).symm

end Cut

/-! ### Spaces in the place of stray characters -/

/-- The piece, or a space in the place of a stray character. -/
def Piece.mend (p : Piece) : Piece := if p.form = .stray then ⟨.blank, [' ']⟩ else p

/-- The source with a space in the place of each stray character. -/
def mend (source : List Char) : List Char := (pieces source).flatMap fun p => p.mend.text

/-- Only stray characters change. -/
theorem Piece.mend_cases {cs : List Char} {p : Piece} (mem : p ∈ pieces cs) :
    p.form ≠ .stray ∧ p.mend = p ∨
      ∃ c, p = ⟨.stray, [c]⟩ ∧ c ≠ '\n' ∧ c ≠ ' ' ∧ p.mend = ⟨.blank, [' ']⟩ := by
  by_cases stray : p.form = .stray
  · obtain ⟨c, rfl, no_newline, no_space⟩ := stray_of_mem_pieces mem stray
    exact .inr ⟨c, rfl, no_newline, no_space, rfl⟩
  · exact .inl ⟨stray, if_neg stray⟩

theorem blanked_mend (cs : List Char) : Blanked cs (mend cs) := by
  have piece : ∀ p ∈ pieces cs, Blanked p.text p.mend.text := by
    intro p mem
    rcases Piece.mend_cases mem with ⟨-, same⟩ | ⟨c, rfl, no_newline, -, space⟩
    · rw [same]
      exact .refl p.text
    · rw [space]
      exact .cons (.inr ⟨rfl, no_newline⟩) .nil
  rw [mend]
  nth_rewrite 1 [← flatten_pieces cs]
  generalize pieces cs = ps at piece
  induction ps with
  | nil => exact .nil
  | cons p ps ih =>
    obtain ⟨here, later⟩ := List.forall_mem_cons.1 piece
    rw [List.flatMap_cons, List.flatMap_cons]
    exact List.rel_append here (ih later)

/-- **The pieces of a mended source** are those of the source, mended. -/
theorem pieces_mend (cs : List Char) : pieces (mend cs) = (pieces cs).map Piece.mend := by
  fun_induction pieces cs with
  | case1 => simp [mend]
  | case2 c cs ih =>
    have split : mend (c :: cs) = (cut c cs).1.mend.text ++ mend (cut c cs).2 := by
      rw [mend, pieces_cons, List.flatMap_cons, mend]
    rw [split, List.map_cons, ← ih]
    rcases cut_cases c cs with lawful | ⟨-, stray⟩ | ⟨rfl, inside⟩
    · rw [Piece.mend, if_neg lawful.form_ne.1]
      exact pieces_of_blanked lawful rfl (blanked_mend _)
    · rw [stray]
      show pieces (' ' :: mend cs) = _
      rw [pieces_cons, cut_of_isBlank (by decide)]
      rfl
    · have nothing : mend [] = [] := by simp [mend]
      rw [cut_unclosed inside, nothing]
      show pieces ('"' :: cs ++ []) = _
      rw [List.append_nil, pieces_cons, cut_unclosed inside]
      rfl

/-! ### Tokens and faults -/

/-- The unexpected character of a fault. -/
def Fault.character? (f : Fault) : Option Char :=
  match f.cause with
  | .unexpected c => some c
  | .unterminated => none

/-- The characters of the first text at the places where the second has others. -/
def replaced (cs ds : List Char) : List Char :=
  (cs.zip ds).filterMap fun (c, d) => if c = d then none else some c

theorem replaced_self (cs : List Char) : replaced cs cs = [] := by
  induction cs with
  | nil => rfl
  | cons c cs ih => simpa [replaced] using ih

theorem replaced_append {cs ds : List Char} (same : cs.length = ds.length) (as bs : List Char) :
    replaced (cs ++ as) (ds ++ bs) = replaced cs ds ++ replaced as bs := by
  rw [replaced, List.zip_append same, List.filterMap_append, replaced, replaced]

/-- What putting a space in the place of a stray character changes: the fault is gone, and nothing
else. -/
structure Piece.Mends (p : Piece) (line : Int) : Prop where
  length : p.text.length = p.mend.text.length
  newlines : p.mend.newlines = p.newlines
  token : p.mend.token? line = p.token? line
  fault : (p.mend.fault? line).toList = (p.fault? line).toList.filter (·.cause = .unterminated)
  replaced : replaced p.text p.mend.text = (p.fault? line).toList.filterMap Fault.character?

theorem Piece.mends {cs : List Char} {p : Piece} (mem : p ∈ pieces cs) (line : Int) :
    p.Mends line := by
  rcases mend_cases mem with ⟨not_stray, same⟩ | ⟨c, rfl, no_newline, no_space, space⟩
  · have unterminated : ∀ f ∈ (p.fault? line).toList, f = ⟨.unterminated, line⟩ := by
      intro f mem
      rcases fault?_cases (Option.mem_toList.1 mem) with ⟨stray, -⟩ | ⟨-, eq⟩
      · exact absurd stray not_stray
      · exact eq
    constructor <;> rw [same]
    · refine (List.filter_eq_self.2 fun f mem => ?_).symm
      rw [unterminated f mem]
      rfl
    · rw [replaced_self]
      refine (List.filterMap_eq_nil_iff.2 fun f mem => ?_).symm
      rw [unterminated f mem]
      rfl
  · constructor <;> rw [space]
    · rfl
    · simp [newlines, no_newline]
    · rfl
    · rfl
    · simp [Lexer.replaced, no_space, fault?, Fault.character?]

section Mended

variable {cs : List Char} {ps : List Piece}

/-- The tokens of a mended source are those of the source, on the same lines. -/
theorem tokensFrom_mend (among : ∀ p ∈ ps, p ∈ pieces cs) (line : Int) :
    tokensFrom line (ps.map Piece.mend) = tokensFrom line ps := by
  induction ps generalizing line with
  | nil => rfl
  | cons p ps ih =>
    obtain ⟨here, later⟩ := List.forall_mem_cons.1 among
    have mends := p.mends here (line + p.newlines)
    rw [List.map_cons, tokensFrom, mends.newlines, mends.token, ih later, tokensFrom]

/-- The faults of a mended source are those of the source without the unexpected characters. -/
theorem faultsFrom_mend (among : ∀ p ∈ ps, p ∈ pieces cs) (line : Int) :
    faultsFrom line (ps.map Piece.mend) =
      (faultsFrom line ps).filter (·.cause = .unterminated) := by
  induction ps generalizing line with
  | nil => rfl
  | cons p ps ih =>
    obtain ⟨here, later⟩ := List.forall_mem_cons.1 among
    have mends := p.mends here (line + p.newlines)
    rw [List.map_cons, faultsFrom, mends.newlines, mends.fault, ih later, faultsFrom,
      List.filter_append]

/-- What is replaced are the unexpected characters. -/
theorem replaced_mend (among : ∀ p ∈ ps, p ∈ pieces cs) (line : Int) :
    replaced (ps.flatMap Piece.text) (ps.flatMap (·.mend.text)) =
      (faultsFrom line ps).filterMap Fault.character? := by
  induction ps generalizing line with
  | nil => rfl
  | cons p ps ih =>
    obtain ⟨here, later⟩ := List.forall_mem_cons.1 among
    have mends := p.mends here (line + p.newlines)
    rw [List.flatMap_cons, List.flatMap_cons, replaced_append mends.length, mends.replaced,
      ih later, faultsFrom, List.filterMap_append]

end Mended

/-! ### A quote that is never closed -/

section Unclosed

variable {source : String}

/-- An unterminated string has its site. -/
theorem exists_unclosed {f : Fault} (mem : f ∈ faults source) (cause : f.cause = .unterminated) :
    ∃ s : Site source.toList, s.piece.form = .unclosed := by
  by_contra none
  refine cause_ne_iff.2 (fun p among unclosed => none ?_) f mem cause
  obtain ⟨before, after, split⟩ := List.append_of_mem among
  exact ⟨⟨before, p, after, split⟩, unclosed⟩

namespace Site

variable (s : Site source.toList) (unclosed : s.piece.form = .unclosed)

include unclosed

/-- No other quote follows. -/
theorem exists_body : ∃ body, s.piece = ⟨.unclosed, '"' :: body⟩ ∧ '"' ∉ body := by
  rcases mem_pieces_cases s.mem_pieces with lawful | ⟨c, stray, -⟩ | body
  · exact absurd unclosed lawful.form_ne.2
  · rw [stray] at unclosed
    cases unclosed
  · exact body

theorem pieces_eq : pieces source.toList = pieces s.start ++ [s.piece] := by
  rw [s.pieces_start, s.split, s.after_eq_nil unclosed]

/-- **The tokens of a source with an open quote** are those of the text before it. -/
theorem dropLast_tokens :
    (tokens source).dropLast = (tokens (String.ofList s.start)).dropLast := by
  obtain ⟨body, piece, -⟩ := s.exists_body unclosed
  rw [tokens, s.pieces_eq unclosed, tokensFrom_append, piece, tokens, String.toList_ofList]
  exact List.dropLast_concat

/-- **The problems of a source with an open quote** are those of the text before it and then the
unterminated string. -/
theorem faults_eq :
    faults source = faults (String.ofList s.start) ++ [⟨.unterminated, 1 + lineBreaks source⟩] := by
  obtain ⟨body, piece, -⟩ := s.exists_body unclosed
  have lines : (1 : Int) + newlinesOf (pieces s.start) + s.piece.newlines = 1 + lineBreaks source := by
    have whole := congrArg (List.count '\n') (s.stop_eq unclosed)
    rw [stop, List.count_append] at whole
    rw [newlinesOf_pieces, Piece.newlines, lineBreaks]
    omega
  rw [faults, s.pieces_eq unclosed, faultsFrom_append, faultsFrom, lines, piece, faults,
    String.toList_ofList]
  rfl

omit unclosed in
/-- Before a piece no string is reported as unterminated. -/
theorem cause_ne : ∀ f ∈ faults (String.ofList s.start), f.cause ≠ .unterminated := by
  rw [faults, String.toList_ofList, s.pieces_start]
  exact cause_ne_iff.2 s.closed_before

end Site

end Unclosed

/-! ### The cost of lexical problems -/

/-- Problems other than unterminated strings have characters. -/
theorem length_filterMap_character {fs : List Fault} (h : ∀ f ∈ fs, f.cause ≠ .unterminated) :
    (fs.filterMap Fault.character?).length = fs.length := by
  induction fs with
  | nil => rfl
  | cons f fs ih =>
    obtain ⟨here, later⟩ := List.forall_mem_cons.1 h
    obtain ⟨cause, line⟩ := f
    cases cause with
    | unexpected c => exact congrArg (· + 1) (ih later)
    | unterminated => exact absurd rfl here

/-- Every problem has a character, up to the unterminated string at the end. -/
theorem length_faults_eq (source : String) :
    (faults source).length = ((faults source).filterMap Fault.character?).length
      + if ∃ f ∈ faults source, f.cause = .unterminated then 1 else 0 := by
  by_cases opened : ∃ f ∈ faults source, f.cause = .unterminated
  · obtain ⟨f, mem, cause⟩ := id opened
    obtain ⟨s, unclosed⟩ := exists_unclosed mem cause
    rw [if_pos opened, s.faults_eq unclosed, List.filterMap_append, List.length_append,
      List.length_append, length_filterMap_character s.cause_ne]
    rfl
  · have none : ∀ f ∈ faults source, f.cause ≠ .unterminated := fun f mem cause =>
      opened ⟨f, mem, cause⟩
    rw [if_neg opened, length_filterMap_character none, Nat.add_zero]

/-- The second source is the first with spaces for all that was unexpected in it: what lexical
problems cost. -/
structure Mended (source mended : String) : Prop where
  spaces : List.Forall₂ (fun c d => d = c ∨ d = ' ') source.toList mended.toList
  /-- The characters that are replaced are those that are reported. -/
  replaced_eq : replaced source.toList mended.toList = (faults source).filterMap Fault.character?
  tokens_eq : tokens mended = tokens source
  /-- No unexpected character is left. -/
  faults_eq : faults mended = (faults source).filter (·.cause = .unterminated)
  /-- An unterminated string costs the text from its quote on, and is the last problem. -/
  unterminated : ∀ f ∈ faults source, f.cause = .unterminated →
    ∃ (s : Site source.toList) (body : List Char), s.piece = ⟨.unclosed, '"' :: body⟩
      ∧ source.toList = s.start ++ '"' :: body ∧ '"' ∉ body
      ∧ (tokens source).dropLast = (tokens (String.ofList s.start)).dropLast
      ∧ faults source = faults (String.ofList s.start) ++ [f]
  length_faults : (faults source).length = (replaced source.toList mended.toList).length
    + if ∃ f ∈ faults source, f.cause = .unterminated then 1 else 0

/-- **Lexical problems cost only the offending characters.** With a journal that is not fatal all of
them are recorded. Without the unexpected characters the source has the same tokens on the same
lines, and an unterminated string costs only itself. -/
theorem scan_mend (source : String) (console : Console) (nonfatal : console.journal.fatal = false) :
    Mended source (String.ofList (mend source.toList))
      ∧ ∃ console', Interaction.reportAll (diagnostics source) console = .ok () console'
        ∧ console'.journal.errors =
          console.journal.errors ++ (faults source).map Fault.diagnostic := by
  have among : ∀ p ∈ pieces source.toList, p ∈ pieces source.toList := fun _ mem => mem
  have mended : (String.ofList (mend source.toList)).toList = mend source.toList :=
    String.toList_ofList
  have chars : replaced source.toList (mend source.toList) =
      (faults source).filterMap Fault.character? := by
    have chars := replaced_mend among 1
    rwa [flatten_pieces] at chars
  refine ⟨⟨?spaces, ?replaced, ?tokens, ?faults, ?unterminated, ?length⟩, _,
    Interaction.reportAll_of_nonfatal nonfatal _, Interaction.errors_reportedAll _ console⟩
  case spaces =>
    rw [mended]
    exact (blanked_mend source.toList).imp fun c d same => same.imp_right And.left
  case replaced => rw [mended, chars]
  case tokens => rw [tokens, mended, pieces_mend, tokensFrom_mend among, tokens]
  case faults => rw [faults, mended, pieces_mend, faultsFrom_mend among, faults]
  case unterminated =>
    intro f mem cause
    obtain ⟨s, unclosed⟩ := exists_unclosed mem cause
    obtain ⟨body, piece, inside⟩ := s.exists_body unclosed
    refine ⟨s, body, piece, ?_, inside, s.dropLast_tokens unclosed, ?_⟩
    · have whole := (s.stop_eq unclosed).symm
      rwa [Site.stop, piece] at whole
    · rw [s.faults_eq unclosed] at mem ⊢
      -- the faults before the quote have other causes
      have last := (List.mem_append.1 mem).resolve_left fun before => s.cause_ne f before cause
      rw [List.mem_singleton.1 last]
  case length =>
    rw [mended, chars]
    exact length_faults_eq source

/-- An unexpected character in a number, in an operator and before a quote that is never closed;
one in a string and one in a comment are expected. -/
theorem scan_mend_unclosed :
    let source := "1.@5 !#= \"a@\" // $\n^\"open"
    let console : Console := { journal := {} }
    console.journal.fatal = false
      ∧ Mended source "1. 5 ! = \"a@\" // $\n \"open"
      ∧ ∃ console', Interaction.reportAll (diagnostics source) console = .ok () console'
        ∧ console'.journal.errors = console.journal.errors ++ (faults source).map Fault.diagnostic := by
  intro source console
  have mended : "1. 5 ! = \"a@\" // $\n \"open" = String.ofList (mend source.toList) := by
    decide +kernel
  rw [mended]
  exact ⟨rfl, scan_mend source console rfl⟩

end Lox.Lexer
