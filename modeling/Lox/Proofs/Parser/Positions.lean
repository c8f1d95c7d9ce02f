import Lox.Lexer
import Lox.Proofs.Parser.Complaints
import Lox.Proofs.Parser.Origin
import Lox.Proofs.Parser.Stored

/-!
# Positions

Two tokens of a program may be equal, and yet a parse treats them apart. So what it does with a
token is stated by position. Since the parser sees only kinds, there is nothing to add to it for
this: it is given tokens that are told apart by their position (`Token.numbered`), and what it does
with these it does with all tokens of the same kinds (`ofTokens_eq_map_numbered`).
-/

namespace Lox

/-! ### Numbered tokens -/

namespace Token

/-- Tokens of these kinds, with their positions in the place of lines. -/
def numbered (kinds : List Kind) : List Token := kinds.mapIdx fun i kind => ⟨kind, "", i, .nil⟩

/-- The position of a numbered token. -/
def number (t : Token) : Nat := t.line.toNat

/-- The token at the position of a numbered one, if the kinds agree. -/
def placed (ts : List Token) (t : Token) : Token :=
  match ts[t.number]? with
  | some u => if u.kind = t.kind then u else t
  | none => t

theorem placed_of_getElem? {ts : List Token} {t u : Token} (at_t : ts[t.number]? = some u)
    (same : u.kind = t.kind) : t.placed ts = u := by
  rw [placed, at_t]
  exact if_pos same

theorem kind_placed (ts : List Token) (t : Token) : (t.placed ts).kind = t.kind := by
  unfold placed
  split
  · split
    next same => exact same
    next => rfl
  · rfl

theorem getElem?_numbered (kinds : List Kind) (i : Nat) :
    (numbered kinds)[i]? = kinds[i]?.map fun kind => ⟨kind, "", i, .nil⟩ :=
  List.getElem?_mapIdx

theorem map_kind_numbered (kinds : List Kind) : (numbered kinds).map kind = kinds := by
  refine List.ext_getElem? fun i => ?_
  rw [List.getElem?_map, getElem?_numbered, Option.map_map]
  exact Option.map_id' ..

theorem number_of_getElem? {kinds : List Kind} {i : Nat} {t : Token}
    (at_i : (numbered kinds)[i]? = some t) : t.number = i := by
  rw [getElem?_numbered] at at_i
  obtain ⟨kind, -, rfl⟩ := Option.map_eq_some_iff.1 at_i
  exact Int.toNat_natCast i

theorem map_number_numbered (kinds : List Kind) :
    (numbered kinds).map number = List.range kinds.length := by
  have length : (numbered kinds).length = kinds.length := List.length_mapIdx
  apply List.ext_getElem
  · rw [List.length_map, length, List.length_range]
  · intro i lt lt'
    rw [List.getElem_map, List.getElem_range]
    exact number_of_getElem? (List.getElem?_eq_getElem _)

theorem map_placed_numbered (ts : List Token) :
    (numbered (ts.map kind)).map (placed ts) = ts := by
  refine List.ext_getElem? fun i => ?_
  rw [List.getElem?_map, getElem?_numbered, List.getElem?_map, Option.map_map, Option.map_map]
  rcases h : ts[i]? with _ | t
  · rfl
  · exact congrArg some (placed_of_getElem? h rfl)

/-- A numbered token stands for the one at its position. -/
theorem getElem?_number {ts : List Token} {t : Token} (mem : t ∈ numbered (ts.map kind)) :
    ts[t.number]? = some (t.placed ts) := by
  obtain ⟨i, at_i⟩ := List.mem_iff_getElem?.1 mem
  have placed := congrArg (·[i]?) (map_placed_numbered ts)
  simp only [List.getElem?_map, at_i, Option.map_some] at placed
  rw [number_of_getElem? at_i, placed]

end Token

namespace Parsed

open Lox.Parser

variable {depth : Nat}

/-! ### What is reported, by position -/

/-- The token at a position. Behind the list, an end token closes it. -/
def tokenAt (tokens : List Token) (i : Nat) : Token := tokens[i]?.getD (Token.eof 1)

/-- What parsing reports, by position: the complaints in their order, and where nesting goes over
the limit. -/
structure Report where
  marks : List (Cause × Nat)
  overflow : Option Nat
  deriving DecidableEq

namespace Report

/-- A complaint about the token at a position. -/
def complaint (tokens : List Token) (mark : Cause × Nat) : Diagnostic :=
  .atToken .grammatical (tokenAt tokens mark.2) mark.1.message

/-- The problems that a report means for these tokens. -/
def diagnostics (r : Report) (tokens : List Token) : List Diagnostic :=
  r.marks.map (complaint tokens) ++
    r.overflow.toList.map fun i => Diagnostic.tooDeep (some (tokenAt tokens i).line)

/-- Where the first end token stands, or would have to. -/
def last (kinds : List Kind) : Nat := kinds.findIdx (· = .eof)

/-- The position of a numbered token, or of the end. -/
def position (kinds : List Kind) (t : Token) : Nat :=
  if t.kind = .eof then last kinds else t.number

/-- The position that a complaint about numbered tokens is told at. -/
def positionOf (kinds : List Kind) (c : Complaint) : Nat :=
  position kinds (c.blamed.getD (closing (Token.numbered kinds)))

/-- What parsing reports about tokens of these kinds. -/
def ofKinds (depth : Nat) (kinds : List Kind) : Report :=
  let parsed := ofTokens depth (Token.numbered kinds)
  ⟨parsed.complaints.map fun c => (c.cause, positionOf kinds c), parsed.overflow.map (position kinds)⟩

theorem positions_ofKinds (depth : Nat) (kinds : List Kind) :
    (ofKinds depth kinds).marks.map Prod.snd =
      (ofTokens depth (Token.numbered kinds)).complaints.map (positionOf kinds) :=
  List.map_map

theorem overflow_ofKinds (depth : Nat) (kinds : List Kind) :
    (ofKinds depth kinds).overflow =
      (ofTokens depth (Token.numbered kinds)).overflow.map (position kinds) := rfl

end Report

/-! ### What the tokens of an answer are -/

theorem kind_closing (tokens : List Token) : (closing tokens).kind = .eof := by
  rw [closing]
  cases first : tokens.find? (·.kind = .eof) with
  | none => rfl
  | some t => simpa using List.find?_some first

theorem kind_ne_of_mem_body {tokens : List Token} {t : Token} (inside : t ∈ body tokens) :
    t.kind ≠ .eof := by
  simpa using List.all_eq_true.1 List.all_takeWhile t inside

theorem mem_of_mem_body {tokens : List Token} {t : Token} (inside : t ∈ body tokens) :
    t ∈ tokens :=
  (List.takeWhile_sublist _).subset inside

theorem blamed_mem_body {tokens : List Token} {c : Complaint}
    (mem : c ∈ (ofTokens depth tokens).complaints) {t : Token} (blamed : c.blamed = some t) :
    t ∈ body tokens :=
  (covers_complaints depth tokens).blamed.subset (List.mem_filterMap.2 ⟨c, mem, blamed⟩)

/-- A complaint is about a token before the end or about the end. -/
theorem blamed_known {tokens : List Token} {c : Complaint}
    (mem : c ∈ (ofTokens depth tokens).complaints) :
    c.blamed.getD (closing tokens) ∈ body tokens ∨
      c.blamed.getD (closing tokens) = closing tokens := by
  cases about : c.blamed with
  | none => exact .inr rfl
  | some t => exact .inl (blamed_mem_body mem about)

theorem overflow_known {tokens : List Token} {t : Token}
    (deep : (ofTokens depth tokens).overflow = some t) :
    t ∈ body tokens ∨ t = closing tokens := by
  have suffix : (program depth (body tokens)).outcome.rest <:+ body tokens :=
    leavesSuffix_declarations _ (Grammar.leavesSuffix_ofDepth depth).declaration (body tokens)
  rw [ofTokens] at deep
  rcases hr : program depth (body tokens) with ⟨complaints, outcome⟩
  rw [hr] at deep suffix
  cases outcome with
  | done ss rest => cases deep
  | failed cause rest => cases deep
  | tooDeep rest =>
    cases deep
    cases rest with
    | nil => exact .inr rfl
    | cons t rest => exact .inl (suffix.subset (List.mem_cons_self ..))

/-! ### Positions in the list -/

theorem last_eq {tokens : List Token} {n : Nat}
    (ends : tokens.findIdx? (·.kind = .eof) = some n) :
    Report.last (tokens.map Token.kind) = n := by
  rw [Report.last, List.findIdx_map]
  exact (List.findIdx?_eq_some_iff_findIdx_eq.1 ends).2

theorem body_eq_take (tokens : List Token) :
    body tokens = tokens.take (Report.last (tokens.map Token.kind)) := by
  rw [body, List.takeWhile_eq_take_findIdx_not, Report.last, List.findIdx_map]
  simp [Function.comp_def]

theorem closing_eq_tokenAt (tokens : List Token) :
    closing tokens = tokenAt tokens (Report.last (tokens.map Token.kind)) := by
  rw [closing, tokenAt, Report.last, List.findIdx_map, List.find?_eq_getElem?_findIdx]
  rfl

/-- The numbers before the end are all in order. -/
theorem map_number_body (kinds : List Kind) :
    (body (Token.numbered kinds)).map Token.number = List.range (Report.last kinds) := by
  rw [body_eq_take, Token.map_kind_numbered, List.map_take, Token.map_number_numbered,
    List.take_range]
  exact congrArg List.range (Nat.min_eq_left List.findIdx_le_length)

theorem number_lt {kinds : List Kind} {t : Token} (inside : t ∈ body (Token.numbered kinds)) :
    t.number < Report.last kinds := by
  have mem := List.mem_map_of_mem (f := Token.number) inside
  rwa [map_number_body, List.mem_range] at mem

theorem position_of_mem {kinds : List Kind} {t : Token}
    (inside : t ∈ body (Token.numbered kinds)) : Report.position kinds t = t.number :=
  if_neg (kind_ne_of_mem_body inside)

theorem position_closing (kinds : List Kind) :
    Report.position kinds (closing (Token.numbered kinds)) = Report.last kinds :=
  if_pos (kind_closing _)

theorem position_le {kinds : List Kind} {t : Token}
    (known : t ∈ body (Token.numbered kinds) ∨ t = closing (Token.numbered kinds)) :
    Report.position kinds t ≤ Report.last kinds := by
  rcases known with inside | rfl
  · rw [position_of_mem inside]
    exact Nat.le_of_lt (number_lt inside)
  · exact Nat.le_of_eq (position_closing kinds)

/-- No report goes beyond the end. -/
theorem report_le (depth : Nat) (kinds : List Kind) :
    (∀ mark ∈ (Report.ofKinds depth kinds).marks, mark.2 ≤ Report.last kinds) ∧
      ∀ i ∈ (Report.ofKinds depth kinds).overflow, i ≤ Report.last kinds := by
  refine ⟨fun mark mem => ?_, fun i mem => ?_⟩
  · obtain ⟨c, hc, rfl⟩ := List.mem_map.1 mem
    exact position_le (blamed_known hc)
  · obtain ⟨t, deep, rfl⟩ := Option.map_eq_some_iff.1 mem
    exact position_le (overflow_known deep)

/-! ### Standing for tokens of the same kinds -/

theorem closing_of_not_mem {tokens : List Token} (open_end : .eof ∉ tokens.map Token.kind) :
    closing tokens = Token.eof 1 := by
  have none : tokens.find? (·.kind = .eof) = none := by
    rw [List.find?_eq_none]
    intro t mem eof
    exact open_end (List.mem_map.2 ⟨t, mem, of_decide_eq_true eof⟩)
  rw [closing, none, Option.getD_none]

theorem closing_numbered (tokens : List Token) :
    closing tokens = (closing (Token.numbered (tokens.map Token.kind))).placed tokens := by
  have kinds := Token.map_kind_numbered (tokens.map Token.kind)
  by_cases ends : .eof ∈ tokens.map Token.kind
  · rw [← kinds, List.mem_map] at ends
    rw [← closing_map (Token.kind_placed tokens) ends, Token.map_placed_numbered]
  · rw [closing_of_not_mem ends, closing_of_not_mem (by rwa [kinds]), Token.placed]
    split
    next u at_one =>
      refine (if_neg fun eof => ends ?_).symm
      exact List.mem_map.2 ⟨u, List.mem_of_getElem? at_one, eof⟩
    next => rfl

/-- A token that a parse of numbered tokens may speak of stands for the one at its position. -/
theorem tokenAt_position {tokens : List Token} {t : Token}
    (known : t ∈ body (Token.numbered (tokens.map Token.kind)) ∨
      t = closing (Token.numbered (tokens.map Token.kind))) :
    tokenAt tokens (Report.position (tokens.map Token.kind) t) = t.placed tokens := by
  rcases known with inside | rfl
  · rw [position_of_mem inside, tokenAt, Token.getElem?_number (mem_of_mem_body inside),
      Option.getD_some]
  · rw [position_closing, ← closing_eq_tokenAt, closing_numbered]

/-- **What a parse does with numbered tokens it does with all tokens of the same kinds.** -/
theorem ofTokens_eq_map_numbered (depth : Nat) (tokens : List Token) :
    ofTokens depth tokens =
      (ofTokens depth (Token.numbered (tokens.map Token.kind))).map (Token.placed tokens) := by
  have closes := closing_numbered tokens
  have same := Token.map_placed_numbered tokens
  rw [← ofTokens_map_of_closing (Token.kind_placed tokens) depth, same]
  rw [same]
  exact closes

theorem diagnostic_map {tokens : List Token} {c : Complaint}
    (mem : c ∈ (ofTokens depth (Token.numbered (tokens.map Token.kind))).complaints) :
    (c.map (Token.placed tokens)).diagnostic (closing tokens) =
      Report.complaint tokens (c.cause, Report.positionOf (tokens.map Token.kind) c) := by
  have told : (c.blamed.map (Token.placed tokens)).getD (closing tokens) =
      tokenAt tokens (Report.positionOf (tokens.map Token.kind) c) := by
    rw [Report.positionOf, tokenAt_position (blamed_known mem), closing_numbered, Option.getD_map]
  exact congrArg (Diagnostic.atToken .grammatical · c.cause.message) told

/-- **What is reported depends on the kinds of the tokens only**, save that every problem is told
with the token that stands at its position. -/
theorem diagnostics_eq (depth : Nat) (tokens : List Token) :
    (ofTokens depth tokens).diagnostics =
      (Report.ofKinds depth (tokens.map Token.kind)).diagnostics tokens := by
  have eof : (ofTokens depth tokens).eof = closing tokens := eof_ofTokens depth tokens
  rw [diagnostics, eof, ofTokens_eq_map_numbered, Report.diagnostics, Report.overflow_ofKinds]
  congr 1
  · rw [map, List.map_map, Report.ofKinds, List.map_map]
    exact List.map_congr_left fun c mem => diagnostic_map mem
  · cases deep : (ofTokens depth (Token.numbered (tokens.map Token.kind))).overflow with
    | none => simp [map, deep]
    | some t => simp [map, deep, tokenAt_position (overflow_known deep)]

/-! ### The positions of the complaints -/

section Positions

variable {kinds : List Kind} {cs : List Complaint}

/-- The positions before the end are those of the tokens that complaints are about. -/
theorem filter_positions
    (inside : ∀ c ∈ cs, ∀ t, c.blamed = some t → t ∈ body (Token.numbered kinds)) :
    (cs.map (Report.positionOf kinds)).filter (· < Report.last kinds) =
      (blamedTokens cs).map Token.number := by
  induction cs with
  | nil => rfl
  | cons c cs ih =>
    rw [List.forall_mem_cons] at inside
    have others := ih inside.2
    rw [blamedTokens] at others ⊢
    rw [List.map_cons, List.filter_cons, others, List.filterMap_cons, Report.positionOf]
    cases about : c.blamed with
    | none => simp [position_closing]
    | some t =>
      have before := inside.1 t about
      simp [position_of_mem before, number_lt before]

/-- The end is where the complaints are that are about no token. -/
theorem count_positions
    (inside : ∀ c ∈ cs, ∀ t, c.blamed = some t → t ∈ body (Token.numbered kinds)) :
    (cs.map (Report.positionOf kinds)).count (Report.last kinds) = endComplaints cs := by
  rw [List.count, List.countP_map, endComplaints]
  refine List.countP_congr fun c mem => ?_
  cases about : c.blamed with
  | none => simp [Report.positionOf, about, position_closing]
  | some t =>
    have before := inside c mem t about
    have apart := Nat.ne_of_lt (number_lt before)
    simp [Report.positionOf, about, position_of_mem before, apart]

theorem nodup_numbers {ts : List Token} (taken : ts.Subperm (body (Token.numbered kinds))) :
    (ts.map Token.number).Nodup := by
  obtain ⟨us, perm, sub⟩ := taken
  have numbers := sub.map Token.number
  rw [map_number_body] at numbers
  exact (perm.map Token.number).nodup_iff.1 (List.nodup_range.sublist numbers)

theorem openingBraces_body (tokens : List Token) :
    openingBraces (body (Token.numbered (tokens.map Token.kind))) =
      openingBraces (body tokens) := by
  simp only [openingBraces, body_eq_take, List.map_take, Token.map_kind_numbered]

end Positions

/-! ### The three laws -/

/-- **The parser decides by kinds only.** A function on tokens that keeps the kinds goes through a
parse, with or without faults: it is applied to every token that a statement stores, and what is
reported is the same at the same positions, told with the tokens that are there now. -/
theorem decides_by_kinds (depth : Nat) (tokens : List Token) {f : Token → Token}
    (hf : ∀ t, (f t).kind = t.kind) :
    (ofTokens depth (tokens.map f)).statements =
        Stmt.mapAll f (ofTokens depth tokens).statements ∧
      ∃ report : Report,
        (∀ mark ∈ report.marks, mark.2 ≤ Report.last (tokens.map Token.kind)) ∧
        (∀ i ∈ report.overflow, i ≤ Report.last (tokens.map Token.kind)) ∧
        (ofTokens depth tokens).diagnostics = report.diagnostics tokens ∧
        (ofTokens depth (tokens.map f)).diagnostics = report.diagnostics (tokens.map f) := by
  have kinds : (tokens.map f).map Token.kind = tokens.map Token.kind := by
    rw [List.map_map]
    exact List.map_congr_left fun t _ => hf t
  refine ⟨statements_map hf depth tokens, Report.ofKinds depth (tokens.map Token.kind),
    (report_le depth _).1, (report_le depth _).2, diagnostics_eq depth tokens, ?_⟩
  rw [diagnostics_eq, kinds]

/-- A faulty source that nests too deep, moved to the next lines. -/
theorem decides_by_kinds_faulty :
    let f (t : Token) : Token := { t with line := t.line + 1 }
    let tokens := Lexer.tokens "1 = 2; \x7b var ; ((((3)))); \x7d"
    (∀ t, (f t).kind = t.kind) ∧ (ofTokens 4 tokens).diagnostics.length = 3 ∧
      (ofTokens 4 (tokens.map f)).statements = Stmt.mapAll f (ofTokens 4 tokens).statements ∧
      ∃ report : Report,
        (ofTokens 4 tokens).diagnostics = report.diagnostics tokens ∧
        (ofTokens 4 (tokens.map f)).diagnostics = report.diagnostics (tokens.map f) := by
  intro f tokens
  have keeps : ∀ t, (f t).kind = t.kind := fun _ => rfl
  obtain ⟨statements, report, -, -, before, after⟩ := decides_by_kinds 4 tokens keeps
  exact ⟨keeps, by decide +kernel, statements, report, before, after⟩

/-- **Trees invent and duplicate nothing.** Whatever the tokens are, those that the statements store
are taken, in the order of the source, at increasing positions before the first end token. -/
theorem stored_at_positions {tokens : List Token} {n : Nat}
    (ends : tokens.findIdx? (·.kind = .eof) = some n) (depth : Nat) :
    ∃ positions : List Nat, positions.Pairwise (· < ·) ∧ (∀ i ∈ positions, i < n) ∧
      ∀ us : List Token, us.map Token.kind = tokens.map Token.kind →
        (Stmt.storedAll (ofTokens depth us).statements).map some = positions.map (us[·]?) := by
  have last := last_eq ends
  have taken := storedAll_sublist depth (Token.numbered (tokens.map Token.kind))
  have numbers := taken.map Token.number
  rw [map_number_body, last] at numbers
  refine ⟨_, List.pairwise_lt_range.sublist numbers, fun i mem => ?_, fun us kinds => ?_⟩
  · exact List.mem_range.1 (numbers.subset mem)
  · rw [ofTokens_eq_map_numbered, kinds, map, Stmt.storedAll_map, List.map_map, List.map_map]
    refine List.map_congr_left fun t mem => ?_
    have known := mem_of_mem_body (taken.subset mem)
    rw [← kinds] at known
    exact (Token.getElem?_number known).symm

/-- The left side of an invalid assignment is stored, its right side is not, and nothing of the
declarations that break off. -/
theorem stored_at_positions_faulty :
    let tokens := Lexer.tokens "\x7b a = b; 1 = 2 = c; if (x) print ; var y = -d; \x7d 7;"
    tokens.findIdx? (·.kind = .eof) = some 26 ∧
      (Stmt.storedAll (ofTokens 9 tokens).statements).map Token.lexeme =
        ["a", "b", "1", "y", "-", "d", "7"] ∧
      ∃ positions : List Nat, positions.Pairwise (· < ·) ∧ (∀ i ∈ positions, i < 26) ∧
        (Stmt.storedAll (ofTokens 9 tokens).statements).map some =
          positions.map (tokens[·]?) := by
  intro tokens
  have ends : tokens.findIdx? (·.kind = .eof) = some 26 := by decide +kernel
  obtain ⟨positions, increasing, before, stored⟩ := stored_at_positions ends 9
  exact ⟨ends, by decide +kernel, positions, increasing, before, stored tokens rfl⟩

/-- **No token is blamed twice.** Whatever the tokens are, all that parsing reports about them are
complaints about tokens up to the first end token. No two of them are about the same token before
it, and those about the end are at most one more than the opening braces. -/
theorem complaints_apart {tokens : List Token} {n : Nat}
    (ends : tokens.findIdx? (·.kind = .eof) = some n) {depth : Nat}
    (fits : (ofTokens depth tokens).overflow = none) :
    ∃ marks : List (Cause × Nat),
      (∀ us : List Token, us.map Token.kind = tokens.map Token.kind →
        (ofTokens depth us).diagnostics = marks.map (Report.complaint us)) ∧
      (∀ mark ∈ marks, mark.2 ≤ n) ∧
      ((marks.map Prod.snd).filter (· < n)).Nodup ∧
      (marks.map Prod.snd).count n ≤ openingBraces (tokens.take n) + 1 := by
  have last := last_eq ends
  have fits' : (ofTokens depth (Token.numbered (tokens.map Token.kind))).overflow = none := by
    rw [ofTokens_eq_map_numbered] at fits
    exact Option.map_eq_none_iff.1 fits
  have covers := covers_complaints depth (Token.numbered (tokens.map Token.kind))
  refine ⟨(Report.ofKinds depth (tokens.map Token.kind)).marks, fun us kinds => ?_, ?_, ?_, ?_⟩
  · rw [diagnostics_eq, kinds, Report.diagnostics, Report.overflow_ofKinds, fits']
    exact List.append_nil _
  · rw [← last]
    exact (report_le depth _).1
  · rw [Report.positions_ofKinds, ← last,
      filter_positions fun c mem t about => blamed_mem_body mem about]
    exact nodup_numbers covers.blamed
  · rw [Report.positions_ofKinds, ← last,
      count_positions fun c mem t about => blamed_mem_body mem about, ← body_eq_take,
      ← openingBraces_body]
    exact covers.ends

/-- Two assignments within one another, a statement that breaks off and two blocks that the source
leaves open, so that three complaints are about the end. -/
theorem complaints_apart_unclosed :
    let tokens := Lexer.tokens "\x7b a = b; 1 = 2 = c; if (x) print ; \x7b var y = -d"
    tokens.findIdx? (·.kind = .eof) = some 23 ∧ (ofTokens 9 tokens).overflow = none ∧
      (ofTokens 9 tokens).diagnostics.length = 6 ∧
      ∃ marks : List (Cause × Nat),
        (ofTokens 9 tokens).diagnostics = marks.map (Report.complaint tokens) ∧
        (∀ mark ∈ marks, mark.2 ≤ 23) ∧
        ((marks.map Prod.snd).filter (· < 23)).Nodup ∧
        (marks.map Prod.snd).count 23 ≤ 3 := by
  intro tokens
  have ends : tokens.findIdx? (·.kind = .eof) = some 23 := by decide +kernel
  have fits : (ofTokens 9 tokens).overflow = none := by decide +kernel
  have braces : openingBraces (tokens.take 23) = 2 := by decide +kernel
  obtain ⟨marks, reported, within, apart, few⟩ := complaints_apart ends fits
  rw [braces] at few
  exact ⟨ends, fits, by decide +kernel, marks, reported tokens rfl, within, apart, few⟩

end Parsed

end Lox
