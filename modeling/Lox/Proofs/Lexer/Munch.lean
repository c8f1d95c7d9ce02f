import Mathlib.Data.List.TakeWhile
import Lox.Proofs.Lexer.Seam

/-!
# The lexical grammar and its longest matches

The rules of the lexical grammar say which text is a piece of which form (`Piece.Lawful`). A text is
decomposed from left to right: what comes first is the longest beginning that some rule allows; if
there is none, it is a stray character, or all that is left if that starts with a quote (`First`).
The cuts of the lexer find this (`first_cut`) and nothing else is first (`First.unique`), so every
source has one decomposition, which is its pieces (`decomposes_iff`).
-/

namespace Lox.Lexer

/-! ### The rules -/

/-- The marks and their kinds. -/
def marks : List (List Char × Kind) :=
  [(['('], .leftParen), ([')'], .rightParen), (['\x7b'], .leftBrace), (['\x7d'], .rightBrace),
    ([','], .comma), (['.'], .dot), (['-'], .minus), (['+'], .plus), ([';'], .semicolon),
    (['/'], .slash), (['*'], .star), (['!'], .bang), (['!', '='], .bangEqual), (['='], .equal),
    (['=', '='], .equalEqual), (['>'], .greater), (['>', '='], .greaterEqual), (['<'], .less),
    (['<', '='], .lessEqual)]

/-- The pieces that a rule of the lexical grammar allows. -/
inductive Piece.Lawful : Piece → Prop
  | mark {text : List Char} {kind : Kind} (known : (text, kind) ∈ marks) : Lawful ⟨.mark kind, text⟩
  | integer {ds : List Char} (nonempty : ds ≠ []) (digits : ∀ d ∈ ds, isDigit d = true) :
    Lawful ⟨.number, ds⟩
  | decimal {ds es : List Char} (nonempty : ds ≠ []) (digits : ∀ d ∈ ds, isDigit d = true)
      (fraction : es ≠ []) (fraction_digits : ∀ e ∈ es, isDigit e = true) :
    Lawful ⟨.number, ds ++ '.' :: es⟩
  | string {body : List Char} (inside : '"' ∉ body) : Lawful ⟨.string, '"' :: body ++ ['"']⟩
  | word {c : Char} {cs : List Char} (first : isAlpha c = true)
      (others : ∀ d ∈ cs, isAlphanumeric d = true) : Lawful ⟨.word, c :: cs⟩
  | comment {body : List Char} (inside : '\n' ∉ body) : Lawful ⟨.comment, '/' :: '/' :: body⟩
  | blank {c : Char} (among : c ∈ [' ', '\r', '\t']) : Lawful ⟨.blank, [c]⟩
  | newline : Lawful ⟨.newline, ['\n']⟩

/-- What is first in a text, and the text behind it. -/
inductive First : List Char → Piece → List Char → Prop
  /-- The longest beginning that a rule allows. -/
  | longest {p : Piece} {rest : List Char} (lawful : p.Lawful)
      (maximal : ∀ q : Piece, q.Lawful → q.text <+: p.text ++ rest →
        q.text.length ≤ p.text.length) :
    First (p.text ++ rest) p rest
  /-- A character with which nothing begins that a rule allows. -/
  | stray {c : Char} {rest : List Char} (not_quote : c ≠ '"')
      (unruled : ∀ q : Piece, q.Lawful → ¬ q.text <+: c :: rest) :
    First (c :: rest) ⟨.stray, [c]⟩ rest
  /-- A quote that is never closed. -/
  | unclosed {rest : List Char} (open_quote : '"' ∉ rest) :
    First ('"' :: rest) ⟨.unclosed, '"' :: rest⟩ []

/-- The decompositions of a text from left to right. -/
inductive Decomposes : List Char → List Piece → Prop
  | nil : Decomposes [] []
  | cons {cs rest : List Char} {p : Piece} {ps : List Piece} (first : First cs p rest)
      (others : Decomposes rest ps) : Decomposes cs (p :: ps)

/-! ### Cuts by their first character -/

variable {c : Char} {cs : List Char}

/-- The characters with which a mark, a comment, a string or a piece of space begins. -/
def specials : List Char :=
  ['(', ')', '\x7b', '\x7d', ',', '.', '-', '+', ';', '*', '!', '=', '<', '>', '/', '\n', ' ', '\r',
    '\t', '"']

/-- A class of characters without the special ones. -/
theorem ordinary_of_class {p : Char → Bool} (avoids : (specials.all fun d => !p d) = true)
    (h : p c = true) :
    single? c = none ∧ extensible? c = none ∧ c ≠ '/' ∧ c ≠ '\n' ∧ isBlank c = false
      ∧ c ≠ '"' := by
  have ne (d : Char) (mem : d ∈ specials) : c ≠ d := by
    rintro rfl
    have outside := List.all_eq_true.1 avoids c mem
    rw [h] at outside
    cases outside
  refine ⟨?_, ?_, ne _ (by decide), ne _ (by decide), ?_, ne _ (by decide)⟩
  · unfold single?
    split
    case h_11 => rfl
    all_goals exact absurd rfl (ne _ (by decide))
  · unfold extensible?
    split
    case h_5 => rfl
    all_goals exact absurd rfl (ne _ (by decide))
  · simp [isBlank, ne ' ' (by decide), ne '\r' (by decide), ne '\t' (by decide)]

theorem not_isDigit_of_isAlpha (h : isAlpha c = true) : isDigit c = false := by
  cases digit : isDigit c with
  | false => rfl
  | true =>
    simp only [isDigit, Bool.and_eq_true, decide_eq_true_eq] at digit
    simp only [isAlpha, Bool.or_eq_true, Bool.and_eq_true, decide_eq_true_eq, beq_iff_eq] at h
    -- the digits stand before both rows of letters and before the underscore
    have ge : '0' ≤ c ∧ c ≤ '9' := digit
    rcases h with (⟨small, -⟩ | ⟨capital, -⟩) | rfl
    · exact absurd (Char.le_trans small ge.2) (by decide)
    · exact absurd (Char.le_trans capital ge.2) (by decide)
    · exact absurd ge.2 (by decide)

theorem cut_of_single {kind : Kind} (h : single? c = some kind) :
    cut c cs = (⟨.mark kind, [c]⟩, cs) := by
  unfold cut
  rw [h]

theorem single?_of_extensible {kinds : Kind × Kind} (h : extensible? c = some kinds) :
    single? c = none := by
  unfold extensible? at h
  split at h <;> first | rfl | cases h

theorem cut_extensible_equal {plain extended : Kind}
    (h : extensible? c = some (plain, extended)) :
    cut c ('=' :: cs) = (⟨.mark extended, [c, '=']⟩, cs) := by
  unfold cut
  rw [single?_of_extensible h, h]
  rfl

theorem cut_of_extensible {plain extended : Kind} (h : extensible? c = some (plain, extended))
    (ends : ∀ rest, cs ≠ '=' :: rest) : cut c cs = (⟨.mark plain, [c]⟩, cs) := by
  unfold cut
  rw [single?_of_extensible h, h]
  dsimp only
  split
  next rest => exact absurd rfl (ends rest)
  next => rfl

theorem cut_of_isDigit (h : isDigit c = true) : cut c cs = cutNumber c cs := by
  obtain ⟨single, extensible, slash, newline, blank, quote⟩ := ordinary_of_class (by decide) h
  simp [cut, single, extensible, slash, newline, blank, quote, h]

theorem cut_of_isAlpha (h : isAlpha c = true) :
    cut c cs = (⟨.word, c :: cs.takeWhile isAlphanumeric⟩, cs.dropWhile isAlphanumeric) := by
  obtain ⟨single, extensible, slash, newline, blank, quote⟩ := ordinary_of_class (by decide) h
  simp [cut, single, extensible, slash, newline, blank, quote, not_isDigit_of_isAlpha h, h]

theorem cut_of_isBlank (h : isBlank c = true) : cut c cs = (⟨.blank, [c]⟩, cs) := by
  have among : c = ' ' ∨ c = '\r' ∨ c = '\t' := by simpa [isBlank, or_assoc] using h
  rcases among with rfl | rfl | rfl <;> rfl

theorem cut_comment :
    cut '/' ('/' :: cs) =
      (⟨.comment, '/' :: '/' :: cs.takeWhile (· ≠ '\n')⟩, cs.dropWhile (· ≠ '\n')) := rfl

theorem cut_slash (ends : ∀ rest, cs ≠ '/' :: rest) : cut '/' cs = (⟨.mark .slash, ['/']⟩, cs) := by
  unfold cut
  split
  next => contradiction
  next => contradiction
  next =>
    rw [if_pos rfl]
    split
    next rest => exact absurd rfl (ends rest)
    next => rfl

theorem cut_closed {body : List Char} (inside : '"' ∉ body) (rest : List Char) :
    cut '"' (body ++ '"' :: rest) = (⟨.string, '"' :: body ++ ['"']⟩, rest) := by
  have stops : decide ('"' ≠ '"') = false := by decide
  have outside : ∀ d ∈ body, decide (d ≠ '"') = true := by
    intro d mem
    exact decide_eq_true fun eq => inside (eq ▸ mem)
  have taken := takeWhile_append_cons (p := fun d => decide (d ≠ '"')) stops body rest
  have left := dropWhile_append_cons (p := fun d => decide (d ≠ '"')) stops body rest
  rw [List.takeWhile_eq_self_iff.2 outside] at taken
  rw [List.dropWhile_eq_nil_iff.2 outside] at left
  show cutString '"' (body ++ '"' :: rest) = _
  rw [cutString, left, taken]
  rfl

theorem cut_unclosed (inside : '"' ∉ cs) : cut '"' cs = (⟨.unclosed, '"' :: cs⟩, []) := by
  have left : cs.dropWhile (· ≠ '"') = [] := by
    rw [List.dropWhile_eq_nil_iff]
    intro d mem
    exact decide_eq_true fun eq => inside (eq ▸ mem)
  show cutString '"' cs = _
  rw [cutString, left]

/-! ### Cuts are lawful -/

theorem lawful_cutNumber (h : isDigit c = true) : (cutNumber c cs).1.Lawful := by
  have whole : ∀ d ∈ c :: cs.takeWhile isDigit, isDigit d = true :=
    List.forall_mem_cons.2 ⟨h, fun d => List.mem_takeWhile_imp⟩
  unfold cutNumber
  split
  next d rest _ =>
    split
    next digit =>
      have fraction : ∀ e ∈ d :: rest.takeWhile isDigit, isDigit e = true :=
        List.forall_mem_cons.2 ⟨digit, fun e => List.mem_takeWhile_imp⟩
      exact .decimal (List.cons_ne_nil _ _) whole (List.cons_ne_nil _ _) fraction
    next => exact .integer (List.cons_ne_nil _ _) whole
  next => exact .integer (List.cons_ne_nil _ _) whole

theorem mark_of_single {kind : Kind} (h : single? c = some kind) : ([c], kind) ∈ marks := by
  unfold single? at h
  split at h
  case h_11 => cases h
  all_goals
    cases h
    decide

theorem mark_of_extensible {plain extended : Kind} (h : extensible? c = some (plain, extended)) :
    ([c], plain) ∈ marks ∧ ([c, '='], extended) ∈ marks := by
  unfold extensible? at h
  split at h
  case h_5 => cases h
  all_goals
    cases h
    decide

/-- **What is cut off is lawful**, but for a stray character or a quote that is never closed. -/
theorem cut_cases (c : Char) (cs : List Char) :
    (cut c cs).1.Lawful
      ∨ c ≠ '"' ∧ cut c cs = (⟨.stray, [c]⟩, cs)
      ∨ c = '"' ∧ '"' ∉ cs := by
  cases single : single? c with
  | some kind =>
    rw [cut_of_single single]
    exact .inl (.mark (mark_of_single single))
  | none =>
    cases extensible : extensible? c with
    | some kinds =>
      obtain ⟨plain, extended⟩ := kinds
      obtain ⟨alone, with_equal⟩ := mark_of_extensible extensible
      left
      by_cases equal : ∃ rest, cs = '=' :: rest
      · obtain ⟨rest, rfl⟩ := equal
        rw [cut_extensible_equal extensible]
        exact .mark with_equal
      · rw [cut_of_extensible extensible (not_exists.1 equal)]
        exact .mark alone
    | none =>
      by_cases slash : c = '/'
      · subst slash
        left
        by_cases double : ∃ rest, cs = '/' :: rest
        · obtain ⟨rest, rfl⟩ := double
          rw [cut_comment]
          refine .comment fun mem => ?_
          have outside := List.mem_takeWhile_imp mem
          exact of_decide_eq_true outside rfl
        · rw [cut_slash (not_exists.1 double)]
          exact .mark (by decide)
      by_cases newline : c = '\n'
      · subst newline
        exact .inl .newline
      by_cases blank : isBlank c = true
      · rw [cut_of_isBlank blank]
        refine .inl (.blank ?_)
        simpa [isBlank, or_assoc] using blank
      by_cases quote : c = '"'
      · subst quote
        by_cases closed : '"' ∈ cs
        · obtain ⟨body, rest, rfl, inside⟩ := List.eq_append_cons_of_mem closed
          rw [cut_closed inside]
          exact .inl (.string inside)
        · exact .inr (.inr ⟨rfl, closed⟩)
      by_cases digit : isDigit c = true
      · rw [cut_of_isDigit digit]
        exact .inl (lawful_cutNumber digit)
      by_cases letter : isAlpha c = true
      · rw [cut_of_isAlpha letter]
        exact .inl (.word letter fun d => List.mem_takeWhile_imp)
      · refine .inr (.inl ⟨quote, ?_⟩)
        simp [cut, single, extensible, slash, newline, blank, quote, digit, letter]

/-! ### Cuts are longest -/

theorem mark_cases {text : List Char} {kind : Kind} (h : (text, kind) ∈ marks) :
    (∃ c, text = [c] ∧ single? c = some kind)
      ∨ (∃ c extended, text = [c] ∧ extensible? c = some (kind, extended))
      ∨ (∃ c plain, text = [c, '='] ∧ extensible? c = some (plain, kind))
      ∨ text = ['/'] ∧ kind = .slash := by
  simp only [marks, List.mem_cons, Prod.mk.injEq, List.not_mem_nil, or_false] at h
  rcases h with ⟨rfl, rfl⟩ | ⟨rfl, rfl⟩ | ⟨rfl, rfl⟩ | ⟨rfl, rfl⟩ | ⟨rfl, rfl⟩ | ⟨rfl, rfl⟩ |
    ⟨rfl, rfl⟩ | ⟨rfl, rfl⟩ | ⟨rfl, rfl⟩ | ⟨rfl, rfl⟩ | ⟨rfl, rfl⟩ | ⟨rfl, rfl⟩ | ⟨rfl, rfl⟩ |
    ⟨rfl, rfl⟩ | ⟨rfl, rfl⟩ | ⟨rfl, rfl⟩ | ⟨rfl, rfl⟩ | ⟨rfl, rfl⟩ | ⟨rfl, rfl⟩
  all_goals first
    | exact .inl ⟨_, rfl, rfl⟩
    | exact .inr (.inl ⟨_, _, rfl, rfl⟩)
    | exact .inr (.inr (.inl ⟨_, _, rfl, rfl⟩))
    | exact .inr (.inr (.inr ⟨rfl, rfl⟩))

theorem cutNumber_of_text {text : List Char} (same : (cutNumber c cs).1.text = text) :
    (cutNumber c cs).1 = ⟨.number, text⟩ := by
  rw [← same]
  unfold cutNumber
  split
  · split <;> rfl
  · rfl

/-- A number goes on as long as digits follow. -/
theorem length_cutNumber_integer {ds : List Char} (digits : ∀ d ∈ ds, isDigit d = true)
    (rest : List Char) : (c :: ds).length ≤ (cutNumber c (ds ++ rest)).1.text.length := by
  have whole : (c :: ds).length ≤ (c :: (ds ++ rest).takeWhile isDigit).length := by
    rw [List.takeWhile_append_of_pos digits]
    simp
  unfold cutNumber
  split
  · split
    · exact whole.trans (by simp)
    · exact whole
  · exact whole

/-- A number goes on over a point if digits follow it. -/
theorem length_cutNumber_decimal {ds es : List Char} {e : Char}
    (digits : ∀ d ∈ ds, isDigit d = true) (fraction : ∀ d ∈ e :: es, isDigit d = true)
    (rest : List Char) :
    (c :: ds ++ '.' :: e :: es).length ≤
      (cutNumber c (ds ++ '.' :: e :: (es ++ rest))).1.text.length := by
  have point : isDigit '.' = false := by decide
  obtain ⟨digit, others⟩ := List.forall_mem_cons.1 fraction
  unfold cutNumber
  rw [takeWhile_append_cons point, dropWhile_append_cons point,
    List.takeWhile_eq_self_iff.2 digits, List.dropWhile_eq_nil_iff.2 digits]
  simp only [List.nil_append, digit, if_true, List.takeWhile_append_of_pos others]
  simp

/-- **No lawful piece at the front is longer** than what is cut off, and none of the same length has
another form. -/
theorem cut_longest {q : Piece} (lawful : q.Lawful) (front : q.text <+: c :: cs) :
    q.text.length ≤ (cut c cs).1.text.length
      ∧ ((cut c cs).1.text = q.text → (cut c cs).1 = q) := by
  have positive : 1 ≤ (cut c cs).1.text.length := List.length_pos_iff.2 (cut_text_ne_nil c cs)
  cases lawful with
  | mark known =>
    rcases mark_cases known with ⟨d, rfl, single⟩ | ⟨d, extended, rfl, extensible⟩ |
      ⟨d, plain, rfl, extensible⟩ | ⟨rfl, rfl⟩
    · obtain ⟨rfl, -⟩ := List.cons_prefix_cons.1 front
      rw [cut_of_single single]
      exact ⟨Nat.le_refl _, fun _ => rfl⟩
    · obtain ⟨rfl, -⟩ := List.cons_prefix_cons.1 front
      refine ⟨positive, ?_⟩
      by_cases equal : ∃ rest, cs = '=' :: rest
      · obtain ⟨rest, rfl⟩ := equal
        rw [cut_extensible_equal extensible]
        exact fun h => nomatch h
      · rw [cut_of_extensible extensible (not_exists.1 equal)]
        exact fun _ => rfl
    · obtain ⟨rfl, tail⟩ := List.cons_prefix_cons.1 front
      obtain ⟨rest, rfl⟩ := tail
      rw [List.singleton_append, cut_extensible_equal extensible]
      exact ⟨Nat.le_refl _, fun _ => rfl⟩
    · obtain ⟨rfl, -⟩ := List.cons_prefix_cons.1 front
      refine ⟨positive, ?_⟩
      by_cases double : ∃ rest, cs = '/' :: rest
      · obtain ⟨rest, rfl⟩ := double
        rw [cut_comment]
        exact fun h => nomatch h
      · rw [cut_slash (not_exists.1 double)]
        exact fun _ => rfl
  | @integer ds nonempty digits =>
    obtain ⟨d, ds', rfl⟩ := List.exists_cons_of_ne_nil nonempty
    obtain ⟨digit, others⟩ := List.forall_mem_cons.1 digits
    obtain ⟨rfl, rest, rfl⟩ := List.cons_prefix_cons.1 front
    rw [cut_of_isDigit digit]
    exact ⟨length_cutNumber_integer others rest, cutNumber_of_text⟩
  | @decimal ds es nonempty digits fraction fraction_digits =>
    obtain ⟨d, ds', rfl⟩ := List.exists_cons_of_ne_nil nonempty
    obtain ⟨digit, others⟩ := List.forall_mem_cons.1 digits
    obtain ⟨e, es', rfl⟩ := List.exists_cons_of_ne_nil fraction
    obtain ⟨rfl, rest, rfl⟩ := List.cons_prefix_cons.1 front
    have split : ds'.append ('.' :: e :: es') ++ rest = ds' ++ '.' :: e :: (es' ++ rest) :=
      List.append_assoc ds' ('.' :: e :: es') rest
    rw [split, cut_of_isDigit digit]
    exact ⟨length_cutNumber_decimal others fraction_digits rest, cutNumber_of_text⟩
  | @string body inside =>
    obtain ⟨rfl, rest, rfl⟩ := List.cons_prefix_cons.1 front
    have closed : body.append ['"'] ++ rest = body ++ '"' :: rest :=
      List.append_assoc body ['"'] rest
    rw [closed, cut_closed inside]
    exact ⟨Nat.le_refl _, fun _ => rfl⟩
  | @word d ds first others =>
    obtain ⟨rfl, rest, rfl⟩ := List.cons_prefix_cons.1 front
    rw [cut_of_isAlpha first, List.takeWhile_append_of_pos others]
    refine ⟨?_, fun same => congrArg (Piece.mk .word) same⟩
    simp
  | @comment body inside =>
    obtain ⟨rfl, front'⟩ := List.cons_prefix_cons.1 front
    obtain ⟨rest, rfl⟩ := front'
    have outside : ∀ d ∈ body, decide (d ≠ '\n') = true := by
      intro d mem
      exact decide_eq_true fun eq => inside (eq ▸ mem)
    rw [List.cons_append, cut_comment, List.takeWhile_append_of_pos outside]
    refine ⟨?_, fun same => congrArg (Piece.mk .comment) same⟩
    simp
  | @blank d among =>
    obtain ⟨rfl, -⟩ := List.cons_prefix_cons.1 front
    refine ⟨positive, fun _ => ?_⟩
    rw [cut_of_isBlank (by simpa [isBlank, or_assoc] using among)]
  | newline =>
    obtain ⟨rfl, -⟩ := List.cons_prefix_cons.1 front
    exact ⟨positive, fun _ => rfl⟩

/-! ### What is first -/

theorem Piece.Lawful.text_ne_nil {p : Piece} (h : p.Lawful) : p.text ≠ [] := by
  cases h with
  | mark known =>
    rintro rfl
    simp [marks] at known
  | integer nonempty => exact nonempty
  | _ => simp

theorem Piece.Lawful.form_ne {p : Piece} (h : p.Lawful) : p.form ≠ .stray ∧ p.form ≠ .unclosed := by
  cases h <;> constructor <;> simp

/-- A lawful piece that stands alone is cut off as a whole. -/
theorem Piece.Lawful.cut_eq {p : Piece} (h : p.Lawful) (eq : p.text = c :: cs) :
    cut c cs = (p, []) := by
  have front : p.text <+: c :: cs := eq ▸ List.prefix_refl p.text
  obtain ⟨longest, same_form⟩ := cut_longest h front
  have whole := cut_append c cs
  rw [← eq] at whole
  have lengths := congrArg List.length whole
  rw [List.length_append] at lengths
  have nothing : (cut c cs).2 = [] := List.length_eq_zero_iff.1 (by omega)
  rw [nothing, List.append_nil] at whole
  exact Prod.ext (same_form whole) nothing

/-- A lawful piece is cut off where a separator or nothing follows it, if it is no comment. -/
theorem Piece.Lawful.cut_append {p : Piece} (h : p.Lawful) (no_comment : p.form ≠ .comment)
    (eq : p.text = c :: cs) {rest : List Char} (ends : ∀ x ∈ rest.head?, separates x = true) :
    cut c (cs ++ rest) = (p, rest) := by
  have alone := h.cut_eq eq
  cases rest with
  | nil => rw [List.append_nil, alone]
  | cons x rest =>
    have closed : (cut c cs).1.form ≠ .unclosed := by
      rw [alone]
      exact h.form_ne.2
    have stays : (cut c cs).1.form ≠ .comment := by
      rw [alone]
      exact no_comment
    rw [cut_append_separator (ends x rfl) closed (.inr stays), alone, List.nil_append]

/-- Nothing lawful begins with a character that is cut off as stray. -/
theorem unruled_of_stray (stray : cut c cs = (⟨.stray, [c]⟩, cs)) {q : Piece} (lawful : q.Lawful) :
    ¬ q.text <+: c :: cs := by
  intro front
  obtain ⟨longest, same_form⟩ := cut_longest lawful front
  rw [stray] at longest same_form
  -- a single character is all that could be lawful, and then it would not be stray
  obtain ⟨d, ds, eq⟩ := List.exists_cons_of_ne_nil lawful.text_ne_nil
  have short : ds = [] := by
    rw [eq] at longest
    simpa using longest
  subst short
  rw [eq] at front same_form
  obtain ⟨rfl, -⟩ := List.cons_prefix_cons.1 front
  exact lawful.form_ne.1 (congrArg Piece.form (same_form rfl)).symm

/-- Nothing lawful begins with a quote that is never closed. -/
theorem unruled_of_unclosed (open_quote : '"' ∉ cs) {q : Piece} (lawful : q.Lawful) :
    ¬ q.text <+: '"' :: cs := by
  intro front
  obtain ⟨d, ds, eq⟩ := List.exists_cons_of_ne_nil lawful.text_ne_nil
  rw [eq] at front
  obtain ⟨rfl, tail⟩ := List.cons_prefix_cons.1 front
  have alone := lawful.cut_eq eq
  rw [cut_unclosed fun mem => open_quote (tail.subset mem)] at alone
  exact lawful.form_ne.2 (congrArg (fun r => r.1.form) alone).symm

/-- **The pieces of a source** are lawful, but for stray characters and for a quote that is never
closed. -/
theorem mem_pieces_cases {p : Piece} (mem : p ∈ pieces cs) :
    p.Lawful
      ∨ (∃ c, p = ⟨.stray, [c]⟩ ∧ ∀ q : Piece, q.Lawful → q.text ≠ [c])
      ∨ ∃ body, p = ⟨.unclosed, '"' :: body⟩ ∧ '"' ∉ body := by
  fun_induction pieces cs with
  | case1 => cases mem
  | case2 c cs ih =>
    rcases List.mem_cons.1 mem with rfl | later
    · rcases cut_cases c cs with lawful | ⟨-, stray⟩ | ⟨rfl, inside⟩
      · exact .inl lawful
      · rw [stray]
        refine .inr (.inl ⟨c, rfl, fun q lawful alone => ?_⟩)
        exact unruled_of_stray stray lawful (alone ▸ ⟨cs, rfl⟩)
      · rw [cut_unclosed inside]
        exact .inr (.inr ⟨cs, rfl, inside⟩)
    · exact ih later

/-- **What the lexer cuts off is first.** -/
theorem first_cut (c : Char) (cs : List Char) : First (c :: cs) (cut c cs).1 (cut c cs).2 := by
  rcases cut_cases c cs with lawful | ⟨not_quote, stray⟩ | ⟨rfl, open_quote⟩
  · have longest : ∀ q : Piece, q.Lawful → q.text <+: (cut c cs).1.text ++ (cut c cs).2 →
        q.text.length ≤ (cut c cs).1.text.length := by
      intro q lawful_q front
      rw [cut_append] at front
      exact (cut_longest lawful_q front).1
    have first := First.longest lawful longest
    rwa [cut_append] at first
  · rw [stray]
    exact .stray not_quote fun q lawful => unruled_of_stray stray lawful
  · rw [cut_unclosed open_quote]
    exact .unclosed open_quote

/-- **Nothing else is first.** -/
theorem First.eq_cut {p : Piece} {rest : List Char} (first : First (c :: cs) p rest) :
    cut c cs = (p, rest) := by
  generalize whole : c :: cs = text at first
  cases first with
  | longest lawful maximal =>
    have front : p.text <+: c :: cs := whole ▸ List.prefix_append p.text rest
    rcases cut_cases c cs with lawful_cut | ⟨-, stray⟩ | ⟨rfl, open_quote⟩
    · obtain ⟨longest, same_form⟩ := cut_longest lawful front
      have front_cut : (cut c cs).1.text <+: c :: cs := ⟨_, cut_append c cs⟩
      have shorter := maximal (cut c cs).1 lawful_cut (whole ▸ front_cut)
      -- both are at the front and neither is longer than the other
      have same : (cut c cs).1.text = p.text :=
        (List.prefix_of_prefix_length_le front_cut front shorter).eq_of_length
          (Nat.le_antisymm shorter longest)
      have behind : (cut c cs).2 = rest := by
        have glued := (cut_append c cs).trans whole
        rw [same] at glued
        exact List.append_cancel_left glued
      exact Prod.ext (same_form same) behind
    · exact absurd front (unruled_of_stray stray lawful)
    · exact absurd front (unruled_of_unclosed open_quote lawful)
  | stray not_quote unruled =>
    cases whole
    rcases cut_cases c cs with lawful_cut | ⟨-, stray⟩ | ⟨quote, -⟩
    · exact absurd ⟨_, cut_append c cs⟩ (unruled _ lawful_cut)
    · exact stray
    · exact absurd quote not_quote
  | unclosed open_quote =>
    cases whole
    exact cut_unclosed open_quote

theorem not_first_nil {p : Piece} {rest : List Char} : ¬ First [] p rest := by
  intro first
  generalize whole : [] = text at first
  cases first with
  | longest lawful => exact lawful.text_ne_nil (List.append_eq_nil_iff.1 whole.symm).1
  | stray => cases whole
  | unclosed => cases whole

/-! ### Decompositions -/

theorem decomposes_pieces (cs : List Char) : Decomposes cs (pieces cs) := by
  fun_induction pieces cs with
  | case1 => exact .nil
  | case2 c cs ih => exact .cons (first_cut c cs) ih

/-- **A source has one decomposition**: its pieces. -/
theorem decomposes_iff {cs : List Char} {ps : List Piece} : Decomposes cs ps ↔ ps = pieces cs := by
  constructor
  · intro decomposition
    induction decomposition with
    | nil => exact pieces_nil.symm
    | @cons cs rest p ps first _ ih =>
      cases cs with
      | nil => exact absurd first not_first_nil
      | cons c cs => rw [pieces_cons, first.eq_cut, ih]
  · rintro rfl
    exact decomposes_pieces cs

end Lox.Lexer
