import Mathlib.Data.Set.List
import Lox.Proofs.Lexer.Lexeme

/-!
# Writing tokens out

The lexical grammar says which texts are lexemes, of which kind and with which value (`Spells`).
Write lexemes out one behind the other, with white space between them, and the lexer reads just
these (`Written.scans`): it cuts each off at its end, whatever it holds, because no lexeme goes on
over white space. In particular the lexemes of any source can be joined with spaces and read again
(`written_intercalate`).
-/

namespace Lox.Lexer

/-! ### Lexemes -/

/-- The text is a lexeme of this kind with this value. -/
inductive Spells : List Char → Kind → Value → Prop
  | mark {text : List Char} {kind : Kind} (known : (text, kind) ∈ marks) : Spells text kind .nil
  | keyword {text : List Char} {kind : Kind} (reserved : (String.ofList text, kind) ∈ keywords) :
    Spells text kind .nil
  | identifier {c : Char} {cs : List Char} (first : isAlpha c = true)
      (others : ∀ d ∈ cs, isAlphanumeric d = true)
      (free : ∀ kind, (String.ofList (c :: cs), kind) ∉ keywords) :
    Spells (c :: cs) .identifier .nil
  | integer {ds : List Char} (nonempty : ds ≠ []) (digits : ∀ d ∈ ds, isDigit d = true) :
    Spells ds .number (.num (Number.ofDigits ds [] 0))
  | decimal {ds es : List Char} (nonempty : ds ≠ []) (digits : ∀ d ∈ ds, isDigit d = true)
      (fraction : es ≠ []) (fraction_digits : ∀ e ∈ es, isDigit e = true) :
    Spells (ds ++ '.' :: es) .number (.num (Number.ofDigits ds es 0))
  | string {body : List Char} (inside : '"' ∉ body) :
    Spells ('"' :: body ++ ['"']) .string (.str (String.ofList body))

/-- A lexeme with its kind and value. -/
structure Lexeme where
  text : List Char
  kind : Kind
  value : Value
  spells : Spells text kind value

/-- The token of a lexeme, without a line. -/
def Lexeme.token (l : Lexeme) : Token := ⟨l.kind, String.ofList l.text, 0, l.value⟩

namespace Piece

theorem numberValue_integer {ds : List Char} (digits : ∀ d ∈ ds, isDigit d = true) :
    numberValue ds = Number.ofDigits ds [] 0 := by
  rw [numberValue, List.takeWhile_eq_self_iff.2 digits, List.dropWhile_eq_nil_iff.2 digits,
    List.drop_nil]

theorem numberValue_decimal {ds : List Char} (digits : ∀ d ∈ ds, isDigit d = true)
    (es : List Char) : numberValue (ds ++ '.' :: es) = Number.ofDigits ds es 0 := by
  have point : isDigit '.' = false := by decide
  rw [numberValue, takeWhile_append_cons point, dropWhile_append_cons point,
    List.takeWhile_eq_self_iff.2 digits, List.dropWhile_eq_nil_iff.2 digits]
  rfl

/-- A lawful piece with a token is a lexeme of the token's kind and value. -/
theorem Lawful.spells {p : Piece} (lawful : p.Lawful) {line : Int} {t : Token}
    (token : p.token? line = some t) : Spells p.text t.kind t.literal := by
  cases lawful with
  | mark known =>
    cases token
    exact .mark known
  | integer nonempty digits =>
    cases token
    rw [numberValue_integer digits]
    exact .integer nonempty digits
  | decimal nonempty digits fraction fraction_digits =>
    cases token
    rw [numberValue_decimal digits]
    exact .decimal nonempty digits fraction fraction_digits
  | @string body inside =>
    cases token
    have value : (('"' :: body ++ ['"']).drop 1).dropLast = body := List.dropLast_concat
    rw [value]
    exact .string inside
  | @word c cs first others =>
    cases token
    show Spells (c :: cs) ((keywords.lookup (String.ofList (c :: cs))).getD .identifier) .nil
    cases found : keywords.lookup (String.ofList (c :: cs)) with
    | some kind => exact .keyword (lookup_keywords_iff.1 found)
    | none =>
      refine .identifier first others fun kind mem => ?_
      rw [lookup_keywords_iff.2 mem] at found
      cases found
  | _ => cases token

/-- A piece with a token is no fault. -/
theorem fault?_of_token? {p : Piece} {line : Int} {t : Token} (token : p.token? line = some t) :
    p.fault? line = none := by
  obtain ⟨form, text⟩ := p
  cases form <;> first | rfl | cases token

end Piece

/-- Keywords are words. -/
theorem lawful_of_keyword {text : List Char} {kind : Kind}
    (reserved : (String.ofList text, kind) ∈ keywords) : Piece.Lawful ⟨.word, text⟩ := by
  have letters : ∀ entry ∈ keywords, entry.1.toList ≠ [] ∧ entry.1.toList.all isAlpha = true := by
    decide
  obtain ⟨nonempty, all⟩ := letters _ reserved
  rw [String.toList_ofList] at nonempty all
  exact lawful_of_letters nonempty all

/-- A lexeme is a piece, and its token is that of the piece. -/
theorem Lexeme.exists_piece (l : Lexeme) :
    ∃ p : Piece, p.Lawful ∧ p.text = l.text ∧ p.token? 0 = some l.token := by
  obtain ⟨text, kind, value, spells⟩ := l
  cases spells with
  | mark known => exact ⟨_, .mark known, rfl, rfl⟩
  | keyword reserved =>
    refine ⟨_, lawful_of_keyword reserved, rfl, ?_⟩
    rw [Piece.token?, lookup_keywords_iff.2 reserved]
    rfl
  | @identifier c cs first others free =>
    refine ⟨_, .word first others, rfl, ?_⟩
    have unreserved : keywords.lookup (String.ofList (c :: cs)) = none := by
      rw [Option.eq_none_iff_forall_ne_some]
      exact fun kind found => free kind (lookup_keywords_iff.1 found)
    rw [Piece.token?, unreserved]
    rfl
  | integer nonempty digits =>
    refine ⟨_, .integer nonempty digits, rfl, ?_⟩
    rw [Piece.token?, Piece.numberValue_integer digits]
    rfl
  | decimal nonempty digits fraction fraction_digits =>
    refine ⟨_, .decimal nonempty digits fraction fraction_digits, rfl, ?_⟩
    rw [Piece.token?, Piece.numberValue_decimal digits]
    rfl
  | @string body inside =>
    refine ⟨_, .string inside, rfl, ?_⟩
    have value : (('"' :: body ++ ['"']).drop 1).dropLast = body := List.dropLast_concat
    rw [Piece.token?, value]
    rfl

/-- A token of a source, but for the end token, is that of a lexeme. -/
theorem exists_lexeme {source : String} {t : Token} (mem : t ∈ tokens source)
    (ne_eof : t.kind ≠ .eof) : ∃ l : Lexeme, l.token = t.unlined := by
  obtain ⟨p, lawful, token⟩ := Token.Lexical.of_mem mem ne_eof
  refine ⟨⟨p.text, t.kind, t.literal, lawful.spells token⟩, ?_⟩
  rw [Lexeme.token, ← (Piece.of_token? token).2]
  rfl

/-! ### Texts that are scanned without a fault -/

/-- The text is scanned to these tokens, but for their lines, and has no fault. -/
structure Scans (cs : List Char) (ts : List Token) : Prop where
  tokens_eq : (pieces cs).filterMap (Piece.token? · 0) = ts
  no_fault : ∀ p ∈ pieces cs, p.fault? 0 = none

/-- White space, the pieces of which are neither tokens nor faults. -/
abbrev White (gap : List Char) : Prop := ∀ c ∈ gap, c = ' ' ∨ c = '\t' ∨ c = '\r' ∨ c = '\n'

namespace White

variable {gap : List Char} {c : Char}

theorem separates (white : White gap) (mem : c ∈ gap) : Lexer.separates c = true := by
  rcases white c mem with rfl | rfl | rfl | rfl <;> decide

theorem cut_eq (white : White gap) (mem : c ∈ gap) (cs : List Char) :
    ∃ form, cut c cs = (⟨form, [c]⟩, cs) ∧ (form = .blank ∨ form = .newline) := by
  rcases white c mem with rfl | rfl | rfl | rfl
  · exact ⟨.blank, rfl, .inl rfl⟩
  · exact ⟨.blank, rfl, .inl rfl⟩
  · exact ⟨.blank, rfl, .inl rfl⟩
  · exact ⟨.newline, rfl, .inr rfl⟩

end White

namespace Scans

variable {rest : List Char} {ts : List Token}

theorem nil : Scans [] [] where
  tokens_eq := by rw [pieces_nil, List.filterMap_nil]
  no_fault := by simp

/-- White space in front is skipped. -/
theorem white {gap : List Char} (white : White gap) (others : Scans rest ts) :
    Scans (gap ++ rest) ts := by
  induction gap with
  | nil => exact others
  | cons c gap ih =>
    obtain ⟨form, eq, kind⟩ := white.cut_eq List.mem_cons_self (gap ++ rest)
    obtain ⟨tokens_eq, no_fault⟩ := ih fun d mem => white d (List.mem_cons_of_mem c mem)
    rw [List.cons_append]
    constructor <;> rw [pieces_cons, eq]
    · rw [← tokens_eq]
      rcases kind with rfl | rfl <;> rfl
    · refine List.forall_mem_cons.2 ⟨?_, no_fault⟩
      rcases kind with rfl | rfl <;> rfl

/-- **One lexeme is read** up to a separator or the end. -/
theorem lexeme (l : Lexeme) (ends : ∀ x ∈ rest.head?, separates x = true)
    (others : Scans rest ts) : Scans (l.text ++ rest) (l.token :: ts) := by
  obtain ⟨p, lawful, text, token⟩ := l.exists_piece
  have no_comment : p.form ≠ .comment := by
    intro comment
    simp [Piece.token?, comment] at token
  obtain ⟨c, cs, split⟩ := List.exists_cons_of_ne_nil lawful.text_ne_nil
  have first := lawful.cut_append no_comment split ends
  rw [← text, split, List.cons_append]
  constructor <;> rw [pieces_cons, first]
  · rw [List.filterMap_cons, token, others.tokens_eq]
  · exact List.forall_mem_cons.2 ⟨Piece.fault?_of_token? token, others.no_fault⟩

/-- Such a text is a source without faults, and the end token comes last. -/
theorem tokens_unlined {source : String} (h : Scans source.toList ts) :
    faults source = [] ∧ (tokens source).map Token.unlined = ts ++ [Token.eof 0] := by
  rw [faults, tokens, map_unlined_tokensFrom, h.tokens_eq]
  exact ⟨faultsFrom_eq_nil_iff.2 h.no_fault, rfl⟩

end Scans

/-! ### Lexemes written out -/

/-- The text has these lexemes in order, with white space behind each, which is not empty if
another lexeme follows. -/
inductive Written : List Lexeme → List Char → Prop
  | nil : Written [] []
  | cons {ls : List Lexeme} {gap rest : List Char} (l : Lexeme) (white : White gap)
      (apart : ls ≠ [] → gap ≠ []) (others : Written ls rest) :
    Written (l :: ls) (l.text ++ (gap ++ rest))

/-- **What is written is read.** -/
theorem Written.scans {ls : List Lexeme} {text : List Char} (h : Written ls text) :
    Scans text (ls.map Lexeme.token) := by
  induction h with
  | nil => exact .nil
  | @cons ls gap rest l white apart others ih =>
    refine .lexeme l (fun x follows => ?_) (.white white ih)
    cases gap with
    | cons d gap =>
      obtain rfl := Option.some.inj follows
      exact white.separates List.mem_cons_self
    | nil =>
      -- without white space the lexeme is the last
      cases others with
      | nil => cases follows
      | cons => exact absurd rfl (apart (List.cons_ne_nil _ _))

/-- Lexemes joined with spaces are written out, also with the empty text of an end token. -/
theorem written_intercalate (ls : List Lexeme) {last : List String}
    (ends : last = [] ∨ last = [""]) :
    Written ls (" ".intercalate (ls.map (·.token.lexeme) ++ last)).toList := by
  induction ls with
  | nil =>
    rcases ends with rfl | rfl
    · exact .nil
    · rw [List.map_nil, List.nil_append, String.intercalate_singleton]
      exact .nil
  | cons l ls ih =>
    have text : l.token.lexeme.toList = l.text := String.toList_ofList
    have nothing : White [] := nofun
    have space : White [' '] := by simp [White]
    rw [List.map_cons, List.cons_append]
    cases behind : ls.map (·.token.lexeme) ++ last with
    | nil =>
      obtain ⟨none, -⟩ := List.append_eq_nil_iff.1 behind
      obtain rfl := List.map_eq_nil_iff.1 none
      rw [String.intercalate_singleton, text, ← List.append_nil l.text]
      exact .cons l nothing (absurd rfl) .nil
    | cons s ss =>
      rw [behind] at ih
      rw [String.intercalate_cons_cons, String.toList_append, String.toList_append, text,
        List.append_assoc]
      exact .cons l space (fun _ => List.cons_ne_nil _ _) ih

/-- The tokens of a source are those of lexemes, but for the end token. -/
theorem exists_lexemes (source : String) : ∃ (ts : List Token) (ls : List Lexeme) (line : Int),
    tokens source = ts ++ [Token.eof line] ∧ ts.map Token.unlined = ls.map Lexeme.token := by
  obtain ⟨ts, ne_eof, split⟩ := tokens_eq_append_eof source
  have spelled : ts.map Token.unlined ∈ Set.range (List.map Lexeme.token) := by
    rw [Set.range_list_map]
    refine List.forall_mem_map.2 fun t mem => ?_
    exact exists_lexeme (split ▸ List.mem_append_left _ mem) (ne_eof t mem)
  obtain ⟨ls, eq⟩ := spelled
  exact ⟨ts, ls, _, split, eq.symm⟩

/-- **Scanning undoes writing out.** Lexemes with white space between them are read as they were
written, one token for each. So the lexemes of a source can be joined with spaces and read again. -/
theorem tokens_of_written :
    (∀ (ls : List Lexeme) (source : String) (front text : List Char), White front →
        Written ls text → source.toList = front ++ text →
        faults source = []
          ∧ (tokens source).map Token.unlined = ls.map Lexeme.token ++ [⟨.eof, "", 0, .nil⟩])
      ∧ ∀ source, ∀ ts ∈ [tokens source, (tokens source).dropLast],
        let joined := " ".intercalate (ts.map Token.lexeme)
        faults joined = []
          ∧ (tokens joined).map Token.unlined = (tokens source).map Token.unlined := by
  constructor
  · intro ls source front text white written split
    have scans := written.scans.white white
    rw [← split] at scans
    exact scans.tokens_unlined
  · intro source ts among joined
    obtain ⟨us, ls, line, split, spelled⟩ := exists_lexemes source
    have lexemes : us.map Token.lexeme = ls.map (·.token.lexeme) := by
      have eq := congrArg (List.map Token.lexeme) spelled
      rwa [List.map_map, List.map_map] at eq
    obtain ⟨last, ends, texts⟩ : ∃ last, (last = [] ∨ last = [""]) ∧
        ts.map Token.lexeme = ls.map (·.token.lexeme) ++ last := by
      rw [← lexemes]
      rcases List.mem_pair.1 among with rfl | rfl
      · exact ⟨[""], .inr rfl, by rw [split, List.map_append]; rfl⟩
      · exact ⟨[], .inl rfl, by rw [split, List.dropLast_concat, List.append_nil]⟩
    have written : Written ls joined.toList := by
      have written := written_intercalate ls ends
      rwa [← texts] at written
    obtain ⟨clean, read⟩ := written.scans.tokens_unlined
    refine ⟨clean, ?_⟩
    rw [read, split, List.map_append, spelled]
    rfl

/-- Lexemes that would be others without the white space between them; and a source with a comment,
a string of two lines and a problem. -/
theorem tokens_of_written_apart :
    let slash : Lexeme := ⟨['/'], .slash, .nil, .mark (by decide)⟩
    let dot : Lexeme := ⟨['.'], .dot, .nil, .mark (by decide)⟩
    let five : Lexeme :=
      ⟨['5'], .number, .num (Number.ofDigits ['5'] [] 0), .integer (by decide) (by simp [isDigit])⟩
    let lines : Lexeme :=
      ⟨'"' :: ['a', '\n', 'b'] ++ ['"'], .string, .str (String.ofList ['a', '\n', 'b']),
        .string (by decide)⟩
    let written := "\t/ /\n5\r\n. 5 \"a\nb\""
    let source := "var x=\"a\nb\"!// 1\n@"
    let joined := "var x = \"a\nb\" ! "
    faults written = []
      ∧ (tokens written).map Token.unlined =
        [slash, slash, five, dot, five, lines].map Lexeme.token ++ [⟨.eof, "", 0, .nil⟩]
      ∧ faults joined = []
      ∧ (tokens joined).map Token.unlined = (tokens source).map Token.unlined := by
  intro slash dot five lines written source joined
  have nothing : White [] := nofun
  have space : White [' '] := by simp [White]
  have line : White ['\n'] := by simp [White]
  have wide : White ['\r', '\n'] := by simp [White]
  have apart {ls : List Lexeme} {c : Char} {gap : List Char} : ls ≠ [] → c :: gap ≠ [] :=
    fun _ => List.cons_ne_nil c gap
  have text := Written.cons slash space apart <| .cons slash line apart <| .cons five wide apart <|
    .cons dot space apart <| .cons five space apart <| .cons lines nothing (absurd rfl) .nil
  obtain ⟨clean, read⟩ := tokens_of_written.1 _ written ['\t'] _ (by simp [White]) text (by decide)
  have spaced : " ".intercalate ((tokens source).map Token.lexeme) = joined := by decide +kernel
  have again := tokens_of_written.2 source (tokens source) List.mem_cons_self
  rw [spaced] at again
  exact ⟨clean, read, again⟩

end Lox.Lexer
