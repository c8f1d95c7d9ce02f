import Lox.Proofs.Grammar.Nested
import Lox.Proofs.Parser.Origin
import Lox.Proofs.Parser.Produced
import Lox.Proofs.Parser.RoundTrip
import Lox.Proofs.Run.Layout

/-!
# Printed trees determine the program

The parenthesized form of a statement shows everything that is in the tree but lines: statements of
any sources that are printed alike are the same up to the lines of their tokens
(`Stmt.unlined_eq_of_text`). The text is read back to what it shows (`Nested`), and from this the
tree follows node by node: heads and numbers of parts tell the nodes apart, and lexemes tell their
tokens.
-/

namespace Lox

/-! ### Trees of lexical tokens -/

/-- Every stored token is lexical, and of a kind that fits its place. -/
def Expr.Spelled : Expr → Prop
  | .binary left operator right =>
    (operator.Lexical ∧ operator.kind.infixLevel?.isSome) ∧ left.Spelled ∧ right.Spelled
  | .unary operator right =>
    (operator.Lexical ∧ operator.kind ∈ [Kind.bang, .minus]) ∧ right.Spelled
  | .grouping inner => inner.Spelled
  | .literal token => token.Lexical ∧ token.kind ∈ [Kind.number, .string, .kwTrue, .kwFalse, .kwNil]
  | .ident name => name.Lexical ∧ name.kind = .identifier
  | .assign name value => (name.Lexical ∧ name.kind = .identifier) ∧ value.Spelled
  | .foreign _ => False

mutual

/-- Every stored token is lexical, and of a kind that fits its place. -/
def Stmt.Spelled : Stmt → Prop
  | .expression e | .print e => e.Spelled
  | .var name none => name.Lexical ∧ name.kind = .identifier
  | .var name (some e) => (name.Lexical ∧ name.kind = .identifier) ∧ e.Spelled
  | .block body => Stmt.AllSpelled body
  | .ifThen condition yes => condition.Spelled ∧ yes.Spelled
  | .ifElse condition yes no => condition.Spelled ∧ yes.Spelled ∧ no.Spelled
  | .loop condition body => condition.Spelled ∧ body.Spelled
  | .foreign _ => False

/-- Every stored token is lexical, and of a kind that fits its place. -/
def Stmt.AllSpelled : List Stmt → Prop
  | [] => True
  | s :: ss => s.Spelled ∧ Stmt.AllSpelled ss

end

/-- The tokens kept among the symbols are lexical. -/
def AllLexical (ss : List Symbol) : Prop := ∀ t, .stored t ∈ ss → t.Lexical

namespace AllLexical

@[simp] theorem nil : AllLexical [] := nofun

@[simp] theorem cons_stored {t : Token} {ss : List Symbol} :
    AllLexical (.stored t :: ss) ↔ t.Lexical ∧ AllLexical ss := by
  simp [AllLexical]

@[simp] theorem cons_implied {kind : Kind} {ss : List Symbol} :
    AllLexical (.implied kind :: ss) ↔ AllLexical ss := by
  simp [AllLexical]

@[simp] theorem append {ss rs : List Symbol} :
    AllLexical (ss ++ rs) ↔ AllLexical ss ∧ AllLexical rs := by
  simp only [AllLexical, List.mem_append, or_imp, forall_and]

end AllLexical

theorem Expr.Stratified.spelled {e : Expr} (h : e.Stratified) (lexical : AllLexical e.flatten) :
    e.Spelled := by
  induction e with
  | binary left operator right ihl ihr =>
    obtain ⟨⟨n, binding, -⟩, hleft, hright⟩ := h
    simp only [flatten, AllLexical.append, AllLexical.cons_stored] at lexical
    obtain ⟨in_left, op, in_right⟩ := lexical
    exact ⟨⟨op, Option.isSome_iff_exists.2 ⟨n, binding⟩⟩, ihl hleft in_left, ihr hright in_right⟩
  | unary operator right ih =>
    simp only [flatten, AllLexical.cons_stored] at lexical
    exact ⟨⟨lexical.1, h.1⟩, ih h.2.2 lexical.2⟩
  | grouping inner ih =>
    simp only [flatten, AllLexical.cons_implied, AllLexical.append] at lexical
    exact ih h lexical.1
  | literal token | ident token =>
    simp only [flatten, AllLexical.cons_stored] at lexical
    exact ⟨lexical.1, h⟩
  | assign name value ih =>
    simp only [flatten, AllLexical.cons_stored, AllLexical.cons_implied] at lexical
    exact ⟨⟨lexical.1, h.1⟩, ih h.2 lexical.2⟩
  | foreign label => exact h

mutual

theorem Stmt.WellFormed.spelled : ∀ {s : Stmt}, s.WellFormed → AllLexical s.flatten → s.Spelled
  | .expression _, h, lexical | .print _, h, lexical => by
    simp only [Stmt.flatten, AllLexical.cons_implied, AllLexical.append] at lexical
    exact Expr.Stratified.spelled h lexical.1
  | .var _ none, h, lexical => by
    simp only [Stmt.flatten, AllLexical.cons_implied, AllLexical.cons_stored] at lexical
    exact ⟨lexical.1, h⟩
  | .var _ (some _), ⟨hname, h⟩, lexical => by
    simp only [Stmt.flatten, AllLexical.cons_implied, AllLexical.cons_stored,
      AllLexical.append] at lexical
    exact ⟨⟨lexical.1, hname⟩, h.spelled lexical.2.1⟩
  | .block _, h, lexical => by
    simp only [Stmt.flatten, AllLexical.cons_implied, AllLexical.append] at lexical
    exact Stmt.AllWellFormed.spelled h lexical.1
  | .ifThen _ _, ⟨hc, _, hyes⟩, lexical => by
    simp only [Stmt.flatten, Expr.flattenCondition, AllLexical.cons_implied,
      AllLexical.append] at lexical
    exact ⟨hc.spelled lexical.1.1, hyes.spelled lexical.2⟩
  | .ifElse _ _ _, ⟨hc, ⟨_, _, hyes⟩, _, hno⟩, lexical => by
    simp only [Stmt.flatten, Expr.flattenCondition, AllLexical.cons_implied,
      AllLexical.append] at lexical
    exact ⟨hc.spelled lexical.1.1, hyes.spelled lexical.2.1, hno.spelled lexical.2.2⟩
  | .loop _ _, ⟨hc, _, hbody⟩, lexical => by
    simp only [Stmt.flatten, Expr.flattenCondition, AllLexical.cons_implied,
      AllLexical.append] at lexical
    exact ⟨hc.spelled lexical.1.1, hbody.spelled lexical.2⟩
  | .foreign _, h, _ => h.elim

theorem Stmt.AllWellFormed.spelled : ∀ {ss : List Stmt}, Stmt.AllWellFormed ss →
    AllLexical (Stmt.flattenAll ss) → Stmt.AllSpelled ss
  | [], _, _ => trivial
  | _ :: _, ⟨hs, hss⟩, lexical => by
    simp only [Stmt.flattenAll, AllLexical.append] at lexical
    exact ⟨hs.spelled lexical.1, Stmt.AllWellFormed.spelled hss lexical.2⟩

end

/-- **The statements of a source are spelled with its tokens**, also when there are problems. -/
theorem Stmt.spelled_of_mem {limit : Nat} {source : String} {s : Stmt}
    (mem : s ∈ (Parsed.ofTokens limit (Lexer.tokens source)).statements) : s.Spelled := by
  have wellFormed : s.WellFormed := Parsed.wellFormed_of_mem mem
  apply wellFormed.spelled
  intro t stored
  obtain ⟨before, after, split⟩ := List.append_of_mem mem
  have among : .stored t ∈ flattenAll (Parsed.ofTokens limit (Lexer.tokens source)).statements := by
    simp [split, flattenAll_append, flattenAll, stored]
  apply Token.Lexical.of_mem (Parsed.mem_of_stored (Lexer.exists_eof source) among)
  exact Stmt.kind_ne_eof wellFormed (.stored t) stored

/-! ### What the printed form shows -/

/-- What the printed form of an expression shows. -/
def Expr.nested : Expr → Nested
  | .binary left operator right => .group operator.lexeme [left.nested, right.nested]
  | .unary operator right => .group operator.lexeme [right.nested]
  | .grouping inner => .group "group" [inner.nested]
  | .literal token => .word token.lexeme
  | .ident name => .word name.lexeme
  | .assign name value => .group "=" [.word name.lexeme, value.nested]
  | .foreign _ => .word "?"

mutual

/-- What the printed form of a statement shows. -/
def Stmt.nested : Stmt → Nested
  | .expression e => .group "expr" [e.nested]
  | .print e => .group "print" [e.nested]
  | .var name initializer =>
    .group "var" (.word name.lexeme :: (initializer.map Expr.nested).toList)
  | .block body => .group "block" (Stmt.nestedAll body)
  | .ifThen condition yes => .group "if" [condition.nested, yes.nested]
  | .ifElse condition yes no => .group "if" [condition.nested, yes.nested, no.nested]
  | .loop condition body => .group "while" [condition.nested, body.nested]
  | .foreign _ => .word "?"

/-- What the printed forms of statements show. -/
def Stmt.nestedAll : List Stmt → List Nested
  | [] => []
  | s :: ss => s.nested :: Stmt.nestedAll ss

end

theorem Expr.text_nested (e : Expr) : e.nested.text = e.text := by
  induction e <;> simp_all [nested, text, Nested.text, Nested.texts]

mutual

theorem Stmt.text_nested : ∀ s : Stmt, s.nested.text = s.text
  | .expression e | .print e => by
    simp only [Stmt.nested, Stmt.text, Nested.text, Nested.texts, e.text_nested]
  | .var _ (some e) => by
    simp only [Stmt.nested, Option.map_some, Option.toList_some, Stmt.text, Nested.text,
      Nested.texts, e.text_nested]
  | .var _ none | .foreign _ => rfl
  | .block body => congrArg (parenthesized "block") (Stmt.texts_nestedAll body)
  | .ifThen c yes => by
    simp only [Stmt.nested, Stmt.text, Nested.text, Nested.texts, c.text_nested,
      Stmt.text_nested yes]
  | .ifElse c yes no => by
    simp only [Stmt.nested, Stmt.text, Nested.text, Nested.texts, c.text_nested,
      Stmt.text_nested yes, Stmt.text_nested no]
  | .loop c body => by
    simp only [Stmt.nested, Stmt.text, Nested.text, Nested.texts, c.text_nested,
      Stmt.text_nested body]

theorem Stmt.texts_nestedAll : ∀ ss : List Stmt, Nested.texts (Stmt.nestedAll ss) = Stmt.texts ss
  | [] => rfl
  | s :: ss => by
    simp only [Stmt.nestedAll, Stmt.texts, Nested.texts, Stmt.text_nested s,
      Stmt.texts_nestedAll ss]

end

/-! ### The printed form is legible -/

/-- A token that is no parenthesis is legible as a word. -/
theorem Token.Lexical.legible {t : Token} (h : t.Lexical) {kinds : List Kind}
    (among : t.kind ∈ kinds) (others : Kind.leftParen ∉ kinds) :
    (Nested.word t.lexeme).Legible := by
  refine ⟨h.isLexeme, fun paren => others ?_⟩
  have kind : t.kind = .leftParen := h.kind_of_mark ['('] (by decide) paren
  rwa [kind] at among

theorem Token.Lexical.legible_name {name : Token} (h : name.Lexical)
    (kind : name.kind = .identifier) : (Nested.word name.lexeme).Legible :=
  h.legible (List.mem_singleton.2 kind) (by decide)

theorem Expr.Spelled.legible {e : Expr} (h : e.Spelled) : e.nested.Legible := by
  induction e with
  | binary left operator right ihl ihr =>
    exact ⟨h.1.1.isLexeme, ihl h.2.1, ihr h.2.2, trivial⟩
  | unary operator right ih => exact ⟨h.1.1.isLexeme, ih h.2, trivial⟩
  | grouping inner ih => exact ⟨.of_letters (by decide) (by decide), ih h, trivial⟩
  | literal token => exact h.1.legible h.2 (by decide)
  | ident name => exact h.1.legible_name h.2
  | assign name value ih =>
    have equals : IsLexeme "=" := .of_mark ['='] .equal (by decide)
    exact ⟨equals, h.1.1.legible_name h.1.2, ih h.2, trivial⟩
  | foreign label => exact h.elim

mutual

theorem Stmt.Spelled.legible : ∀ {s : Stmt}, s.Spelled → s.nested.Legible
  | .expression _, h | .print _, h =>
    ⟨.of_letters (by decide) (by decide), Expr.Spelled.legible h, trivial⟩
  | .var _ none, ⟨lexical, kind⟩ =>
    ⟨.of_letters (by decide) (by decide), lexical.legible_name kind, trivial⟩
  | .var _ (some _), ⟨⟨lexical, kind⟩, h⟩ =>
    ⟨.of_letters (by decide) (by decide), lexical.legible_name kind, h.legible, trivial⟩
  | .block _, h => ⟨.of_letters (by decide) (by decide), Stmt.AllSpelled.legible h⟩
  | .ifThen _ _, ⟨hc, hyes⟩ =>
    ⟨.of_letters (by decide) (by decide), hc.legible, hyes.legible, trivial⟩
  | .ifElse _ _ _, ⟨hc, hyes, hno⟩ =>
    ⟨.of_letters (by decide) (by decide), hc.legible, hyes.legible, hno.legible, trivial⟩
  | .loop _ _, ⟨hc, hbody⟩ =>
    ⟨.of_letters (by decide) (by decide), hc.legible, hbody.legible, trivial⟩
  | .foreign _, h => h.elim

theorem Stmt.AllSpelled.legible : ∀ {ss : List Stmt}, Stmt.AllSpelled ss →
    Nested.AllLegible (Stmt.nestedAll ss)
  | [], _ => trivial
  | _ :: _, ⟨hs, hss⟩ => ⟨hs.legible, Stmt.AllSpelled.legible hss⟩

end

/-! ### The printed form determines the tree -/

namespace Token.Lexical

variable {t u : Token}

theorem unlined_eq (ht : t.Lexical) (hu : u.Lexical) (same : t.lexeme = u.lexeme) :
    t.unlined = u.unlined :=
  ht.relocate_eq hu same 0

/-- No operator between operands is the equals sign alone. -/
theorem ne_equal (h : t.Lexical) (level : t.kind.infixLevel?.isSome) : t.lexeme ≠ "=" := by
  intro equal
  have kind : t.kind = .equal := h.kind_of_mark ['='] (by decide) equal
  rw [kind] at level
  cases level

/-- No operator before an operand is a word. -/
theorem ne_group (h : t.Lexical) (among : t.kind ∈ [Kind.bang, .minus]) : t.lexeme ≠ "group" := by
  intro group
  have word : Token.Lexical ⟨.identifier, "group", 0, .nil⟩ :=
    ⟨⟨.word, "group".toList⟩, lawful_of_letters (by decide) (by decide), by decide +kernel⟩
  rw [h.kind_eq word group] at among
  revert among
  decide

/-- A name is no literal. -/
theorem ne_literal (h : t.Lexical) (name : t.kind = .identifier) (hu : u.Lexical)
    (among : u.kind ∈ [Kind.number, .string, .kwTrue, .kwFalse, .kwNil]) :
    t.lexeme ≠ u.lexeme := by
  intro same
  rw [← h.kind_eq hu same, name] at among
  revert among
  decide

end Token.Lexical

/-- **Expressions that show the same** are the same up to lines. -/
theorem Expr.Spelled.unlined_eq_of_nested {e f : Expr} (he : e.Spelled) (hf : f.Spelled)
    (same : e.nested = f.nested) : e.map Token.unlined = f.map Token.unlined := by
  induction e generalizing f with
  | binary left operator right ihl ihr =>
    obtain ⟨⟨lexical, level⟩, hleft, hright⟩ := he
    cases f with
    | binary left' operator' right' =>
      simp only [nested, Nested.group.injEq, List.cons.injEq, and_true] at same
      obtain ⟨lexeme, left_eq, right_eq⟩ := same
      rw [Expr.map, Expr.map, lexical.unlined_eq hf.1.1 lexeme, ihl hleft hf.2.1 left_eq,
        ihr hright hf.2.2 right_eq]
    | assign name value =>
      -- two parts as well, so here the head makes the difference
      exact absurd (Nested.group.inj same).1 (lexical.ne_equal level)
    | _ => simp [nested] at same
  | unary operator right ih =>
    obtain ⟨⟨lexical, among⟩, hright⟩ := he
    cases f with
    | unary operator' right' =>
      simp only [nested, Nested.group.injEq, List.cons.injEq, and_true] at same
      rw [Expr.map, Expr.map, lexical.unlined_eq hf.1.1 same.1, ih hright hf.2 same.2]
    | grouping inner => exact absurd (Nested.group.inj same).1 (lexical.ne_group among)
    | _ => simp [nested] at same
  | grouping inner ih =>
    cases f with
    | grouping inner' =>
      have hinner' : inner'.Spelled := hf
      simp only [nested, Nested.group.injEq, List.cons.injEq, and_true, true_and] at same
      rw [Expr.map, Expr.map, ih he hinner' same]
    | unary operator right =>
      exact absurd (Nested.group.inj same).1.symm (hf.1.1.ne_group hf.1.2)
    | _ => simp [nested] at same
  | literal token =>
    cases f with
    | literal token' =>
      rw [Expr.map, Expr.map, he.1.unlined_eq hf.1 (Nested.word.inj same)]
    | ident name => exact absurd (Nested.word.inj same).symm (hf.1.ne_literal hf.2 he.1 he.2)
    | foreign label => exact hf.elim
    | _ => simp [nested] at same
  | ident name =>
    cases f with
    | ident name' => rw [Expr.map, Expr.map, he.1.unlined_eq hf.1 (Nested.word.inj same)]
    | literal token => exact absurd (Nested.word.inj same) (he.1.ne_literal he.2 hf.1 hf.2)
    | foreign label => exact hf.elim
    | _ => simp [nested] at same
  | assign name value ih =>
    cases f with
    | assign name' value' =>
      simp only [nested, Nested.group.injEq, Nested.word.injEq, List.cons.injEq, and_true,
        true_and] at same
      rw [Expr.map, Expr.map, he.1.1.unlined_eq hf.1.1 same.1, ih he.2 hf.2 same.2]
    | binary left operator right =>
      exact absurd (Nested.group.inj same).1.symm (hf.1.1.ne_equal hf.1.2)
    | _ => simp [nested] at same
  | foreign label => exact he.elim

mutual

/-- **Statements that show the same** are the same up to lines. -/
theorem Stmt.Spelled.unlined_eq_of_nested : ∀ {s t : Stmt}, s.Spelled → t.Spelled → s.nested = t.nested →
    s.map Token.unlined = t.map Token.unlined
  | .expression e, t, he, ht, same => by
    cases t with
    | expression f =>
      simp only [Stmt.nested, Nested.group.injEq, List.cons.injEq, and_true, true_and] at same
      rw [Stmt.map, Stmt.map, Expr.Spelled.unlined_eq_of_nested he ht same]
    | _ => simp [Stmt.nested] at same
  | .print e, t, he, ht, same => by
    cases t with
    | print f =>
      simp only [Stmt.nested, Nested.group.injEq, List.cons.injEq, and_true, true_and] at same
      rw [Stmt.map, Stmt.map, Expr.Spelled.unlined_eq_of_nested he ht same]
    | _ => simp [Stmt.nested] at same
  | .var name none, t, hname, ht, same => by
    cases t with
    | var name' initializer =>
      cases initializer with
      | none =>
        simp only [Stmt.nested, Nested.group.injEq, Nested.word.injEq, List.cons.injEq, and_true,
          true_and] at same
        rw [Stmt.map, Stmt.map, hname.1.unlined_eq ht.1 same]
      | some f => simp [Stmt.nested] at same
    | _ => simp [Stmt.nested] at same
  | .var name (some e), t, ⟨hname, he⟩, ht, same => by
    cases t with
    | var name' initializer =>
      cases initializer with
      | none => simp [Stmt.nested] at same
      | some f =>
        simp only [Stmt.nested, Option.map_some, Option.toList_some, Nested.group.injEq,
          Nested.word.injEq, List.cons.injEq, and_true, true_and] at same
        rw [Stmt.map, Stmt.map, hname.1.unlined_eq ht.1.1 same.1,
          he.unlined_eq_of_nested ht.2 same.2]
    | _ => simp [Stmt.nested] at same
  | .block ss, t, hss, ht, same => by
    cases t with
    | block ts =>
      simp only [Stmt.nested, Nested.group.injEq, true_and] at same
      rw [Stmt.map, Stmt.map, Stmt.AllSpelled.unlined_eq_of_nested hss ht same]
    | _ => simp [Stmt.nested] at same
  | .ifThen c yes, t, ⟨hc, hyes⟩, ht, same => by
    cases t with
    | ifThen c' yes' =>
      simp only [Stmt.nested, Nested.group.injEq, List.cons.injEq, and_true, true_and] at same
      rw [Stmt.map, Stmt.map, hc.unlined_eq_of_nested ht.1 same.1,
        hyes.unlined_eq_of_nested ht.2 same.2]
    | _ => simp [Stmt.nested] at same
  | .ifElse c yes no, t, ⟨hc, hyes, hno⟩, ht, same => by
    cases t with
    | ifElse c' yes' no' =>
      simp only [Stmt.nested, Nested.group.injEq, List.cons.injEq, and_true, true_and] at same
      rw [Stmt.map, Stmt.map, hc.unlined_eq_of_nested ht.1 same.1,
        hyes.unlined_eq_of_nested ht.2.1 same.2.1,
        hno.unlined_eq_of_nested ht.2.2 same.2.2]
    | _ => simp [Stmt.nested] at same
  | .loop c body, t, ⟨hc, hbody⟩, ht, same => by
    cases t with
    | loop c' body' =>
      simp only [Stmt.nested, Nested.group.injEq, List.cons.injEq, and_true, true_and] at same
      rw [Stmt.map, Stmt.map, hc.unlined_eq_of_nested ht.1 same.1,
        hbody.unlined_eq_of_nested ht.2 same.2]
    | _ => simp [Stmt.nested] at same
  | .foreign _, _, hs, _, _ => hs.elim

/-- Lists of statements that show the same are the same up to lines. -/
theorem Stmt.AllSpelled.unlined_eq_of_nested : ∀ {ss ts : List Stmt}, Stmt.AllSpelled ss →
    Stmt.AllSpelled ts → Stmt.nestedAll ss = Stmt.nestedAll ts →
      Stmt.mapAll Token.unlined ss = Stmt.mapAll Token.unlined ts
  | [], [], _, _, _ => rfl
  | s :: ss, t :: ts, ⟨hs, hss⟩, ⟨ht, hts⟩, same => by
    obtain ⟨first, others⟩ := List.cons.inj same
    rw [Stmt.mapAll, Stmt.mapAll, hs.unlined_eq_of_nested ht first,
      Stmt.AllSpelled.unlined_eq_of_nested hss hts others]

end

/-- **Printed trees determine the program.** Statements that any two sources are parsed to, even
with errors, are the same up to the lines of their tokens if they are printed alike. -/
theorem Stmt.unlined_eq_of_text (limit₁ limit₂ : Nat) (source₁ source₂ : String) (s t : Stmt)
    (hs : s ∈ (Parsed.ofTokens limit₁ (Lexer.tokens source₁)).statements)
    (ht : t ∈ (Parsed.ofTokens limit₂ (Lexer.tokens source₂)).statements)
    (same : s.text = t.text) : s.map Token.unlined = t.map Token.unlined := by
  have spelled : s.Spelled := Stmt.spelled_of_mem hs
  have spelled' : t.Spelled := Stmt.spelled_of_mem ht
  have shown : s.nested = t.nested := by
    apply Nested.eq_of_text spelled.legible spelled'.legible
    rw [s.text_nested, t.text_nested, same]
  exact spelled.unlined_eq_of_nested spelled' shown

/-- The same statement on other lines, once behind an error, with a parenthesis in a string. -/
theorem Stmt.unlined_eq_of_text_string :
    let source₁ := "print (a\n- \"(\");"
    let source₂ := "a = ;\n\nprint ( a - \"(\" ) ;"
    let tree (first second : Int) : Stmt :=
      .print (.grouping (.binary (.ident ⟨.identifier, "a", first, .nil⟩) ⟨.minus, "-", second, .nil⟩
        (.literal ⟨.string, "\"(\"", second, .str "("⟩)))
    tree 1 2 ∈ (Parsed.ofTokens 9 (Lexer.tokens source₁)).statements
      ∧ tree 3 3 ∈ (Parsed.ofTokens 9 (Lexer.tokens source₂)).statements
      ∧ (tree 1 2).text = "(print (group (- a \"(\")))"
      ∧ (tree 1 2).text = (tree 3 3).text
      ∧ (tree 1 2).map Token.unlined = (tree 3 3).map Token.unlined := by
  intro source₁ source₂ tree
  have hs : tree 1 2 ∈ (Parsed.ofTokens 9 (Lexer.tokens source₁)).statements := by decide +kernel
  have ht : tree 3 3 ∈ (Parsed.ofTokens 9 (Lexer.tokens source₂)).statements := by decide +kernel
  have same : (tree 1 2).text = (tree 3 3).text := rfl
  refine ⟨hs, ht, by decide +kernel, same, ?_⟩
  exact unlined_eq_of_text 9 9 source₁ source₂ (tree 1 2) (tree 3 3) hs ht same

end Lox
