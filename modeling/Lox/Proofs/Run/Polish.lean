import Lox.Proofs.Eval.Redundant
import Lox.Proofs.Grammar.Polish
import Lox.Proofs.Run.Printed
import Mathlib.Data.Bool.Count

/-!
# What reverse Polish notation determines

Reverse Polish notation needs no parentheses, but it writes negation and subtraction with the same
sign: `-(1 - 2)` and `1 - -2` are both `1 2 - -`. So the text of an expression determines it up to
parentheses and lines once it is known of each minus sign which of the two it is
(`Expr.bare_unlined_eq_iff`), and in any case how many of each there are. If an expression uses
minus signs in one way only, its text leaves no choice.
-/

namespace Lox

/-! ### Expressions of sources -/

/-- The expression and all expressions within. -/
def Expr.parts : Expr → List Expr
  | .binary left operator right => .binary left operator right :: (left.parts ++ right.parts)
  | .unary operator right => .unary operator right :: right.parts
  | .grouping inner => .grouping inner :: inner.parts
  | .literal token => [.literal token]
  | .ident name => [.ident name]
  | .assign name value => .assign name value :: value.parts
  | .foreign label => [.foreign label]

mutual

/-- All expressions in the statement. -/
def Stmt.expressions : Stmt → List Expr
  | .expression e | .print e | .var _ (some e) => e.parts
  | .var _ none => []
  | .block body => Stmt.expressionsAll body
  | .ifThen condition yes => condition.parts ++ yes.expressions
  | .ifElse condition yes no => condition.parts ++ (yes.expressions ++ no.expressions)
  | .loop condition body => condition.parts ++ body.expressions
  | .foreign _ => []

/-- All expressions in the statements. -/
def Stmt.expressionsAll : List Stmt → List Expr
  | [] => []
  | s :: ss => s.expressions ++ Stmt.expressionsAll ss

end

/-- The parser makes the expression from some source, as a statement's own or within another one. -/
def Expr.Produced (e : Expr) : Prop :=
  ∃ limit source, ∃ s ∈ (Parsed.ofTokens limit (Lexer.tokens source)).statements,
    e ∈ s.expressions

theorem Expr.Spelled.of_mem {e f : Expr} (h : e.Spelled) (mem : f ∈ e.parts) : f.Spelled := by
  induction e with
  | binary left operator right ihl ihr =>
    rcases List.mem_cons.1 mem with rfl | within
    · exact h
    · exact (List.mem_append.1 within).elim (ihl h.2.1) (ihr h.2.2)
  | unary operator right ih => exact (List.mem_cons.1 mem).elim (· ▸ h) (ih h.2)
  | grouping inner ih => exact (List.mem_cons.1 mem).elim (· ▸ h) (ih h)
  | literal | ident | foreign => exact List.mem_singleton.1 mem ▸ h
  | assign name value ih => exact (List.mem_cons.1 mem).elim (· ▸ h) (ih h.2)

mutual

theorem Stmt.Spelled.of_mem {e : Expr} : ∀ {s : Stmt}, s.Spelled → e ∈ s.expressions → e.Spelled
  | .expression _, h, mem | .print _, h, mem => Expr.Spelled.of_mem h mem
  | .var _ (some _), h, mem => h.2.of_mem mem
  | .block _, h, mem => Stmt.AllSpelled.of_mem h mem
  | .ifThen _ _, ⟨hc, hyes⟩, mem => (List.mem_append.1 mem).elim hc.of_mem hyes.of_mem
  | .ifElse _ _ _, ⟨hc, hyes, hno⟩, mem =>
    (List.mem_append.1 mem).elim hc.of_mem fun branches =>
      (List.mem_append.1 branches).elim hyes.of_mem hno.of_mem
  | .loop _ _, ⟨hc, hbody⟩, mem => (List.mem_append.1 mem).elim hc.of_mem hbody.of_mem
  | .foreign _, h, _ => h.elim

theorem Stmt.AllSpelled.of_mem {e : Expr} : ∀ {ss : List Stmt}, Stmt.AllSpelled ss →
    e ∈ Stmt.expressionsAll ss → e.Spelled
  | _ :: _, ⟨hs, hss⟩, mem => (List.mem_append.1 mem).elim hs.of_mem (Stmt.AllSpelled.of_mem hss)

end

theorem Expr.Produced.spelled {e : Expr} (h : e.Produced) : e.Spelled := by
  obtain ⟨limit, source, s, mem, within⟩ := h
  exact (Stmt.spelled_of_mem mem).of_mem within

/-! ### What the text of an item shows -/

namespace Item

/-- The token of the item is lexical, and of a kind that fits its place. -/
def Spelled : Item → Prop
  | literal token => token.Lexical ∧ token.kind ∈ [Kind.number, .string, .kwTrue, .kwFalse, .kwNil]
  | ident name => name.Lexical ∧ name.kind = .identifier
  | unary operator => operator.Lexical ∧ operator.kind ∈ [Kind.bang, .minus]
  | binary operator => operator.Lexical ∧ operator.kind.infixLevel?.isSome
  | assign => True
  | foreign _ => False

/-- The token that stands for the item in the text. -/
def token : Item → Token
  | literal token | ident token | unary token | binary token => token
  | assign => ⟨.equal, "=", 0, .nil⟩
  | foreign _ => default

/-- The item that a token stands for, if it is known of a minus sign whether it is a negation. -/
def ofToken (t : Token) (negates : Bool) : Item :=
  match t.kind with
  | .number | .string | .kwTrue | .kwFalse | .kwNil => literal t
  | .identifier => ident t
  | .bang => unary t
  | .minus => if negates then unary t else binary t
  | .equal => assign
  | _ => binary t

theorem map_ofToken {f : Token → Token} (hf : ∀ t, (f t).kind = t.kind) (t : Token) (b : Bool) :
    (ofToken t b).map f = ofToken (f t) b := by
  unfold ofToken
  rw [hf]
  split
  case h_8 => split <;> rfl
  all_goals rfl

namespace Spelled

variable {x y : Item}

theorem lexical (h : x.Spelled) : x.token.Lexical := by
  cases x with
  | assign => exact .mark ['='] .equal (by decide) 0
  | foreign => exact h.elim
  | _ => exact h.1

theorem lexeme_eq (h : x.Spelled) : x.lexeme = x.token.lexeme := by
  cases x with
  | foreign => exact h.elim
  | _ => rfl

/-- The token tells the item, but of a minus sign not whether it is a negation. -/
theorem ofToken_eq (h : x.Spelled) : ofToken x.token (x.negates?.getD false) = x := by
  cases x with
  | literal t =>
    obtain ⟨-, among⟩ := h
    simp only [List.mem_cons, List.not_mem_nil, or_false] at among
    rcases among with kind | kind | kind | kind | kind <;> simp [ofToken, token, kind]
  | ident t => simp [ofToken, token, h.2]
  | unary t =>
    obtain ⟨-, among⟩ := h
    simp only [List.mem_cons, List.not_mem_nil, or_false] at among
    rcases among with kind | kind <;> simp [ofToken, token, negates?, kind]
  | binary t =>
    obtain ⟨-, level⟩ := h
    simp only [ofToken, token, negates?]
    split <;> simp_all [Kind.infixLevel?]
  | assign => rfl
  | foreign label => exact h.elim

theorem isSome_negates? (h : x.Spelled) : x.negates?.isSome ↔ x.token.kind = .minus := by
  cases x with
  | literal t =>
    have ne : t.kind ≠ .minus := fun minus => absurd (minus ▸ h.2) (by decide)
    simp [negates?, token, ne]
  | ident t => simp [negates?, token, h.2]
  | unary t | binary t => by_cases minus : t.kind = .minus <;> simp [negates?, token, minus]
  | assign => simp [negates?, token]
  | foreign label => exact h.elim

theorem legible (h : x.Spelled) : (Nested.word x.lexeme).Legible := by
  rw [h.lexeme_eq]
  have not_paren : x.token.kind ≠ .leftParen := by
    intro paren
    cases x <;> simp_all [Spelled, token, Kind.infixLevel?]
  exact ⟨h.lexical.isLexeme, fun lexeme =>
    not_paren (h.lexical.kind_of_mark ['('] (by decide) lexeme)⟩

end Spelled

/-- The two items have the same text. -/
structure SameText (x y : Item) : Prop where
  left : x.Spelled
  right : y.Spelled
  lexeme : x.lexeme = y.lexeme

namespace SameText

variable {x y : Item}

theorem token_eq (h : SameText x y) : x.token.unlined = y.token.unlined := by
  apply h.left.lexical.unlined_eq h.right.lexical
  rw [← h.left.lexeme_eq, ← h.right.lexeme_eq, h.lexeme]

/-- Both items are minus signs, or none is. -/
theorem minus_or (h : SameText x y) : (x.negates? = none ∧ y.negates? = none) ∨
    ∃ a b, x.negates? = some a ∧ y.negates? = some b := by
  have kind : x.token.kind = y.token.kind := (congrArg Token.kind h.token_eq :)
  have both : x.negates?.isSome ↔ y.negates?.isSome := by
    rw [h.left.isSome_negates?, h.right.isSome_negates?, kind]
  cases left : x.negates? <;> cases right : y.negates? <;> simp_all

/-- Items with the same text are the same up to lines, if a minus sign has the same meaning. -/
theorem unlined_eq (h : SameText x y) (negates : x.negates? = y.negates?) :
    x.map Token.unlined = y.map Token.unlined := by
  have tell (z : Item) (spelled : z.Spelled) :
      z.map Token.unlined = ofToken z.token.unlined (z.negates?.getD false) := by
    rw [← map_ofToken (f := Token.unlined) fun _ => rfl, spelled.ofToken_eq]
  rw [tell x h.left, tell y h.right, h.token_eq, negates]

end SameText

theorem arity_map (f : Token → Token) (x : Item) : (x.map f).arity = x.arity := by
  cases x <;> rfl

/-- A negation takes one operand, a subtraction two. -/
theorem arity_of_negates? {x : Item} {b : Bool} (h : x.negates? = some b) :
    x.arity + b.toNat = 2 := by
  cases x with
  | unary operator | binary operator =>
    simp only [negates?, Option.ite_none_right_eq_some, Option.some.injEq] at h
    rw [← h.2]
    rfl
  | _ => cases h

/-! ### Rows of items -/

variable {xs ys : List Item}

theorem forall₂_sameText (hxs : ∀ x ∈ xs, x.Spelled) (hys : ∀ y ∈ ys, y.Spelled)
    (same : xs.map lexeme = ys.map lexeme) : List.Forall₂ SameText xs ys := by
  induction xs generalizing ys with
  | nil =>
    rw [List.map_eq_nil_iff.1 same.symm]
    exact .nil
  | cons x xs ih =>
    cases ys with
    | nil => cases same
    | cons y ys =>
      obtain ⟨hx, hxs⟩ := List.forall_mem_cons.1 hxs
      obtain ⟨hy, hys⟩ := List.forall_mem_cons.1 hys
      obtain ⟨lexeme, others⟩ := List.cons.inj same
      exact .cons ⟨hx, hy, lexeme⟩ (ih hxs hys others)

theorem map_unlined_eq (h : List.Forall₂ SameText xs ys)
    (negates : xs.filterMap negates? = ys.filterMap negates?) :
    xs.map (map Token.unlined) = ys.map (map Token.unlined) := by
  induction h with
  | nil => rfl
  | @cons x y xs ys same _ ih =>
    rw [List.map_cons, List.map_cons]
    obtain ⟨none_x, none_y⟩ | ⟨a, b, some_x, some_y⟩ := same.minus_or
    · rw [List.filterMap_cons_none none_x, List.filterMap_cons_none none_y] at negates
      rw [same.unlined_eq (none_x.trans none_y.symm), ih negates]
    · rw [List.filterMap_cons_some some_x, List.filterMap_cons_some some_y] at negates
      obtain ⟨rfl, others⟩ := List.cons.inj negates
      rw [same.unlined_eq (some_x.trans some_y.symm), ih others]

theorem length_negates? (h : List.Forall₂ SameText xs ys) :
    (xs.filterMap negates?).length = (ys.filterMap negates?).length := by
  induction h with
  | nil => rfl
  | cons same _ ih =>
    obtain ⟨none_x, none_y⟩ | ⟨a, b, some_x, some_y⟩ := same.minus_or
    · rw [List.filterMap_cons_none none_x, List.filterMap_cons_none none_y, ih]
    · rw [List.filterMap_cons_some some_x, List.filterMap_cons_some some_y, List.length_cons, ih,
        List.length_cons]

/-- In rows with the same text, operands are made up for by negations. -/
theorem operands_add_negations (h : List.Forall₂ SameText xs ys) :
    operands xs + (xs.filterMap negates?).count true =
      operands ys + (ys.filterMap negates?).count true := by
  induction h with
  | nil => rfl
  | @cons x y xs ys same _ ih =>
    rw [operands, operands]
    obtain ⟨none_x, none_y⟩ | ⟨a, b, some_x, some_y⟩ := same.minus_or
    · have arity_eq : x.arity = y.arity := by
        rw [← arity_map Token.unlined, same.unlined_eq (none_x.trans none_y.symm), arity_map]
      rw [List.filterMap_cons_none none_x, List.filterMap_cons_none none_y]
      omega
    · have arity_x := arity_of_negates? some_x
      have arity_y := arity_of_negates? some_y
      have count (c : Bool) (bs : List Bool) :
          (c :: bs).count true = bs.count true + c.toNat := by
        cases c <;> simp
      rw [List.filterMap_cons_some some_x, List.filterMap_cons_some some_y, count, count]
      omega

end Item

/-! ### What the text of an expression shows -/

namespace Expr

variable {e f : Expr}

theorem Spelled.items (h : e.Spelled) : ∀ x ∈ e.items, x.Spelled := by
  induction e with
  | binary left operator right ihl ihr =>
    simp only [Expr.items, List.forall_mem_append, List.forall_mem_singleton]
    exact ⟨ihl h.2.1, ihr h.2.2, h.1⟩
  | unary operator right ih =>
    simp only [Expr.items, List.forall_mem_append, List.forall_mem_singleton]
    exact ⟨ih h.2, h.1⟩
  | grouping inner ih => exact ih h
  | literal | ident | foreign => exact List.forall_mem_singleton.2 h
  | assign name value ih =>
    simp only [Expr.items, List.forall_mem_cons, List.forall_mem_append]
    exact ⟨h.1, ih h.2, by simp [Item.Spelled]⟩

theorem allLegible_words {xs : List Item} (h : ∀ x ∈ xs, x.Spelled) :
    Nested.AllLegible (xs.map fun x => .word x.lexeme) := by
  induction xs with
  | nil => trivial
  | cons x xs ih =>
    obtain ⟨hx, hxs⟩ := List.forall_mem_cons.1 h
    exact ⟨hx.legible, ih hxs⟩

theorem texts_words (xs : List Item) :
    Nested.texts (xs.map fun x => .word x.lexeme) = xs.map Item.lexeme := by
  induction xs with
  | nil => rfl
  | cons x xs ih => rw [List.map_cons, List.map_cons, Nested.texts, Nested.text, ih]

/-- Expressions with the same text have items with the same texts. -/
theorem Spelled.sameText (he : e.Spelled) (hf : f.Spelled) (same : e.rpn = f.rpn) :
    List.Forall₂ Item.SameText e.items f.items := by
  have words : (e.items.map fun x => Nested.word x.lexeme) =
      f.items.map fun x => Nested.word x.lexeme := by
    refine (Nested.spaced_inj (allLegible_words he.items) (allLegible_words hf.items)
      Nested.closes_nil Nested.closes_nil ?_).1
    rw [texts_words, texts_words, e.spaced_items, f.spaced_items, same]
  apply Item.forall₂_sameText he.items hf.items
  rw [← texts_words, ← texts_words, words]

/-- **Trees are alike if their minus signs are**, and only then. -/
theorem Spelled.bare_unlined_eq_iff (he : e.Spelled) (hf : f.Spelled) (same : e.rpn = f.rpn) :
    e.bare.map Token.unlined = f.bare.map Token.unlined ↔ e.signs = f.signs := by
  rw [← bare_map, ← bare_map, bare_eq_iff]
  constructor
  · intro items
    rw [← e.signs_map Token.unlined fun _ => rfl, ← f.signs_map Token.unlined fun _ => rfl, signs,
      signs, items]
  · intro negates
    rw [items_map, items_map, Item.map_unlined_eq (he.sameText hf same) negates]

/-- As many minus signs are negations in one expression as in the other. -/
theorem Spelled.signs_perm (he : e.Spelled) (hf : f.Spelled) (same : e.rpn = f.rpn) :
    e.signs.Perm f.signs := by
  have rows := he.sameText hf same
  have length : e.signs.length = f.signs.length := Item.length_negates? rows
  have operands : Item.operands e.items + e.signs.count true =
      Item.operands f.items + f.signs.count true := Item.operands_add_negations rows
  have negations : e.signs.count true = f.signs.count true := by
    -- equally many items take equally many operands in all
    have items_e := e.length_items
    have items_f := f.length_items
    have items := rows.length_eq
    omega
  have total_e := List.count_true_add_count_false e.signs
  have total_f := List.count_true_add_count_false f.signs
  refine List.perm_iff_count.2 fun b => ?_
  cases b with
  | true => exact negations
  | false => omega

theorem eq_of_perm_of_not_mem {xs ys : List Bool} (perm : xs.Perm ys) {b : Bool} (free : b ∉ xs) :
    xs = ys := by
  have only : xs = List.replicate xs.length (!b) := by
    refine List.eq_replicate_iff.2 ⟨rfl, fun c mem => ?_⟩
    cases b <;> cases c <;> first | rfl | exact absurd mem free
  rw [only] at perm ⊢
  exact List.replicate_perm.1 perm

/-! ### Evaluation -/

theorem bare_wraps (e : Expr) : e.bare.Wraps e := by
  induction e with
  | binary left operator right ihl ihr => exact .binary operator ihl ihr
  | unary operator right ih => exact .unary operator ih
  | grouping inner ih => exact .group ih
  | literal token => exact .literal token
  | ident name => exact .ident name
  | assign name value ih => exact .assign name ih
  | foreign label => exact .foreign label

/-- At depths that suffice, parentheses change nothing. -/
theorem Wraps.evaluate_eq (h : e.Wraps f) {depth depth' : Nat} (le : e.height ≤ depth)
    (le' : f.height ≤ depth') : f.evaluate depth' = e.evaluate depth := by
  funext c
  exact (h.simulates depth depth' rfl).eq (fun _ _ => Eq.symm)
    (fun _ deep => e.evaluate_shallow le deep) (fun _ deep => f.evaluate_shallow le' deep)

/-- Expressions that are the same up to parentheses and lines evaluate alike, up to lines. -/
theorem relocating_evaluate_eq (same : e.bare.map Token.unlined = f.bare.map Token.unlined)
    {depth depth' : Nat} (le : e.height ≤ depth) (le' : f.height ≤ depth') :
    Halt.relocating (fun _ => 0) (e.evaluate depth) =
      Halt.relocating (fun _ => 0) (f.evaluate depth') := by
  let enough := max e.bare.height f.bare.height
  calc Halt.relocating (fun _ => 0) (e.evaluate depth)
    _ = Halt.relocating (fun _ => 0) (e.bare.evaluate enough) := by
      rw [e.bare_wraps.evaluate_eq (Nat.le_max_left _ _) le]
    _ = (e.bare.map Token.unlined).evaluate enough := (evaluate_relocate e.bare enough).symm
    _ = (f.bare.map Token.unlined).evaluate enough := by rw [same]
    _ = Halt.relocating (fun _ => 0) (f.bare.evaluate enough) := evaluate_relocate f.bare enough
    _ = Halt.relocating (fun _ => 0) (f.evaluate depth') := by
      rw [f.bare_wraps.evaluate_eq (Nat.le_max_right _ _) le']

/-- **What reverse Polish notation determines.** Take two expressions that are parsed from any
sources and have the same text in reverse Polish notation. Without parentheses and up to lines they
are the same tree exactly if the same minus signs are negations, and then they evaluate alike in
every chain of scopes, wherever nesting is no problem. As many minus signs are negations in both; so
if one of them has only negations or only subtractions, they are the same. -/
theorem bare_unlined_eq_of_rpn (e f : Expr) (he : e.Produced) (hf : f.Produced)
    (same : e.rpn = f.rpn) :
    (e.bare.map Token.unlined = f.bare.map Token.unlined ↔ e.signs = f.signs)
      ∧ (e.signs = f.signs → ∀ depth depth', e.height ≤ depth → f.height ≤ depth' → ∀ c,
        Halt.relocating (fun _ => 0) (e.evaluate depth) c =
          Halt.relocating (fun _ => 0) (f.evaluate depth') c)
      ∧ e.signs.Perm f.signs
      ∧ (true ∉ e.signs ∨ false ∉ e.signs → e.signs = f.signs) := by
  have trees := he.spelled.bare_unlined_eq_iff hf.spelled same
  have perm := he.spelled.signs_perm hf.spelled same
  refine ⟨trees, fun negates depth depth' le le' c => ?_, perm, fun one_way => ?_⟩
  · rw [relocating_evaluate_eq (trees.2 negates) le le']
  · rcases one_way with free | free <;> exact eq_of_perm_of_not_mem perm free

/-- Parentheses and lines are not shown: `-a * (b)` and, on other lines, `(-a) * b`. -/
theorem bare_unlined_eq_of_rpn_product :
    let minus (line : Int) : Token := ⟨.minus, "-", line, .nil⟩
    let star (line : Int) : Token := ⟨.star, "*", line, .nil⟩
    let a (line : Int) : Expr := .ident ⟨.identifier, "a", line, .nil⟩
    let b (line : Int) : Expr := .ident ⟨.identifier, "b", line, .nil⟩
    let e : Expr := .binary (.unary (minus 1) (a 1)) (star 1) (.grouping (b 1))
    let f : Expr := .binary (.grouping (.unary (minus 2) (a 2))) (star 2) (b 3)
    e.Produced ∧ f.Produced ∧ e.rpn = f.rpn ∧ e.signs = [true]
      ∧ e.bare.map Token.unlined = f.bare.map Token.unlined
      ∧ ∀ c, Halt.relocating (fun _ => 0) (e.evaluate 9) c =
        Halt.relocating (fun _ => 0) (f.evaluate 9) c := by
  intro minus star a b e f
  have he : e.Produced := ⟨9, "-a * (b);", .expression e, by decide +kernel, by decide +kernel⟩
  have hf : f.Produced :=
    ⟨9, "print c =\n(-a) *\nb;", .print (.assign ⟨.identifier, "c", 1, .nil⟩ f), by decide +kernel,
      by decide +kernel⟩
  have same : e.rpn = f.rpn := by decide +kernel
  have negates : e.signs = [true] := by decide +kernel
  have one_way : true ∉ e.signs ∨ false ∉ e.signs := .inr (by rw [negates]; decide)
  obtain ⟨trees, alike, -, agree⟩ := bare_unlined_eq_of_rpn e f he hf same
  have le : e.height ≤ 9 := by decide +kernel
  have le' : f.height ≤ 9 := by decide +kernel
  exact ⟨he, hf, same, negates, trees.2 (agree one_way), alike (agree one_way) 9 9 le le'⟩

/-- **A minus sign is not told from its text**: `-(1 - 2)` and `1 - -2` have the same text in reverse
Polish notation, and are other trees with other values. -/
theorem rpn_eq_of_negation :
    let minus : Token := ⟨.minus, "-", 1, .nil⟩
    let digit (d : Char) : Expr :=
      .literal ⟨.number, String.singleton d, 1, .num (Lexer.Piece.numberValue [d])⟩
    let e : Expr := .unary minus (.grouping (.binary (digit '1') minus (digit '2')))
    let f : Expr := .binary (digit '1') minus (.unary minus (digit '2'))
    e.Produced ∧ f.Produced ∧ e.rpn = "1 2 - -" ∧ f.rpn = "1 2 - -"
      ∧ e.bare.map Token.unlined ≠ f.bare.map Token.unlined
      ∧ (e.evaluate 9).run' .global = some (.num (Lexer.Piece.numberValue ['1']))
      ∧ (f.evaluate 9).run' .global = some (.num (Lexer.Piece.numberValue ['3'])) := by
  intro minus digit e f
  have he : e.Produced := ⟨9, "-(1 - 2);", .expression e, by decide +kernel, by decide +kernel⟩
  have hf : f.Produced := ⟨9, "1 - -2;", .expression f, by decide +kernel, by decide +kernel⟩
  have trees : e.bare.map Token.unlined ≠ f.bare.map Token.unlined := by decide +kernel
  exact ⟨he, hf, by decide +kernel, by decide +kernel, trees, by decide +kernel, by decide +kernel⟩

end Expr

end Lox
