import Lox.Proofs.Grammar.Map
import Lox.Proofs.Grammar.Nested

/-!
# Reading reverse Polish notation

Reverse Polish notation writes an expression as a row of items: operands, and operators behind their
operands. If it is known of each item how many operands it has, the row can be read back by building
trees on a stack, and gives the expression without its parentheses (`Expr.foldl_build`).

The text shows this of each item but the minus sign, which stands for negation and for subtraction
alike. `Expr.signs` keeps what the text does not show.
-/

namespace Lox

/-! ### Items -/

/-- An item of reverse Polish notation: an operand, or an operator for the operands before it. -/
inductive Item where
  | literal (token : Token)
  | ident (name : Token)
  | unary (operator : Token)
  | binary (operator : Token)
  | assign
  | foreign (label : String)

namespace Item

/-- The text of the item. -/
def lexeme : Item → String
  | literal token | ident token | unary token | binary token => token.lexeme
  | assign => "="
  | foreign _ => "?"

/-- The number of operands. -/
def arity : Item → Nat
  | literal _ | ident _ | foreign _ => 0
  | unary _ => 1
  | binary _ | assign => 2

/-- Whether a minus sign is a negation. Other items are no minus sign. -/
def negates? : Item → Option Bool
  | unary operator => if operator.kind = .minus then some true else none
  | binary operator => if operator.kind = .minus then some false else none
  | _ => none

/-- The item with another token in the place of its own. -/
def map (f : Token → Token) : Item → Item
  | literal token => literal (f token)
  | ident name => ident (f name)
  | unary operator => unary (f operator)
  | binary operator => binary (f operator)
  | assign => assign
  | foreign label => foreign label

theorem negates?_map {f : Token → Token} (hf : ∀ t, (f t).kind = t.kind) (x : Item) :
    (x.map f).negates? = x.negates? := by
  cases x <;> simp [map, negates?, hf]

/-- The number of operands of all the items. -/
def operands : List Item → Nat
  | [] => 0
  | x :: xs => x.arity + operands xs

theorem operands_append (xs ys : List Item) :
    operands (xs ++ ys) = operands xs + operands ys := by
  induction xs with
  | nil => simp [operands]
  | cons x xs ih => simp [operands, ih, Nat.add_assoc]

/-- Puts the item on a stack of trees: an operator takes its operands from there. -/
def build : List Expr → Item → List Expr
  | stack, literal token => .literal token :: stack
  | stack, ident name => .ident name :: stack
  | right :: stack, unary operator => .unary operator right :: stack
  | right :: left :: stack, binary operator => .binary left operator right :: stack
  | value :: .ident name :: stack, assign => .assign name value :: stack
  | stack, foreign label => .foreign label :: stack
  | stack, _ => stack

end Item

/-! ### Expressions as items -/

namespace Expr

/-- The items of the expression. -/
def items : Expr → List Item
  | binary left operator right => left.items ++ (right.items ++ [.binary operator])
  | unary operator right => right.items ++ [.unary operator]
  | grouping inner => inner.items
  | literal token => [.literal token]
  | ident name => [.ident name]
  | assign name value => .ident name :: (value.items ++ [.assign])
  | foreign label => [.foreign label]

/-- The expression without its parentheses. -/
def bare : Expr → Expr
  | binary left operator right => binary left.bare operator right.bare
  | unary operator right => unary operator right.bare
  | grouping inner => inner.bare
  | literal token => literal token
  | ident name => ident name
  | assign name value => assign name value.bare
  | foreign label => foreign label

/-- Of each minus sign, in the order of reverse Polish notation, whether it is a negation. -/
def signs (e : Expr) : List Bool := e.items.filterMap Item.negates?

open Nested in
/-- The text shows the items, with blanks between them. -/
theorem spaced_items (e : Expr) : spaced (e.items.map Item.lexeme) = ' ' :: e.rpn.toList := by
  induction e with
  | binary left operator right ihl ihr =>
    simp_all [items, rpn, spaced, Item.lexeme]
  | unary operator right ih => simp_all [items, rpn, spaced, Item.lexeme]
  | grouping inner ih => exact ih
  | literal | ident | foreign => simp [items, rpn, spaced, Item.lexeme]
  | assign name value ih => simp_all [items, rpn, spaced, Item.lexeme]

/-- **Items are read back** to the expression without its parentheses. -/
theorem foldl_build (e : Expr) (stack : List Expr) :
    e.items.foldl Item.build stack = e.bare :: stack := by
  induction e generalizing stack with
  | binary left operator right ihl ihr =>
    rw [items, List.foldl_append, ihl, List.foldl_append, ihr]
    rfl
  | unary operator right ih =>
    rw [items, List.foldl_append, ih]
    rfl
  | grouping inner ih => exact ih stack
  | literal | ident | foreign => rfl
  | assign name value ih =>
    rw [items, List.foldl_cons, List.foldl_append, ih]
    rfl

theorem items_bare (e : Expr) : e.bare.items = e.items := by
  induction e with
  | binary left operator right ihl ihr => simp only [bare, items, ihl, ihr]
  | unary operator right ih => simp only [bare, items, ih]
  | grouping inner ih => exact ih
  | literal | ident | foreign => rfl
  | assign name value ih => simp only [bare, items, ih]

/-- **Items determine the expression up to parentheses.** -/
theorem bare_eq_iff {e f : Expr} : e.bare = f.bare ↔ e.items = f.items := by
  constructor
  · intro same
    rw [← e.items_bare, ← f.items_bare, same]
  · intro same
    have built : e.bare :: [] = f.bare :: [] := by rw [← e.foldl_build, ← f.foldl_build, same]
    exact (List.cons.inj built).1

/-- A tree has one item more than its items have operands. -/
theorem length_items (e : Expr) : e.items.length = Item.operands e.items + 1 := by
  induction e with
  | binary left operator right ihl ihr =>
    simp only [items, List.length_append, List.length_singleton, Item.operands_append,
      Item.operands, Item.arity]
    omega
  | unary operator right ih =>
    simp only [items, List.length_append, List.length_singleton, Item.operands_append,
      Item.operands, Item.arity]
    omega
  | grouping inner ih => exact ih
  | literal | ident | foreign => rfl
  | assign name value ih =>
    simp only [items, List.length_cons, List.length_append, List.length_nil, Item.operands_append,
      Item.operands, Item.arity]
    omega

section Map

variable (f : Token → Token) (e : Expr)

theorem items_map : (e.map f).items = e.items.map (Item.map f) := by
  induction e with
  | binary left operator right ihl ihr =>
    simp only [Expr.map, items, ihl, ihr, List.map_append, List.map_cons, List.map_nil, Item.map]
  | unary operator right ih =>
    simp only [Expr.map, items, ih, List.map_append, List.map_cons, List.map_nil, Item.map]
  | grouping inner ih => exact ih
  | literal | ident | foreign => rfl
  | assign name value ih =>
    simp only [Expr.map, items, ih, List.map_append, List.map_cons, List.map_nil, Item.map]

theorem bare_map : (e.map f).bare = e.bare.map f := by
  induction e with
  | binary left operator right ihl ihr => simp only [Expr.map, bare, ihl, ihr]
  | unary operator right ih => simp only [Expr.map, bare, ih]
  | grouping inner ih => exact ih
  | literal | ident | foreign => rfl
  | assign name value ih => simp only [Expr.map, bare, ih]

theorem signs_map (hf : ∀ t, (f t).kind = t.kind) : (e.map f).signs = e.signs := by
  rw [signs, items_map, List.filterMap_map]
  exact List.filterMap_congr fun x _ => x.negates?_map hf

end Map

end Expr

end Lox
