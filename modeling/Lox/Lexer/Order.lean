import Lox.Lexer

/-!
# Character classes by the order of texts

The order of texts, which compares code points from the left, tells whether a text lies between two
one-character texts. On one-character texts these are the lexer's classes (`isDigit_singleton`,
`isAlpha_singleton`); the tests also answer on longer texts and on the empty one.
-/

namespace Lox.Lexer.Order

/-- Whether a text lies between two others, ends included. -/
def between (low high s : String) : Bool := low ≤ s && s ≤ high

/-- Whether a text lies between the digits. -/
def isDigit (s : String) : Bool := between "0" "9" s

/-- Whether a text lies between the small or between the capital letters, or is an underscore. -/
def isAlpha (s : String) : Bool := between "a" "z" s || between "A" "Z" s || s == "_"

/-- Whether a text is one of either class. -/
def isAlphanumeric (s : String) : Bool := isAlpha s || isDigit s

/-- One-character texts are ordered as their characters. -/
theorem singleton_le_singleton (a b : Char) :
    String.singleton a ≤ String.singleton b ↔ a ≤ b := by
  show ¬ String.singleton b < String.singleton a ↔ a ≤ b
  rw [String.lt_iff]
  simp [List.cons_lt_cons_iff]

theorem between_singleton (low high c : Char) :
    between (String.singleton low) (String.singleton high) (String.singleton c)
      = (low ≤ c && c ≤ high) := by
  simp only [between, singleton_le_singleton]

/-- On one-character texts the order tells the lexer's digits. -/
theorem isDigit_singleton (c : Char) : isDigit (String.singleton c) = Lexer.isDigit c :=
  between_singleton '0' '9' c

/-- On one-character texts the order tells the lexer's letters. -/
theorem isAlpha_singleton (c : Char) : isAlpha (String.singleton c) = Lexer.isAlpha c := by
  have small := between_singleton 'a' 'z' c
  have capital := between_singleton 'A' 'Z' c
  have underscore : (String.singleton c == "_") = (c == '_') := by
    rw [Bool.eq_iff_iff, beq_iff_eq, beq_iff_eq]
    exact ⟨fun h => by simpa using congrArg String.toList h, fun h => h ▸ rfl⟩
  exact congr (congrArg or (congr (congrArg or small) capital)) underscore

end Lox.Lexer.Order
