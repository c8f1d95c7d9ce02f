import Lox.Number.Text

/-!
# Runtime values

A Lox value is nil, a Boolean, a number or a string. Equality never fails and never crosses types;
only nil and false count as false; every value has a text, which is what `print` writes.
-/

namespace Lox

/-- A Lox value. -/
inductive Value where
  | nil
  | bool (b : Bool)
  | num (x : Float)
  | str (s : String)
  deriving DecidableEq, Inhabited

namespace Value

/-- Nil and false are falsy, all else is truthy, also zero and the empty string. -/
def isTruthy : Value → Bool
  | nil => false
  | bool b => b
  | _ => true

/-- Whether the value is a number. -/
def isNumber : Value → Bool
  | num _ => true
  | _ => false

/-- Equality as Lox programs see it: values of different types are unequal, numbers compare as
floating-point numbers do, so not-a-number differs from itself. -/
def equals : Value → Value → Bool
  | nil, nil => true
  | bool a, bool b => a == b
  | num x, num y => x == y
  | str s, str t => s == t
  | _, _ => false

/-- The text of a value: a whole number has no fraction, a string stands for itself. -/
def text : Value → String
  | nil => "nil"
  | bool b => if b then "true" else "false"
  | num x => Number.text Number.plain x
  | str s => s

/-- The text of a literal in a token listing, where whole numbers keep a fraction digit. -/
def literalText : Value → String
  | num x => Number.text Number.full x
  | v => v.text

@[simp] theorem isTruthy_nil : isTruthy nil = false := rfl
@[simp] theorem isTruthy_bool (b : Bool) : isTruthy (bool b) = b := rfl
@[simp] theorem isTruthy_num (x : Float) : isTruthy (num x) = true := rfl
@[simp] theorem isTruthy_str (s : String) : isTruthy (str s) = true := rfl

/-- Only numbers are numbers. -/
theorem isNumber_iff {v : Value} : v.isNumber = true ↔ ∃ x, v = num x := by
  cases v <;> simp [isNumber]

end Value

end Lox
