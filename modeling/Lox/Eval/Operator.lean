import Lox.Eval.Failure

/-!
# Literals and operators

The value of a literal token and the meaning of the operators on values. Types are checked here,
after all operands have been evaluated. Arithmetic is that of binary64: dividing by zero gives an
infinity or not-a-number.
-/

namespace Lox.Operator

/-- The quotient of two numbers. -/
def divide (x y : Float) : Float := x / y

/-- The value of a literal. -/
def literal (token : Token) : Except Failure Value :=
  match token.kind with
  | .number | .string => .ok token.literal
  | .kwTrue => .ok (.bool true)
  | .kwFalse => .ok (.bool false)
  | .kwNil => .ok .nil
  | _ => .error (.notLiteral token)

/-- An operator before its operand. -/
def unary (operator : Token) (v : Value) : Except Failure Value :=
  match operator.kind with
  | .minus => match v with
    | .num x => .ok (.num (-x))
    | _ => .error (.operandNotNumber operator)
  | .bang => .ok (.bool (!v.isTruthy))
  | _ => .error (.notUnary operator)

/-- Applies a function to two numbers. -/
def onNumbers (operator : Token) (f : Float → Float → Value) (v w : Value) : Except Failure Value :=
  match v, w with
  | .num x, .num y => .ok (f x y)
  | _, _ => .error (.operandsNotNumbers operator)

/-- An operator between its operands. -/
def binary (operator : Token) (v w : Value) : Except Failure Value :=
  match operator.kind with
  | .plus => match v, w with
    | .num x, .num y => .ok (.num (x + y))
    | .str s, .str t => .ok (.str (s ++ t))
    | _, _ => .error (.operandsMismatch operator)
  | .minus => onNumbers operator (fun x y => .num (x - y)) v w
  | .star => onNumbers operator (fun x y => .num (x * y)) v w
  | .slash => onNumbers operator (fun x y => .num (divide x y)) v w
  | .greater => onNumbers operator (fun x y => .bool (x > y)) v w
  | .greaterEqual => onNumbers operator (fun x y => .bool (x ≥ y)) v w
  | .less => onNumbers operator (fun x y => .bool (x < y)) v w
  | .lessEqual => onNumbers operator (fun x y => .bool (x ≤ y)) v w
  | .equalEqual => .ok (.bool (v.equals w))
  | .bangEqual => .ok (.bool (!v.equals w))
  | _ => .error (.notBinary operator)

end Lox.Operator
