import Lox.Diagnostic

/-!
# How evaluation fails

A failure has a cause that the program is to blame for, or it shows a tree that no parser builds.
Evaluation also halts when it nests too deep or when the fuel for a loop is used up; that last
halt is no answer of the program, it says that the answer is not known yet.
-/

namespace Lox

/-- Why an expression or statement has no value. -/
inductive Failure where
  | operandNotNumber (operator : Token)
  | operandsNotNumbers (operator : Token)
  | operandsMismatch (operator : Token)
  | undefined (name : String) (line : Option Int)
  | notLiteral (token : Token)
  | notUnary (operator : Token)
  | notBinary (operator : Token)
  | foreignExpression (label : String)
  | foreignStatement (label : String)
  deriving DecidableEq

namespace Failure

/-- A failure as it is reported. Those that show a tree that no parser builds have no line. -/
def diagnostic : Failure → Diagnostic
  | operandNotNumber op => .atToken .runtime op "Operand must be a number."
  | operandsNotNumbers op => .atToken .runtime op "Operands must be numbers."
  | operandsMismatch op => .atToken .runtime op "Operands must be two numbers or two strings."
  | undefined name line =>
    ⟨.runtime, "Undefined variable '" ++ name ++ "'.", line, Diagnostic.placeOf name, some name⟩
  | notLiteral token => { message := "'" ++ token.lexeme ++ "' is not a literal" }
  | notUnary op => { message := "'" ++ op.lexeme ++ "' is not a unary operator" }
  | notBinary op => { message := "'" ++ op.lexeme ++ "' is not a binary operator" }
  | foreignExpression label => { message := "unknown expression '" ++ label ++ "'" }
  | foreignStatement label => { message := "unknown statement '" ++ label ++ "'" }

end Failure

/-- Why evaluation stops early. -/
inductive Halt where
  | failure (cause : Failure)
  | tooDeep
  | outOfFuel
  deriving DecidableEq

end Lox
