import Lox.Tree
import Lox.Diagnostic

/-!
# Parsers that recover

A parser reads a list of tokens, the end token left off. It may complain and go on, so its reply
holds the complaints made so far beside the outcome: a value with the tokens left, a failure at a
position, or the news that the program nests too deep.

Loops over parsers end because every round shortens what is left. `Consumes` states this for a
parser and a `Rule` is a parser that has the property; `Consumes` and the weaker `Advances`
compose under `bind`.
-/

namespace Lox.Parser

/-- What is missing or wrong. -/
inductive Cause where
  | variableName
  | semicolonAfterVariable | semicolonAfterValue | semicolonAfterExpression
  | braceAfterBlock
  | parenAfterIf | parenAfterIfCondition
  | parenAfterWhile | parenAfterLoopCondition
  | expression | parenAfterExpression
  | assignmentTarget
  deriving DecidableEq

/-- The message for a cause. -/
def Cause.message : Cause → String
  | variableName => "Expect variable name."
  | semicolonAfterVariable => "Expect ';' after variable declaration."
  | semicolonAfterValue => "Expect ';' after value."
  | semicolonAfterExpression => "Expect ';' after expression."
  | braceAfterBlock => "Expect '\x7d' after block."
  | parenAfterIf => "Expect '(' after 'if'."
  | parenAfterIfCondition => "Expect ')' after if condition."
  | parenAfterWhile => "Expect '(' after 'while'."
  | parenAfterLoopCondition => "Expect ')' after condition."
  | expression => "Expect expression."
  | parenAfterExpression => "Expect ')' after expression."
  | assignmentTarget => "Invalid assignment target."

/-- A complaint about a token, or about the end of the program if there is none. -/
structure Complaint where
  cause : Cause
  blamed : Option Token
  deriving DecidableEq

/-- A complaint as it is reported, given the end token. -/
def Complaint.diagnostic (eof : Token) (c : Complaint) : Diagnostic :=
  Diagnostic.atToken .grammatical (c.blamed.getD eof) c.cause.message

/-- How a parser ended, with the tokens left. -/
inductive Outcome (α : Type) where
  | done (value : α) (rest : List Token)
  | failed (cause : Cause) (rest : List Token)
  | tooDeep (rest : List Token)
  deriving DecidableEq

/-- The complaints made and the outcome. -/
structure Reply (α : Type) where
  complaints : List Complaint
  outcome : Outcome α
  deriving DecidableEq

namespace Reply

variable {α β : Type}

/-- A value without complaint. -/
def done (value : α) (rest : List Token) : Reply α := ⟨[], .done value rest⟩

/-- A failure at the first token of `rest`. -/
def failed (cause : Cause) (rest : List Token) : Reply α := ⟨[], .failed cause rest⟩

/-- The reply with earlier complaints in front. -/
def after (earlier : List Complaint) (r : Reply α) : Reply α :=
  ⟨earlier ++ r.complaints, r.outcome⟩

/-- Goes on with the value and the tokens left, if there is a value. -/
def bind (r : Reply α) (next : α → List Token → Reply β) : Reply β :=
  match r with
  | ⟨complaints, .done value rest⟩ => (next value rest).after complaints
  | ⟨complaints, .failed cause rest⟩ => ⟨complaints, .failed cause rest⟩
  | ⟨complaints, .tooDeep rest⟩ => ⟨complaints, .tooDeep rest⟩

@[simp] theorem after_complaints (cs : List Complaint) (r : Reply α) :
    (r.after cs).complaints = cs ++ r.complaints := rfl

@[simp] theorem after_outcome (cs : List Complaint) (r : Reply α) :
    (r.after cs).outcome = r.outcome := rfl

@[simp] theorem after_nil (r : Reply α) : r.after [] = r := rfl

theorem after_after (cs ds : List Complaint) (r : Reply α) :
    (r.after ds).after cs = r.after (cs ++ ds) := by
  simp [after]

@[simp] theorem bind_done (value : α) (rest : List Token) (next : α → List Token → Reply β) :
    (done value rest).bind next = next value rest := rfl

@[simp] theorem bind_failed (cause : Cause) (rest : List Token) (next : α → List Token → Reply β) :
    (failed cause rest).bind next = failed cause rest := rfl

end Reply

end Parser

open Lox.Parser in
/-- A parser over the tokens before the end token. -/
def Parser (α : Type) : Type := List Token → Reply α

namespace Parser

variable {α β : Type}

instance : Monad Parser where
  pure value := fun ts => .done value ts
  bind p next := fun ts => (p ts).bind next

@[simp] theorem pure_apply (value : α) (ts : List Token) :
    (pure value : Parser α) ts = .done value ts := rfl

@[simp] theorem bind_apply (p : Parser α) (next : α → Parser β) (ts : List Token) :
    (p >>= next) ts = (p ts).bind next := rfl

/-- Complains without reading a token. -/
def complain (c : Complaint) : Parser Unit := fun ts => ⟨[c], .done () ts⟩

/-- Reads a token of this kind. -/
def expect (kind : Kind) (cause : Cause) : Parser Token
  | [] => .failed cause []
  | t :: ts => if t.kind = kind then .done t ts else .failed cause (t :: ts)

/-! ### Progress -/

/-- At most `value` tokens are left after a value, and at most `failure` after a failure. -/
def Outcome.Within (value failure : Nat) : Outcome α → Prop
  | .done _ rest => rest.length ≤ value
  | .failed _ rest => rest.length ≤ failure
  | .tooDeep _ => True

theorem Outcome.Within.mono {o : Outcome α} {v w f g : Nat} (h : o.Within v f) (hv : v ≤ w)
    (hf : f ≤ g) : o.Within w g := by
  cases o with
  | done value rest => exact Nat.le_trans h hv
  | failed cause rest => exact Nat.le_trans h hf
  | tooDeep rest => trivial

/-- The parser never adds tokens. -/
def Advances (p : Parser α) : Prop := ∀ ts, (p ts).outcome.Within ts.length ts.length

/-- The parser never adds tokens, and reads at least one for a value, unless there is none. -/
def Consumes (p : Parser α) : Prop := ∀ ts, (p ts).outcome.Within (ts.length - 1) ts.length

theorem Consumes.advances {p : Parser α} (h : p.Consumes) : p.Advances :=
  fun ts => (h ts).mono (Nat.sub_le _ _) (Nat.le_refl _)

theorem Outcome.Within.bind {r : Reply α} {next : α → List Token → Reply β} {v w f : Nat}
    (h : r.outcome.Within v f)
    (hnext : ∀ value rest, rest.length ≤ v → (next value rest).outcome.Within w f) :
    (r.bind next).outcome.Within w f := by
  obtain ⟨complaints, outcome⟩ := r
  cases outcome with
  | done value rest => exact hnext value rest h
  | failed cause rest => exact h
  | tooDeep rest => trivial

theorem Advances.bind {p : Parser α} {next : α → Parser β} (hp : p.Advances)
    (hnext : ∀ value, (next value).Advances) : (p >>= next).Advances :=
  fun ts => (hp ts).bind fun value rest h => (hnext value rest).mono h h

theorem Consumes.bind {p : Parser α} {next : α → Parser β} (hp : p.Consumes)
    (hnext : ∀ value, (next value).Advances) : (p >>= next).Consumes :=
  fun ts => (hp ts).bind fun value rest h =>
    (hnext value rest).mono h (Nat.le_trans h (Nat.sub_le _ _))

theorem advances_pure (value : α) : (pure value : Parser α).Advances :=
  fun _ => Nat.le_refl _

theorem advances_complain (c : Complaint) : (complain c).Advances :=
  fun _ => Nat.le_refl _

theorem consumes_expect (kind : Kind) (cause : Cause) : (expect kind cause).Consumes := by
  intro ts
  cases ts with
  | nil => exact Nat.le_refl _
  | cons t ts =>
    simp only [expect]
    split <;> simp [Reply.done, Reply.failed, Outcome.Within]

/-- A parser that goes on with `p` after its first token consumes. -/
theorem within_of_tail {p : Parser α} (hp : p.Advances) (t : Token) (ts : List Token) :
    (p ts).outcome.Within ((t :: ts).length - 1) (t :: ts).length :=
  (hp ts).mono (Nat.le_refl _) (Nat.le_succ _)

/-- A parser that consumes. -/
structure Rule (α : Type) where
  parse : Parser α
  consumes : parse.Consumes

/-- The rule that says that the program nests too deep. -/
def Rule.tooDeep : Rule α := ⟨fun ts => ⟨[], .tooDeep ts⟩, fun _ => trivial⟩

/-- What is left after a rule's value, in terms of the reply. -/
theorem Rule.length_rest_le (r : Rule α) {ts rest : List Token} {complaints : List Complaint}
    {value : α} (h : r.parse ts = ⟨complaints, .done value rest⟩) :
    rest.length ≤ ts.length - 1 := by
  have within := r.consumes ts
  rw [h] at within
  exact within

end Parser

end Lox
