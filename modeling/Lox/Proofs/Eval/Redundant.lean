import Lox.Proofs.Eval.Height
import Lox.Proofs.Eval.Padding
import Lox.Proofs.Parser.Produced

/-!
# Redundant parentheses and braces

Parentheses around an expression and braces around a statement that is no declaration change nothing
but how deep the program nests. A pair of parentheses hands on what is within; a block of one such
statement is the statement (`Machine.inBlock_execute`). As execution is put together from that of
the parts, this holds for any number of them at any depth (`Stmt.executeAll_wraps`).
-/

namespace Lox

/-! ### Adding parentheses and braces -/

/-- The second expression is the first with parentheses added around some of its parts. -/
inductive Expr.Wraps : Expr → Expr → Prop
  | binary {left left' right right' : Expr} (operator : Token) (hleft : Wraps left left')
      (hright : Wraps right right') : Wraps (.binary left operator right) (.binary left' operator right')
  | unary {right right' : Expr} (operator : Token) (h : Wraps right right') :
    Wraps (.unary operator right) (.unary operator right')
  | grouping {inner inner' : Expr} (h : Wraps inner inner') :
    Wraps (.grouping inner) (.grouping inner')
  | literal (token : Token) : Wraps (.literal token) (.literal token)
  | ident (name : Token) : Wraps (.ident name) (.ident name)
  | assign {value value' : Expr} (name : Token) (h : Wraps value value') :
    Wraps (.assign name value) (.assign name value')
  | foreign (label : String) : Wraps (.foreign label) (.foreign label)
  /-- One more pair of parentheses. -/
  | group {e e' : Expr} (h : Wraps e e') : Wraps e (.grouping e')

mutual

/-- The second statement is the first with parentheses added around some of its expressions, and
braces around some of its statements that are no declarations. -/
inductive Stmt.Wraps : Stmt → Stmt → Prop
  | expression {e e' : Expr} (h : e.Wraps e') : Wraps (.expression e) (.expression e')
  | print {e e' : Expr} (h : e.Wraps e') : Wraps (.print e) (.print e')
  | declare (name : Token) : Wraps (.var name none) (.var name none)
  | define {e e' : Expr} (name : Token) (h : e.Wraps e') :
    Wraps (.var name (some e)) (.var name (some e'))
  | block {body body' : List Stmt} (h : WrapsAll body body') : Wraps (.block body) (.block body')
  | ifThen {c c' : Expr} {yes yes' : Stmt} (hc : c.Wraps c') (hyes : Wraps yes yes') :
    Wraps (.ifThen c yes) (.ifThen c' yes')
  | ifElse {c c' : Expr} {yes yes' no no' : Stmt} (hc : c.Wraps c') (hyes : Wraps yes yes')
      (hno : Wraps no no') : Wraps (.ifElse c yes no) (.ifElse c' yes' no')
  | loop {c c' : Expr} {body body' : Stmt} (hc : c.Wraps c') (hbody : Wraps body body') :
    Wraps (.loop c body) (.loop c' body')
  | foreign (label : String) : Wraps (.foreign label) (.foreign label)
  /-- One more pair of braces. -/
  | brace {s s' : Stmt} (notVar : s.isVar = false) (h : Wraps s s') : Wraps s (.block [s'])

/-- Statement by statement, parentheses and braces are added. -/
inductive Stmt.WrapsAll : List Stmt → List Stmt → Prop
  | nil : WrapsAll [] []
  | cons {s s' : Stmt} {ss ss' : List Stmt} (h : Wraps s s') (hs : WrapsAll ss ss') :
    WrapsAll (s :: ss) (s' :: ss')

end

/-! ### Expressions -/

/-- The halt that programs of different depth are excused. -/
def Halt.isTooDeep (halt : Halt) : Prop := halt = .tooDeep

theorem Simulates.refl {σ α : Type} (excused : Halt → Prop) (action : EStateM Halt σ α) :
    Simulates excused Eq action action := by
  rintro s _ rfl
  cases action s with
  | ok a t => exact .ok a rfl
  | error halt t => exact .error halt rfl

theorem Expr.evaluate_zero (e : Expr) : e.evaluate 0 = throw .tooDeep := by rw [evaluate]

theorem Stmt.execute_zero (rounds : Nat) (s : Stmt) : s.execute rounds 0 = throw .tooDeep := by
  rw [Stmt.execute]

/-- At depth 0 there is nothing to compare. -/
theorem Expr.simulates_of_succ {e e' : Expr} (h : ∀ depth depth',
      Simulates Halt.isTooDeep Eq (e.evaluate (depth + 1)) (e'.evaluate (depth' + 1))) :
    ∀ depth depth', Simulates Halt.isTooDeep Eq (e.evaluate depth) (e'.evaluate depth')
  | 0, _ => by
    rw [e.evaluate_zero]
    exact .excuse_left rfl
  | _ + 1, 0 => by
    rw [e'.evaluate_zero]
    exact .excuse_right rfl
  | depth + 1, depth' + 1 => h depth depth'

/-- **Parentheses change nothing**, but for depth. -/
theorem Expr.Wraps.simulates {e e' : Expr} (h : e.Wraps e') : ∀ depth depth' : Nat,
    Simulates Halt.isTooDeep Eq (e.evaluate depth) (e'.evaluate depth') := by
  induction h with
  | binary operator _ _ ihleft ihright =>
    refine simulates_of_succ fun depth depth' => ?_
    rw [evaluate, evaluate]
    exact (ihleft depth depth').bind fun v => (ihright depth depth').bind fun w => .ofExcept _
  | unary operator _ ih =>
    refine simulates_of_succ fun depth depth' => ?_
    rw [evaluate, evaluate]
    exact (ih depth depth').bind fun v => .ofExcept _
  | grouping _ ih => exact simulates_of_succ ih
  | literal token => exact simulates_of_succ fun _ _ => .ofExcept _
  | ident name => exact simulates_of_succ fun _ _ => .refl _ _
  | assign name _ ih =>
    refine simulates_of_succ fun depth depth' => ?_
    rw [evaluate, evaluate]
    exact (ih depth depth').bind fun v => .refl _ _
  | foreign label => exact simulates_of_succ fun _ _ => .throw _
  | @group e e' _ ih =>
    intro depth depth'
    cases depth' with
    | zero => exact .excuse_right rfl
    | succ depth' => exact ih depth depth'

/-! ### Statements -/

theorem Stmt.executeAll_singleton (rounds : Nat) (s : Stmt) (depth : Nat) :
    executeAll rounds [s] depth = s.execute rounds depth := by
  rw [executeAll, executeAll]
  exact bind_pure_unit

theorem Stmt.simulates_of_succ {rounds : Nat} {s s' : Stmt} (h : ∀ depth depth',
      Simulates Halt.isTooDeep (Machine.Over Eq) (s.execute rounds (depth + 1))
        (s'.execute rounds (depth' + 1))) :
    ∀ depth depth', Simulates Halt.isTooDeep (Machine.Over Eq) (s.execute rounds depth)
      (s'.execute rounds depth')
  | 0, _ => by
    rw [execute_zero]
    exact .excuse_left rfl
  | _ + 1, 0 => by
    rw [execute_zero]
    exact .excuse_right rfl
  | depth + 1, depth' + 1 => h depth depth'

mutual

/-- **Parentheses and braces change nothing**, but for depth. -/
theorem Stmt.Wraps.simulates (rounds : Nat) : ∀ {s s' : Stmt}, s.Wraps s' → s.WellFormed →
    ∀ depth depth', Simulates Halt.isTooDeep (Machine.Over Eq) (s.execute rounds depth)
      (s'.execute rounds depth')
  | _, _, .expression h, _ => Stmt.simulates_of_succ fun depth depth' => by
    rw [Stmt.execute, Stmt.execute]
    exact (Machine.evaluate_simulates (h.simulates depth depth')).bind fun _ => .pure _
  | _, _, .print h, _ => Stmt.simulates_of_succ fun depth depth' => by
    rw [Stmt.execute, Stmt.execute]
    exact (Machine.evaluate_simulates (h.simulates depth depth')).bind fun v =>
      Machine.print_simulates _
  | _, _, .declare name, _ => Stmt.simulates_of_succ fun depth depth' => by
    rw [Stmt.execute, Stmt.execute]
    exact Machine.define_simulates fun _ _ same => congrArg (Chain.define · _ _) same
  | _, _, .define name h, _ => Stmt.simulates_of_succ fun depth depth' => by
    rw [Stmt.execute, Stmt.execute]
    exact (Machine.evaluate_simulates (h.simulates depth depth')).bind fun v =>
      Machine.define_simulates fun _ _ same => congrArg (Chain.define · _ _) same
  | _, _, .block h, hbody => Stmt.simulates_of_succ fun depth depth' => by
    rw [Stmt.execute, Stmt.execute]
    exact Machine.inBlock_simulates (fun _ _ => congrArg Chain.push) (fun _ _ => congrArg Chain.pop)
      (Stmt.WrapsAll.simulates rounds h hbody depth depth')
  | _, _, .ifThen hc hyes, ⟨_, _, wellFormed⟩ => Stmt.simulates_of_succ fun depth depth' => by
    rw [Stmt.execute, Stmt.execute]
    refine (Machine.evaluate_simulates (hc.simulates depth depth')).bind fun v => ?_
    split
    · exact Stmt.Wraps.simulates rounds hyes wellFormed depth depth'
    · exact .pure _
  | _, _, .ifElse hc hyes hno, ⟨_, ⟨_, _, wellFormed⟩, _, wellFormed'⟩ =>
    Stmt.simulates_of_succ fun depth depth' => by
      rw [Stmt.execute, Stmt.execute]
      refine (Machine.evaluate_simulates (hc.simulates depth depth')).bind fun v => ?_
      split
      · exact Stmt.Wraps.simulates rounds hyes wellFormed depth depth'
      · exact Stmt.Wraps.simulates rounds hno wellFormed' depth depth'
  | _, _, .loop hc hbody, ⟨_, _, wellFormed⟩ => Stmt.simulates_of_succ fun depth depth' => by
    rw [Stmt.execute, Stmt.execute]
    exact Machine.iterate_simulates
      ((Machine.evaluate_simulates (hc.simulates depth depth')).map _)
      (Stmt.Wraps.simulates rounds hbody wellFormed depth depth') rounds
  | _, _, .foreign _, h => h.elim
  | s, _, .brace notVar h, wellFormed => by
    intro depth depth'
    cases depth' with
    | zero => exact .excuse_right rfl
    | succ depth' =>
      -- the statement without braces is a block of itself
      rw [← Machine.inBlock_execute wellFormed notVar, Stmt.execute, Stmt.executeAll_singleton]
      exact Machine.inBlock_simulates (fun _ _ => congrArg Chain.push)
        (fun _ _ => congrArg Chain.pop) (Stmt.Wraps.simulates rounds h wellFormed depth depth')

theorem Stmt.WrapsAll.simulates (rounds : Nat) : ∀ {ss ss' : List Stmt}, Stmt.WrapsAll ss ss' →
    Stmt.AllWellFormed ss → ∀ depth depth', Simulates Halt.isTooDeep (Machine.Over Eq)
      (Stmt.executeAll rounds ss depth) (Stmt.executeAll rounds ss' depth')
  | _, _, .nil, _, _, _ => by
    rw [Stmt.executeAll, Stmt.executeAll]
    exact .pure _
  | _, _, .cons h hs, ⟨wellFormed, others⟩, depth, depth' => by
    rw [Stmt.executeAll, Stmt.executeAll]
    exact (Stmt.Wraps.simulates rounds h wellFormed depth depth').bind fun _ =>
      Stmt.WrapsAll.simulates rounds hs others depth depth'

end

/-! ### Programs -/

theorem Machine.Over.eq {m m' : Machine} (h : Over Eq m m') : m' = m := by
  obtain ⟨chain, output⟩ := m
  obtain ⟨rfl, rfl⟩ := h
  rfl

/-- Runs that end alike in the same state, neither too deep, are the same. -/
theorem Alike.eq {σ α : Type} {R : σ → σ → Prop} {r r' : EStateM.Result Halt σ α}
    (h : Alike Halt.isTooDeep R r r') (same : ∀ ⦃s t⦄, R s t → t = s)
    (within : ∀ t, r ≠ .error .tooDeep t) (within' : ∀ t, r' ≠ .error .tooDeep t) : r' = r := by
  cases h with
  | ok a related => rw [same related]
  | error halt related => rw [same related]
  | @excuse_left halt t _ deep =>
    obtain rfl : halt = .tooDeep := deep
    exact absurd rfl (within t)
  | @excuse_right halt t _ deep =>
    obtain rfl : halt = .tooDeep := deep
    exact absurd rfl (within' t)

/-- **Redundant parentheses and braces change nothing.** Take the statements of any parse, and these
with parentheses added around any of their expressions and braces around any of their statements
that are no declarations. Executed in the same machine at depths that suffice, both end alike,
with the same scopes, the same output and the same failure; and one ends exactly if the other
does. -/
theorem Stmt.executeAll_wraps (limit : Nat) (tokens : List Token) (ss' : List Stmt)
    (wraps : WrapsAll (Parsed.ofTokens limit tokens).statements ss') (m : Machine)
    (depth depth' : Nat)
    (within : ∀ rounds t, executeAll rounds (Parsed.ofTokens limit tokens).statements depth m
      ≠ .error .tooDeep t)
    (within' : ∀ rounds t, executeAll rounds ss' depth' m ≠ .error .tooDeep t) :
    let ss := (Parsed.ofTokens limit tokens).statements
    (∀ rounds, executeAll rounds ss' depth' m = executeAll rounds ss depth m) ∧
    ((∃ rounds, ∀ t, executeAll rounds ss' depth' m ≠ .error .outOfFuel t) ↔
      ∃ rounds, ∀ t, executeAll rounds ss depth m ≠ .error .outOfFuel t) := by
  intro ss
  have wellFormed : AllWellFormed ss :=
    allWellFormed_iff.2 fun s mem => Parsed.wellFormed_of_mem mem
  have same (rounds : Nat) : executeAll rounds ss' depth' m = executeAll rounds ss depth m := by
    have start : Machine.Over Eq m m := ⟨rfl, rfl⟩
    exact (WrapsAll.simulates rounds wraps wellFormed depth depth' start).eq
      (fun _ _ => Machine.Over.eq) (within rounds) (within' rounds)
  refine ⟨same, ?_⟩
  simp only [same]

/-- A loop in braces, with parentheses in its condition and braces and parentheses in its body, and
a failure after it. -/
theorem Stmt.executeAll_wraps_loop :
    let a : Token := ⟨.identifier, "a", 1, .nil⟩
    let null : Token := ⟨.kwNil, "nil", 1, .nil⟩
    let minus : Token := ⟨.minus, "-", 1, .nil⟩
    let ss := (Parsed.ofTokens 9 (Lexer.tokens "while (a) a = nil; -a;")).statements
    let ss' : List Stmt :=
      [.block [.loop (.grouping (.ident a))
        (.block [.expression (.grouping (.assign a (.grouping (.literal null))))])],
      .expression (.unary minus (.grouping (.ident a)))]
    let m : Machine := ⟨⟨Scope.ofList [("a", .bool true)], []⟩, "first\n"⟩
    WrapsAll ss ss'
      ∧ (∀ rounds t, executeAll rounds ss 9 m ≠ .error .tooDeep t)
      ∧ (∀ rounds t, executeAll rounds ss' 9 m ≠ .error .tooDeep t)
      ∧ (∀ rounds, executeAll rounds ss' 9 m = executeAll rounds ss 9 m)
      ∧ ((∃ rounds, ∀ t, executeAll rounds ss' 9 m ≠ .error .outOfFuel t) ↔
        ∃ rounds, ∀ t, executeAll rounds ss 9 m ≠ .error .outOfFuel t) := by
  intro a null minus ss ss' m
  have parsed : ss = [.loop (.ident a) (.expression (.assign a (.literal null))),
      .expression (.unary minus (.ident a))] := by
    decide +kernel
  have wraps : WrapsAll ss ss' := by
    rw [parsed]
    refine .cons (.brace rfl (.loop (.group (.ident a)) (.brace rfl (.expression ?_)))) ?_
    · exact .group (.assign a (.group (.literal null)))
    · exact .cons (.expression (.unary minus (.group (.ident a)))) .nil
  have height_le : heightAll ss ≤ 9 := by decide +kernel
  have height_le' : heightAll ss' ≤ 9 := by decide +kernel
  have within (rounds : Nat) (t : Machine) : executeAll rounds ss 9 m ≠ .error .tooDeep t :=
    fun deep => executeAll_shallow rounds ss height_le deep
  have within' (rounds : Nat) (t : Machine) : executeAll rounds ss' 9 m ≠ .error .tooDeep t :=
    fun deep => executeAll_shallow rounds ss' height_le' deep
  exact ⟨wraps, within, within', executeAll_wraps 9 _ ss' wraps m 9 9 within within'⟩

end Lox
