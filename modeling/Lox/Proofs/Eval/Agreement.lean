import Lox.Proofs.Eval.Scopes
import Lox.Proofs.Eval.Simulation

/-!
# A program touches only the names in it

Chains of scopes that agree, scope by scope, on the names that occur in a program cannot be told
apart by running it, whatever else they hold (`Stmt.executeAll_agree`). And whatever else they hold
is there afterwards as it was. Both are carried through the same induction: `Chain.Beside` relates
two chains on the way, each with the chain it came from, whose other bindings it still has.
-/

namespace Lox

/-! ### Scopes that agree on names -/

namespace Scope

/-- Each of the names is bound in both scopes to the same value, or in none. -/
def Agree (names : List String) (s t : Scope) : Prop := ∀ n ∈ names, s.get? n = t.get? n

instance (names : List String) (s t : Scope) : Decidable (s.Agree names t) :=
  inferInstanceAs (Decidable (∀ n ∈ names, s.get? n = t.get? n))

/-- The bindings of names that are not among these, in order. -/
def others (names : List String) (s : Scope) : List (String × Value) :=
  s.bindings.filter fun b => b.1 ∉ names

variable {names : List String} {s t : Scope} {n : String}

theorem Agree.binds_eq (h : s.Agree names t) (mem : n ∈ names) : s.binds n = t.binds n := by
  rw [← isSome_get?, ← isSome_get?, h n mem]

theorem Agree.define (h : s.Agree names t) (n : String) (v : Value) :
    (s.define n v).Agree names (t.define n v) := by
  intro m mem
  rw [get?_define, get?_define, h m mem]

theorem filter_putBinding (mem : n ∈ names) (v : Value) (bs : List (String × Value)) :
    (putBinding n v bs).filter (fun b => b.1 ∉ names) = bs.filter fun b => b.1 ∉ names := by
  induction bs with
  | nil => simp [putBinding, mem]
  | cons b bs ih =>
    rw [putBinding]
    split
    next same => simp [same, mem]
    next => rw [List.filter_cons, List.filter_cons, ih]

/-- Defining one of the names leaves the bindings of others as they are. -/
theorem others_define (mem : n ∈ names) (v : Value) :
    (s.define n v).others names = s.others names :=
  filter_putBinding mem v s.bindings

end Scope

/-! ### Chains that agree on names -/

namespace Chain

/-- The chains are equally long, and agree on these names scope by scope. -/
def Agree (names : List String) (c c' : Chain) : Prop :=
  List.Forall₂ (Scope.Agree names) c.scopes c'.scopes

instance (names : List String) (c c' : Chain) : Decidable (c.Agree names c') :=
  inferInstanceAs (Decidable (List.Forall₂ (Scope.Agree names) c.scopes c'.scopes))

/-- Scope by scope, the bindings of names that are not among these. -/
def others (names : List String) (c : Chain) : List (List (String × Value)) :=
  c.scopes.map (Scope.others names)

section
variable {names : List String} {n : String}

theorem findSome?_eq_of_agree (mem : n ∈ names) {ss ss' : List Scope}
    (h : List.Forall₂ (Scope.Agree names) ss ss') :
    ss.findSome? (·.get? n) = ss'.findSome? (·.get? n) := by
  induction h with
  | nil => rfl
  | cons agree _ ih => rw [List.findSome?_cons, List.findSome?_cons, agree n mem, ih]

theorem agree_assignIn (mem : n ∈ names) (v : Value) {ss ss' : List Scope}
    (h : List.Forall₂ (Scope.Agree names) ss ss') :
    Option.Rel (List.Forall₂ (Scope.Agree names)) (assignIn n v ss) (assignIn n v ss') := by
  induction h with
  | nil => exact .none
  | @cons s s' ss ss' agree rest ih =>
    rw [assignIn, assignIn, agree.binds_eq mem]
    split
    · exact .some (.cons (agree.define n v) rest)
    · generalize assignIn n v ss = result at ih
      generalize assignIn n v ss' = result' at ih
      cases ih with
      | none => exact .none
      | some related => exact .some (.cons agree related)

theorem others_assignIn (mem : n ∈ names) {v : Value} {ss ts : List Scope}
    (assigned : assignIn n v ss = some ts) :
    ts.map (Scope.others names) = ss.map (Scope.others names) := by
  induction ss generalizing ts with
  | nil => cases assigned
  | cons s ss ih =>
    rw [assignIn] at assigned
    split at assigned
    · cases assigned
      rw [List.map_cons, List.map_cons, Scope.others_define mem]
    · obtain ⟨us, within, rfl⟩ := Option.map_eq_some_iff.1 assigned
      rw [List.map_cons, List.map_cons, ih within]

/-- Assigning to one of the names leaves the bindings of others as they are. -/
theorem others_assign? (mem : n ∈ names) {v : Value} {c d : Chain}
    (assigned : c.assign? n v = some d) : d.others names = c.others names := by
  apply others_assignIn mem (v := v)
  rw [← map_scopes_assign?, assigned, Option.map_some]

end

/-- The chains agree on these names, and have the bindings of other names that the chains have which
they came from. -/
structure Beside (names : List String) (start start' c c' : Chain) : Prop where
  agree : c.Agree names c'
  left : c.others names = start.others names
  right : c'.others names = start'.others names

namespace Beside

variable {names : List String} {start start' c c' : Chain}

/-- None of the names tells the chains apart. -/
theorem hides {n : String} (mem : n ∈ names) : Hides (Beside names start start') n where
  get? _ _ h := findSome?_eq_of_agree mem h.agree
  assign? c c' h v := by
    have assigned : Option.Rel (Agree names) (c.assign? n v) (c'.assign? n v) :=
      rel_assign? (agree_assignIn mem v h.agree)
    cases first : c.assign? n v <;> cases second : c'.assign? n v <;>
      rw [first, second] at assigned <;> rcases assigned with agree | -
    · exact .none
    · exact .some ⟨agree, (others_assign? mem first).trans h.left,
        (others_assign? mem second).trans h.right⟩

theorem define {n : String} (mem : n ∈ names) (h : Beside names start start' c c') (v : Value) :
    Beside names start start' (c.define n v) (c'.define n v) where
  agree := by
    cases h.agree with
    | cons inner outer => exact .cons (inner.define n v) outer
  left := by
    rw [← h.left]
    exact congrArg (· :: _) (Scope.others_define mem v)
  right := by
    rw [← h.right]
    exact congrArg (· :: _) (Scope.others_define mem v)

theorem push (h : Beside names start start' c c') :
    Beside names start.push start'.push c.push c'.push where
  agree := .cons (fun _ _ => rfl) h.agree
  left := congrArg (_ :: ·) h.left
  right := congrArg (_ :: ·) h.right

theorem pop (h : Beside names start.push start'.push c c') :
    Beside names start start' c.pop c'.pop := by
  obtain ⟨inner, outer⟩ := c
  obtain ⟨inner', outer'⟩ := c'
  obtain ⟨agree, left, right⟩ := h
  cases agree with
  | cons _ around =>
    cases around with
    | nil =>
      -- a chain that came from a block has a scope around
      have length : start.push.outer = [] := by
        simpa [others, scopes] using congrArg List.length left
      cases length
    | cons first rest =>
      exact ⟨.cons first rest, (List.cons.inj left).2, (List.cons.inj right).2⟩

end Beside

end Chain

/-! ### Execution -/

section
variable {names : List String}

theorem Machine.evaluate_beside {e : Expr} (sub : e.names ⊆ names) (depth : Nat)
    (start start' : Chain) :
    Simulates Halt.never (Over (Chain.Beside names start start')) (evaluate e depth)
      (evaluate e depth) :=
  evaluate_simulates (e.evaluate_simulates (fun _ mem => Chain.Beside.hides (sub mem)) depth)

mutual

/-- **Chains that agree on the names in a statement stay so**, and keep their other bindings. -/
theorem Stmt.execute_beside (rounds : Nat) : ∀ {s : Stmt}, s.names ⊆ names → ∀ depth start start',
    Simulates Halt.never (Machine.Over (Chain.Beside names start start')) (s.execute rounds depth)
      (s.execute rounds depth)
  | s, _, 0, _, _ => by
    rw [Stmt.execute]
    exact .throw _
  | .expression e, sub, depth + 1, start, start' => by
    rw [Stmt.execute]
    exact (Machine.evaluate_beside sub depth start start').bind fun _ => .pure _
  | .print e, sub, depth + 1, start, start' => by
    rw [Stmt.execute]
    exact (Machine.evaluate_beside sub depth start start').bind fun _ => Machine.print_simulates _
  | .var name none, sub, depth + 1, start, start' => by
    rw [Stmt.execute]
    exact Machine.define_simulates fun _ _ h => h.define (sub (List.mem_singleton_self _)) _
  | .var name (some e), sub, depth + 1, start, start' => by
    obtain ⟨mem, sub⟩ := List.cons_subset.1 sub
    rw [Stmt.execute]
    exact (Machine.evaluate_beside sub depth start start').bind fun v =>
      Machine.define_simulates fun _ _ h => h.define mem v
  | .block body, sub, depth + 1, start, start' => by
    rw [Stmt.execute]
    exact Machine.inBlock_simulates (fun _ _ => .push) (fun _ _ => .pop)
      (Stmt.executeAll_beside rounds sub depth start.push start'.push)
  | .ifThen c yes, sub, depth + 1, start, start' => by
    obtain ⟨sub_c, sub_yes⟩ := List.append_subset.1 sub
    rw [Stmt.execute]
    refine (Machine.evaluate_beside sub_c depth start start').bind fun v => ?_
    split
    · exact Stmt.execute_beside rounds sub_yes depth start start'
    · exact .pure _
  | .ifElse c yes no, sub, depth + 1, start, start' => by
    obtain ⟨sub_c, sub_branches⟩ := List.append_subset.1 sub
    obtain ⟨sub_yes, sub_no⟩ := List.append_subset.1 sub_branches
    rw [Stmt.execute]
    refine (Machine.evaluate_beside sub_c depth start start').bind fun v => ?_
    split
    · exact Stmt.execute_beside rounds sub_yes depth start start'
    · exact Stmt.execute_beside rounds sub_no depth start start'
  | .loop c body, sub, depth + 1, start, start' => by
    obtain ⟨sub_c, sub_body⟩ := List.append_subset.1 sub
    rw [Stmt.execute]
    apply Machine.iterate_simulates
    · exact (Machine.evaluate_beside sub_c depth start start').map _
    · exact Stmt.execute_beside rounds sub_body depth start start'
  | .foreign _, _, _ + 1, _, _ => .throw _

/-- Chains that agree on the names in statements stay so, and keep their other bindings. -/
theorem Stmt.executeAll_beside (rounds : Nat) : ∀ {ss : List Stmt}, Stmt.namesAll ss ⊆ names →
    ∀ depth start start', Simulates Halt.never (Machine.Over (Chain.Beside names start start'))
      (Stmt.executeAll rounds ss depth) (Stmt.executeAll rounds ss depth)
  | [], _, _, _, _ => by
    rw [Stmt.executeAll]
    exact .pure _
  | _ :: _, sub, depth, start, start' => by
    obtain ⟨sub_s, sub_ss⟩ := List.append_subset.1 sub
    rw [Stmt.executeAll]
    exact (Stmt.execute_beside rounds sub_s depth start start').bind fun _ =>
      Stmt.executeAll_beside rounds sub_ss depth start start'

end

end

namespace Halt

variable {σ τ α : Type}

/-- Why the action halted, if it did. -/
def reason? : EStateM.Result Halt σ α → Option Halt
  | .ok _ _ => none
  | .error halt _ => some halt

theorem ne_error_iff {result : EStateM.Result Halt σ α} {halt : Halt} :
    (∀ s, result ≠ .error halt s) ↔ reason? result ≠ some halt := by
  cases result <;> simp [reason?]

end Halt

/-- Without excuses, actions that end alike halt for the same reason, in related states. -/
theorem Alike.of_never {σ τ α : Type} {R : σ → τ → Prop} {result : EStateM.Result Halt σ α}
    {result' : EStateM.Result Halt τ α} (h : Alike Halt.never R result result') :
    Halt.reason? result = Halt.reason? result' ∧ R (Halt.final result) (Halt.final result') := by
  cases h with
  | ok a related => exact ⟨rfl, related⟩
  | error halt related => exact ⟨rfl, related⟩
  | excuse_left h => exact h.elim
  | excuse_right h => exact h.elim

/-- **A program touches only the names in it.** Take chains that agree, scope by scope, on the names
in the statements, in whatever else they differ. The statements end alike in both, with the same
failure if they fail, and print the same; the chains agree again on the names, and in each of them
the bindings of all other names are as before. And one run ends exactly if the other does. -/
theorem Stmt.executeAll_agree (ss : List Stmt) (c c' : Chain) (output : String) (depth : Nat)
    (agree : c.Agree (namesAll ss) c') :
    (∀ rounds,
      let ended := executeAll rounds ss depth ⟨c, output⟩
      let ended' := executeAll rounds ss depth ⟨c', output⟩
      Halt.reason? ended = Halt.reason? ended'
        ∧ (Halt.final ended).output = (Halt.final ended').output
        ∧ (Halt.final ended).chain.Agree (namesAll ss) (Halt.final ended').chain
        ∧ (Halt.final ended).chain.others (namesAll ss) = c.others (namesAll ss)
        ∧ (Halt.final ended').chain.others (namesAll ss) = c'.others (namesAll ss)) ∧
    ((∃ rounds, ∀ m, executeAll rounds ss depth ⟨c, output⟩ ≠ .error .outOfFuel m) ↔
      ∃ rounds, ∀ m, executeAll rounds ss depth ⟨c', output⟩ ≠ .error .outOfFuel m) := by
  have start : Machine.Over (Chain.Beside (namesAll ss) c c') ⟨c, output⟩ ⟨c', output⟩ :=
    ⟨⟨agree, rfl, rfl⟩, rfl⟩
  have alike (rounds : Nat) :=
    (executeAll_beside rounds (List.Subset.refl _) depth c c' start).of_never
  constructor
  · intro rounds
    obtain ⟨same, related⟩ := alike rounds
    obtain ⟨agree, left, right⟩ := related.chain
    exact ⟨same, related.output, agree, left, right⟩
  · refine exists_congr fun rounds => ?_
    rw [Halt.ne_error_iff, Halt.ne_error_iff, (alike rounds).1]

/-- A loop that fails in its second round, within a block with a variable of its own. The chains
differ in variables around it that it does not name. -/
theorem Stmt.executeAll_agree_loop :
    let ss := (Parsed.ofTokens 9
      (Lexer.tokens "while (a) \x7b var b = a; a = c; print b + b; \x7d")).statements
    let c : Chain :=
      ⟨Scope.ofList [("z", .nil), ("a", .str "x")], [Scope.ofList [("c", .bool true)]]⟩
    let c' : Chain :=
      ⟨Scope.ofList [("a", .str "x")], [Scope.ofList [("c", .bool true), ("y", .bool false)]]⟩
    let failure : Halt := .failure (.operandsMismatch ⟨.plus, "+", 1, .nil⟩)
    c.Agree (namesAll ss) c'
      ∧ Halt.reason? (executeAll 3 ss 9 ⟨c, ""⟩) = some failure
      ∧ Halt.reason? (executeAll 3 ss 9 ⟨c', ""⟩) = some failure
      ∧ (Halt.final (executeAll 3 ss 9 ⟨c', ""⟩)).output = "xx\n"
      ∧ (Halt.final (executeAll 3 ss 9 ⟨c', ""⟩)).chain.others (namesAll ss) =
        [[], [("y", .bool false)]] := by
  intro ss c c' failure
  have agree : c.Agree (namesAll ss) c' := by decide +kernel
  have fails : Halt.reason? (executeAll 3 ss 9 ⟨c, ""⟩) = some failure := by decide +kernel
  have prints : (Halt.final (executeAll 3 ss 9 ⟨c, ""⟩)).output = "xx\n" := by decide +kernel
  obtain ⟨same, output, -, -, others⟩ := (executeAll_agree ss c c' "" 9 agree).1 3
  refine ⟨agree, fails, same.symm.trans fails, output.symm.trans prints, others.trans ?_⟩
  decide +kernel

end Lox
