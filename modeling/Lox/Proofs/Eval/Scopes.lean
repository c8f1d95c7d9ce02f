import Lox.Eval.Statement
import Lox.Lexer
import Lox.Proofs.Parser.Produced

/-!
# Scope discipline

What executing a statement does to the chain of scopes, however the execution ends. Expressions and
statements that are no declarations change the values of names that they assign to, and nothing
else: each scope keeps its names, in order (`Chain.Kept`). A declaration can add its own name to the
innermost scope. Inside a block the innermost scope is the block's own and is dropped with it, so
what matters of a list of statements is what it does to the scopes around (`Chain.KeptOuter`).

All of these are reflexive and transitive relations between the state before and after.
`Preserves` says that an action respects one, also if it halts, and it composes along the way in
which actions are put together.
-/

namespace Lox

/-! ### Names that are assigned to -/

/-- The names that the expression assigns to. -/
def Expr.targets : Expr → List String
  | .binary left _ right => left.targets ++ right.targets
  | .unary _ right => right.targets
  | .grouping inner => inner.targets
  | .assign name value => name.lexeme :: value.targets
  | .literal _ | .ident _ | .foreign _ => []

namespace Stmt

mutual

/-- The names that the expressions of the statement assign to. -/
def targets : Stmt → List String
  | expression e | print e | var _ (some e) => e.targets
  | var _ none => []
  | block body => targetsAll body
  | ifThen condition yes => condition.targets ++ yes.targets
  | ifElse condition yes no => condition.targets ++ (yes.targets ++ no.targets)
  | loop condition body => condition.targets ++ body.targets
  | foreign _ => []

/-- The names that the expressions of the statements assign to. -/
def targetsAll : List Stmt → List String
  | [] => []
  | s :: ss => s.targets ++ targetsAll ss

end

/-- The name that the statement itself declares. -/
def declared? : Stmt → Option String
  | var name _ => some name.lexeme
  | _ => none

end Stmt

/-! ### Scopes that keep their names -/

theorem lookup_eq_some_iff_of_nodup {bs : List (String × Value)} (nodup : (bs.map Prod.fst).Nodup)
    {n : String} {v : Value} : bs.lookup n = some v ↔ (n, v) ∈ bs := by
  induction bs with
  | nil => simp
  | cons b bs ih =>
    obtain ⟨m, w⟩ := b
    rw [List.map_cons, List.nodup_cons] at nodup
    by_cases h : n = m
    · subst h
      have fresh : (n, v) ∉ bs := fun mem => nodup.1 (List.mem_map.2 ⟨_, mem, rfl⟩)
      simp [fresh, eq_comm]
    · simp [List.lookup_cons, beq_false_of_ne h, h, ih nodup.2]

/-- A name has a value exactly if it is bound to it. -/
theorem Scope.get?_eq_some_iff {s : Scope} {n : String} {v : Value} :
    s.get? n = some v ↔ (n, v) ∈ s.bindings :=
  lookup_eq_some_iff_of_nodup s.nodup

theorem Scope.ext_bindings {s t : Scope} (same : s.bindings = t.bindings) : s = t := by
  cases s
  cases t
  cases same
  rfl

/-- A scope is determined by its names, in order, and their values. -/
theorem Scope.ext_of_get? {s t : Scope} (names : s.names = t.names)
    (values : ∀ n, s.get? n = t.get? n) : s = t := by
  have length : s.bindings.length = t.bindings.length := by
    simpa [Scope.names] using congrArg List.length names
  refine ext_bindings (List.ext_getElem length fun i hs ht => ?_)
  have fst : s.bindings[i].1 = t.bindings[i].1 := by
    have := congrArg (·[i]?) names
    simpa [Scope.names, List.getElem?_eq_getElem hs, List.getElem?_eq_getElem ht] using this
  have left : s.get? s.bindings[i].1 = some s.bindings[i].2 :=
    get?_eq_some_iff.2 (List.getElem_mem hs)
  have right : t.get? t.bindings[i].1 = some t.bindings[i].2 :=
    get?_eq_some_iff.2 (List.getElem_mem ht)
  rw [fst, values, right] at left
  exact Prod.ext fst (Option.some.inj left).symm

/-- The scope has the same names in the same order, and names other than these their values. -/
structure Scope.Kept (except : List String) (before after : Scope) : Prop where
  names : after.names = before.names
  values : ∀ n ∉ except, after.get? n = before.get? n

namespace Scope.Kept

variable {except more : List String} {s t u : Scope}

theorem refl (except : List String) (s : Scope) : s.Kept except s := ⟨rfl, fun _ _ => rfl⟩

theorem trans (h : Kept except s t) (h' : Kept except t u) : Kept except s u :=
  ⟨h'.names.trans h.names, fun n free => (h'.values n free).trans (h.values n free)⟩

theorem mono (sub : except ⊆ more) (h : Kept except s t) : Kept more s t :=
  ⟨h.names, fun n free => h.values n fun mem => free (sub mem)⟩

/-- A binding that exists is overwritten in place. -/
theorem define {name : String} (bound : s.binds name) (v : Value) :
    Kept [name] s (s.define name v) := by
  refine ⟨?_, fun n free => ?_⟩
  · rw [names_define, if_pos (by simpa [binds] using bound)]
  · rw [get?_define, if_neg (by simpa using free)]

end Scope.Kept

namespace Chain

/-- Each scope around the innermost one keeps its names. -/
def KeptOuter (except : List String) (before after : Chain) : Prop :=
  List.Forall₂ (Scope.Kept except) before.outer after.outer

/-- Each scope keeps its names. -/
structure Kept (except : List String) (before after : Chain) : Prop where
  inner : before.inner.Kept except after.inner
  outer : before.KeptOuter except after

section
variable {except more : List String} {a b c : Chain}

theorem KeptOuter.refl (except : List String) (c : Chain) : c.KeptOuter except c :=
  List.forall₂_same.2 fun s _ => .refl except s

theorem KeptOuter.trans (h : KeptOuter except a b) (h' : KeptOuter except b c) :
    KeptOuter except a c := by
  unfold KeptOuter at *
  generalize a.outer = ss at h
  generalize b.outer = ts at h h'
  generalize c.outer = us at h'
  induction h generalizing us with
  | nil => exact h'
  | cons kept _ ih =>
    cases h' with
    | cons kept' h' => exact .cons (kept.trans kept') (ih _ h')

theorem KeptOuter.mono (sub : except ⊆ more) (h : KeptOuter except a b) : KeptOuter more a b :=
  List.Forall₂.imp (fun _ _ => .mono sub) h

instance (except : List String) : IsPreorder Chain (KeptOuter except) where
  refl := .refl except
  trans _ _ _ := .trans

instance (except : List String) : IsPreorder Chain (Kept except) where
  refl c := ⟨.refl except c.inner, .refl except c⟩
  trans _ _ _ h h' := ⟨h.inner.trans h'.inner, h.outer.trans h'.outer⟩

theorem Kept.mono (sub : except ⊆ more) (h : Kept except a b) : Kept more a b :=
  ⟨h.inner.mono sub, h.outer.mono sub⟩

end

theorem keptOuter_define (except : List String) (c : Chain) (name : String) (v : Value) :
    c.KeptOuter except (c.define name v) := KeptOuter.refl except c

theorem forall₂_kept_assignIn {name : String} {v : Value} {ss ss' : List Scope}
    (assigned : assignIn name v ss = some ss') : List.Forall₂ (Scope.Kept [name]) ss ss' := by
  induction ss generalizing ss' with
  | nil => cases assigned
  | cons s ss ih =>
    rw [assignIn] at assigned
    split at assigned
    next bound =>
      cases assigned
      exact .cons (.define bound v) (List.forall₂_same.2 fun t _ => .refl [name] t)
    next =>
      obtain ⟨tail, within, rfl⟩ := Option.map_eq_some_iff.1 assigned
      exact .cons (.refl [name] s) (ih within)

/-- A chain that is kept without exception is the same chain. -/
theorem Kept.eq {c c' : Chain} (h : c.Kept [] c') : c' = c := by
  have scope {s t : Scope} (kept : s.Kept [] t) : t = s :=
    Scope.ext_of_get? kept.names fun n => kept.values n List.not_mem_nil
  obtain ⟨inner, outer⟩ := c
  obtain ⟨inner', outer'⟩ := c'
  obtain rfl : inner' = inner := scope h.inner
  have same : List.Forall₂ Eq outer outer' :=
    List.Forall₂.imp (fun _ _ kept => (scope kept).symm) h.outer
  rw [List.forall₂_eq_eq_eq] at same
  rw [same]

/-- An assignment keeps all names, and all values but those of the name. -/
theorem kept_assign? {c c' : Chain} {name : String} {v : Value}
    (assigned : c.assign? name v = some c') : c.Kept [name] c' := by
  rw [assign?] at assigned
  split at assigned
  next bound =>
    cases assigned
    exact ⟨.define bound v, keptOuter_define [name] c name v⟩
  next =>
    obtain ⟨outer, within, rfl⟩ := Option.map_eq_some_iff.1 assigned
    exact ⟨.refl [name] c.inner, forall₂_kept_assignIn within⟩

/-- What keeps the scopes around a block keeps all scopes once the block is dropped. -/
theorem KeptOuter.pop {except : List String} {c c' : Chain} (h : c.push.KeptOuter except c') :
    c.Kept except c'.pop := by
  obtain ⟨inner, outer⟩ := c'
  cases h with
  | cons hinner houter => exact ⟨hinner, houter⟩

end Chain

/-! ### Actions that respect a relation -/

/-- The state in which an action ends, with or without a value. -/
def Halt.final {σ α : Type} : EStateM.Result Halt σ α → σ
  | .ok _ s | .error _ s => s

/-- However the action ends, the state before and the state after are related. -/
def Preserves {σ α : Type} (R : σ → σ → Prop) (action : EStateM Halt σ α) : Prop :=
  ∀ s, R s (Halt.final (action s))

namespace Preserves

variable {σ α β : Type} {R Q : σ → σ → Prop}

theorem mono {action : EStateM Halt σ α} (h : Preserves R action)
    (imp : ∀ {s t}, R s t → Q s t) : Preserves Q action :=
  fun s => imp (h s)

/-- An action that ends where it began. -/
theorem still [IsPreorder σ R] {action : EStateM Halt σ α} (h : ∀ s, Halt.final (action s) = s) :
    Preserves R action := by
  intro s
  rw [h s]
  exact refl_of R s

theorem pure [IsPreorder σ R] (a : α) : Preserves R (Pure.pure a : EStateM Halt σ α) :=
  still fun _ => rfl

theorem get [IsPreorder σ R] : Preserves R (MonadState.get : EStateM Halt σ σ) :=
  still fun _ => rfl

/-- An action that first looks at its state. -/
theorem get_bind {next : σ → EStateM Halt σ α} (h : ∀ s, R s (Halt.final (next s s))) :
    Preserves R (MonadState.get >>= next) :=
  h

theorem throw [IsPreorder σ R] (halt : Halt) :
    Preserves R (MonadExcept.throw halt : EStateM Halt σ α) :=
  still fun _ => rfl

theorem ofExcept [IsPreorder σ R] (result : Except Failure α) :
    Preserves R (Halt.ofExcept result : EStateM Halt σ α) := by
  cases result <;> exact still fun _ => rfl

theorem bind [IsPreorder σ R] {action : EStateM Halt σ α} {next : α → EStateM Halt σ β}
    (h : Preserves R action) (hnext : ∀ a, Preserves R (next a)) :
    Preserves R (action >>= next) := by
  intro s
  have first := h s
  change R s (Halt.final (EStateM.bind action next s))
  rw [EStateM.bind]
  cases result : action s with
  | ok a mid =>
    rw [result] at first
    exact trans_of R first (hnext a mid)
  | error halt mid =>
    rw [result] at first
    exact first

theorem map [IsPreorder σ R] {action : EStateM Halt σ α} (f : α → β) (h : Preserves R action) :
    Preserves R (f <$> action) := by
  rw [map_eq_pure_bind]
  exact h.bind fun a => .pure (f a)

end Preserves

/-! ### Expressions -/

/-- **Evaluation changes nothing but the values of names that the expression assigns to.** -/
theorem Expr.evaluate_preserves : ∀ (e : Expr) (depth : Nat),
    Preserves (Chain.Kept e.targets) (e.evaluate depth)
  | e, 0 => by
    rw [evaluate]
    exact .throw _
  | .literal token, _ + 1 => .ofExcept _
  | .grouping inner, depth + 1 => by
    rw [evaluate]
    exact inner.evaluate_preserves depth
  | .ident name, _ + 1 => by
    rw [evaluate]
    refine .bind .get fun chain => ?_
    split
    · exact .pure _
    · exact .throw _
  | .assign name value, depth + 1 => by
    rw [evaluate]
    apply Preserves.bind
    · exact (value.evaluate_preserves depth).mono (.mono (List.subset_cons_self _ _))
    intro v
    refine .get_bind fun chain => ?_
    cases assigned : chain.assign? name.lexeme v with
    | some chain' => exact (Chain.kept_assign? assigned).mono (by simp [targets])
    | none => exact refl_of (Chain.Kept _) chain
  | .unary operator right, depth + 1 => by
    rw [evaluate]
    exact (right.evaluate_preserves depth).bind fun v => .ofExcept _
  | .binary left operator right, depth + 1 => by
    rw [evaluate]
    apply Preserves.bind
    · exact (left.evaluate_preserves depth).mono (.mono (List.subset_append_left _ _))
    intro v
    apply Preserves.bind
    · exact (right.evaluate_preserves depth).mono (.mono (List.subset_append_right _ _))
    intro w
    exact .ofExcept _
  | .foreign label, _ + 1 => .throw _

/-! ### Statements -/

namespace Machine

/-- Each scope of the machine keeps its names. -/
def Kept (except : List String) (before after : Machine) : Prop :=
  before.chain.Kept except after.chain

/-- Each scope of the machine around the innermost one keeps its names. -/
def KeptOuter (except : List String) (before after : Machine) : Prop :=
  before.chain.KeptOuter except after.chain

instance (except : List String) : IsPreorder Machine (Kept except) where
  refl m := refl_of (Chain.Kept except) m.chain
  trans _ _ _ h h' := trans_of (Chain.Kept except) h h'

instance (except : List String) : IsPreorder Machine (KeptOuter except) where
  refl m := refl_of (Chain.KeptOuter except) m.chain
  trans _ _ _ h h' := trans_of (Chain.KeptOuter except) h h'

section
variable {except more : List String} {m m' : Machine}

theorem Kept.mono (sub : except ⊆ more) (h : Kept except m m') : Kept more m m' :=
  Chain.Kept.mono sub h

theorem KeptOuter.mono (sub : except ⊆ more) (h : KeptOuter except m m') : KeptOuter more m m' :=
  Chain.KeptOuter.mono sub h

theorem Kept.outer (h : Kept except m m') : KeptOuter except m m' := Chain.Kept.outer h

end

theorem evaluate_preserves (e : Expr) (depth : Nat) :
    Preserves (Kept e.targets) (evaluate e depth) := by
  intro m
  have kept := e.evaluate_preserves depth m.chain
  unfold evaluate
  split
  next result => rwa [result] at kept
  next result => rwa [result] at kept

theorem print_preserves (except : List String) (line : String) :
    Preserves (Kept except) (print line) :=
  fun m => refl_of (Chain.Kept except) m.chain

theorem define_preserves (except : List String) (name : String) (v : Value) :
    Preserves (KeptOuter except) (define name v) :=
  fun m => Chain.keptOuter_define except m.chain name v

/-- A block keeps all scopes if its body keeps those around it. -/
theorem inBlock_preserves {except : List String} {body : EStateM Halt Machine Unit}
    (h : Preserves (KeptOuter except) body) : Preserves (Kept except) (inBlock body) := by
  intro m
  have kept := h { m with chain := m.chain.push }
  unfold inBlock
  split
  next result =>
    rw [result] at kept
    exact Chain.KeptOuter.pop kept
  next result =>
    rw [result] at kept
    exact Chain.KeptOuter.pop kept

theorem iterate_preserves {R : Machine → Machine → Prop} [IsPreorder Machine R]
    {condition : EStateM Halt Machine Bool} {body : EStateM Halt Machine Unit}
    (hcondition : Preserves R condition) (hbody : Preserves R body) (rounds : Nat) :
    Preserves R (iterate condition body rounds) := by
  induction rounds with
  | zero => exact fun m => refl_of R m
  | succ rounds ih =>
    rw [iterate_succ]
    refine hcondition.bind fun holds => ?_
    split
    · exact hbody.bind fun _ => ih
    · exact .pure _

end Machine

mutual

/-- **A statement that is no declaration changes nothing but the values of names that it assigns
to.** -/
theorem Stmt.execute_preserves (rounds : Nat) : ∀ {s : Stmt}, s.WellFormed → s.isVar = false →
    ∀ depth, Preserves (Machine.Kept s.targets) (s.execute rounds depth)
  | s, _, _, 0 => by
    rw [Stmt.execute]
    exact .throw _
  | .expression e, _, _, depth + 1 => by
    rw [Stmt.execute]
    exact (Machine.evaluate_preserves e depth).bind fun _ => .pure _
  | .print e, _, _, depth + 1 => by
    rw [Stmt.execute]
    exact (Machine.evaluate_preserves e depth).bind fun _ => Machine.print_preserves _ _
  | .var _ _, _, isVar, _ => nomatch isVar
  | .block body, h, _, depth + 1 => by
    rw [Stmt.execute]
    exact Machine.inBlock_preserves (Stmt.executeAll_preserves rounds h depth)
  | .ifThen c yes, h, _, depth + 1 => by
    obtain ⟨-, notVar, hyes⟩ := h
    rw [Stmt.execute]
    apply Preserves.bind
    · exact (Machine.evaluate_preserves c depth).mono (.mono (List.subset_append_left _ _))
    intro v
    split
    · exact (Stmt.execute_preserves rounds hyes notVar depth).mono
        (.mono (List.subset_append_right _ _))
    · exact .pure _
  | .ifElse c yes no, h, _, depth + 1 => by
    obtain ⟨-, ⟨notVar, -, hyes⟩, notVar', hno⟩ := h
    have branches_sub : yes.targets ++ no.targets ⊆ (Stmt.ifElse c yes no).targets :=
      List.subset_append_right _ _
    obtain ⟨yes_sub, no_sub⟩ := List.append_subset.1 branches_sub
    rw [Stmt.execute]
    apply Preserves.bind
    · exact (Machine.evaluate_preserves c depth).mono (.mono (List.subset_append_left _ _))
    intro v
    split
    · exact (Stmt.execute_preserves rounds hyes notVar depth).mono (.mono yes_sub)
    · exact (Stmt.execute_preserves rounds hno notVar' depth).mono (.mono no_sub)
  | .loop c body, h, _, depth + 1 => by
    obtain ⟨-, notVar, hbody⟩ := h
    rw [Stmt.execute]
    apply Machine.iterate_preserves
    · apply Preserves.map
      exact (Machine.evaluate_preserves c depth).mono (.mono (List.subset_append_left _ _))
    · exact (Stmt.execute_preserves rounds hbody notVar depth).mono
        (.mono (List.subset_append_right _ _))
  | .foreign _, h, _, _ => h.elim

/-- Every statement keeps the scopes around the innermost one. -/
theorem Stmt.execute_preservesOuter (rounds : Nat) : ∀ {s : Stmt}, s.WellFormed → ∀ depth,
    Preserves (Machine.KeptOuter s.targets) (s.execute rounds depth)
  | s, _, 0 => by
    rw [Stmt.execute]
    exact .throw _
  | .var name none, _, depth + 1 => by
    rw [Stmt.execute]
    exact Machine.define_preserves _ _ _
  | .var name (some e), _, depth + 1 => by
    rw [Stmt.execute]
    apply Preserves.bind
    · exact (Machine.evaluate_preserves e depth).mono Machine.Kept.outer
    intro v
    exact Machine.define_preserves _ _ _
  | .expression _, h, depth | .print _, h, depth | .block _, h, depth | .ifThen _ _, h, depth
  | .ifElse _ _ _, h, depth | .loop _ _, h, depth | .foreign _, h, depth =>
    (Stmt.execute_preserves rounds h rfl depth).mono Machine.Kept.outer

/-- Statements in a row keep the scopes around the innermost one. -/
theorem Stmt.executeAll_preserves (rounds : Nat) : ∀ {ss : List Stmt}, Stmt.AllWellFormed ss →
    ∀ depth, Preserves (Machine.KeptOuter (Stmt.targetsAll ss)) (Stmt.executeAll rounds ss depth)
  | [], _, _ => by
    rw [Stmt.executeAll]
    exact .pure _
  | s :: ss, h, depth => by
    obtain ⟨hs, hss⟩ := h
    rw [Stmt.executeAll]
    apply Preserves.bind
    · exact (Stmt.execute_preservesOuter rounds hs depth).mono
        (.mono (List.subset_append_left _ _))
    intro _
    exact (Stmt.executeAll_preserves rounds hss depth).mono (.mono (List.subset_append_right _ _))

end

/-! ### Discipline -/

/-- What executing a statement may do to the scopes. -/
structure Stmt.Disciplined (s : Stmt) (before after : Chain) : Prop where
  /-- The scopes around the innermost one are still there, one by one. Each has its names as before,
  and only names that the statement assigns to can have other values. -/
  outer : List.Forall₂ (Scope.Kept s.targets) before.outer after.outer
  /-- The innermost scope has its names as before. If the statement declares a variable, the name
  of this variable may be there after them. -/
  names : after.inner.names = before.inner.names ∨ ∃ name ∈ s.declared?,
    name ∉ before.inner.names ∧ after.inner.names = before.inner.names ++ [name]
  /-- In the innermost scope only names that the statement assigns to, or that it declares, can have
  other values. -/
  values : ∀ n ∉ s.targets, n ∉ s.declared? → after.inner.get? n = before.inner.get? n

namespace Stmt.Disciplined

variable {s : Stmt} {before after : Chain}

theorem of_kept (h : before.Kept s.targets after) : s.Disciplined before after where
  outer := h.outer
  names := .inl h.inner.names
  values n free _ := h.inner.values n free

/-- Declaring the name of the statement. -/
theorem define {name : String} (declares : s.declared? = some name)
    (h : before.Kept s.targets after) (v : Value) :
    s.Disciplined before (after.define name v) where
  outer := h.outer
  names := by
    have added : (after.define name v).inner.names =
        if name ∈ before.inner.names then before.inner.names
        else before.inner.names ++ [name] := by
      rw [← h.inner.names]
      exact Scope.names_define after.inner name v
    rw [added]
    split
    next => exact .inl rfl
    next fresh => exact .inr ⟨name, declares, fresh, rfl⟩
  values n free other := by
    show (after.inner.define name v).get? n = _
    rw [Scope.get?_define, if_neg (fun e => other (by rw [declares, e]; rfl))]
    exact h.inner.values n free

end Stmt.Disciplined

/-- Every well-formed statement is disciplined, a declaration because its initializer is. -/
theorem Stmt.disciplined_of_wellFormed {s : Stmt} (h : s.WellFormed) (rounds depth : Nat)
    (m : Machine) : s.Disciplined m.chain (Halt.final (s.execute rounds depth m)).chain := by
  cases isVar : s.isVar with
  | false => exact .of_kept (Stmt.execute_preserves rounds h isVar depth m)
  | true =>
    obtain ⟨name, initializer, rfl⟩ : ∃ name initializer, s = .var name initializer := by
      cases s <;> first | exact ⟨_, _, rfl⟩ | cases isVar
    have unchanged : (Stmt.var name initializer).Disciplined m.chain m.chain :=
      .of_kept (refl_of (Chain.Kept _) m.chain)
    cases depth with
    | zero =>
      rw [Stmt.execute]
      exact unchanged
    | succ depth =>
      cases initializer with
      | none =>
        rw [Stmt.execute]
        exact .define rfl (refl_of (Chain.Kept _) m.chain) .nil
      | some e =>
        have kept : Machine.Kept (Stmt.var name (some e)).targets m _ :=
          Machine.evaluate_preserves e depth m
        rw [Stmt.execute]
        change Disciplined _ _ (Halt.final (EStateM.bind _ _ m)).chain
        rw [EStateM.bind]
        cases result : Machine.evaluate e depth m with
        | ok v mid =>
          rw [result] at kept
          exact .define rfl (show m.chain.Kept _ mid.chain from kept) v
        | error halt mid =>
          rw [result] at kept
          exact .of_kept kept

/-- **Scope discipline.** Executing a statement of a parse, however the execution ends, keeps all
scopes and all their names, adds at most the name that the statement itself declares, and changes
only values of this name and of names that the statement assigns to. Evaluating an expression that
assigns to nothing changes nothing. -/
theorem Stmt.execute_disciplined :
    (∀ limit tokens, ∀ s ∈ (Parsed.ofTokens limit tokens).statements, ∀ rounds depth m,
      s.Disciplined m.chain (Halt.final (s.execute rounds depth m)).chain) ∧
    ∀ e : Expr, e.targets = [] → ∀ depth c, Halt.final (e.evaluate depth c) = c := by
  constructor
  · intro limit tokens s mem rounds depth m
    exact disciplined_of_wellFormed (Parsed.wellFormed_of_mem mem) rounds depth m
  · intro e pure depth c
    have kept := e.evaluate_preserves depth c
    rw [pure] at kept
    exact kept.eq

/-- A block that fails midway, after it has declared a variable and changed two others. -/
theorem Stmt.execute_disciplined_failing :
    let statements := (Parsed.ofTokens 9
      (Lexer.tokens "\x7b var c = !a; a = b = c; print d; print a; \x7d")).statements
    let before : Chain :=
      ⟨Scope.ofList [("a", .nil)], [Scope.ofList [("b", .nil), ("c", .str "kept")]]⟩
    let after : Chain :=
      ⟨Scope.ofList [("a", .bool true)], [Scope.ofList [("b", .bool true), ("c", .str "kept")]]⟩
    statements.length = 1 ∧ ∀ s ∈ statements, s.Disciplined before after ∧
      Halt.final (s.execute 1 9 ⟨before, ""⟩) = ⟨after, ""⟩ := by
  intro statements before after
  have ends : ∀ s ∈ statements, Halt.final (s.execute 1 9 ⟨before, ""⟩) = ⟨after, ""⟩ := by
    decide +kernel
  refine ⟨by decide +kernel, fun s mem => ⟨?_, ends s mem⟩⟩
  have disciplined := Stmt.execute_disciplined.1 9 _ s mem 1 9 ⟨before, ""⟩
  rwa [ends s mem] at disciplined

end Lox
