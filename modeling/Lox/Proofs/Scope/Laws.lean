import Lox.Proofs.Scope.History
import Mathlib.Data.List.Basic

/-!
# The laws of scopes

What the uses of scopes answer and change, whatever was done before: with siblings, with ancestors
and descendants, with names that are shadowed now and were not then. Answers are stated by the
history alone, changes by what differs between the forest before and after.
-/

namespace Lox.Forest

variable {f : Forest} {i j : Nat} {name : String} {v : Value}

/-! ### Overwriting a binding -/

theorem binds_define (bound : f.binds j name = true) (inside : j < f.parents.length) (v : Value)
    (k : Nat) (n : String) : (f.define j name v).binds k n = f.binds k n := by
  rw [← isSome_own?, ← isSome_own?, own?_define inside]
  split
  next here =>
    obtain ⟨rfl, rfl⟩ := here
    rw [isSome_own?, bound, Option.isSome_some]
  next => rfl

/-- Overwriting a binding moves no name to another scope. -/
theorem resolve_define (bound : f.binds j name = true) (inside : j < f.parents.length) (v : Value)
    (k : Nat) (n : String) : (f.define j name v).resolve k n = f.resolve k n := by
  have same : (fun k => (f.define j name v).binds k n) = (f.binds · n) :=
    funext fun k => binds_define bound inside v k n
  rw [resolve, same, path_congr (parents_define ..), resolve]

theorem get?_define (bound : f.binds j name = true) (inside : j < f.parents.length) (v : Value)
    (k : Nat) (n : String) :
    (f.define j name v).get? k n =
      if n = name ∧ f.resolve k n = some j then some v else f.get? k n := by
  rw [get?_eq, get?_eq, resolve_define bound inside]
  cases owner : f.resolve k n with
  | none => simp
  | some o =>
    rw [Option.bind_some, own?_define inside, Option.bind_some]
    by_cases here : o = j ∧ n = name
    · rw [if_pos here, if_pos ⟨here.2, congrArg some here.1⟩]
    · rw [if_neg here, if_neg fun both => here ⟨Option.some.inj both.2, both.1⟩]

namespace History

variable {h : List Request}

/-! ### What a history makes of a request -/

/-- A request fails as the use of a name that is not bound, and leaves all scopes as they are. -/
def Refused (r : Request) (f : Forest) (name : String) (line : Option Int) : Prop :=
  ∃ cause, perform r f = .error cause f ∧
    cause.diagnostic = ⟨.runtime, "Undefined variable '" ++ name ++ "'.", line,
      " at '" ++ name ++ "'", some name⟩

/-- The laws of scopes, for the forest after a history. -/
structure Lawful (h : List Request) : Prop where
  /-- To contain a name is to have it bound on the way up. -/
  contains : ∀ i name, ∃ b, perform (.contains i name) (after h) = .ok (.truth b) (after h) ∧
    (b = true ↔ Bound h i name)
  /-- A name that is bound has the value last written to its nearest binding. -/
  get : ∀ i name line, Bound h i name → ∃ j v,
    (∀ k, Nearest h i name k ↔ k = j) ∧ (∀ w, LastWritten h j name w ↔ w = v) ∧
    perform (.get i name line) (after h) = .ok (.value v) (after h)
  get_refused : ∀ i name line, ¬Bound h i name →
    Refused (.get i name line) (after h) name line
  /-- Assigning changes the value of the nearest binding and nothing else. That is seen from where
  this binding is the nearest, and from nowhere else. -/
  assign : ∀ i name v line, Bound h i name → ∃ j f,
    (∀ k, Nearest h i name k ↔ k = j) ∧
    perform (.assign i name v line) (after h) = .ok .done f ∧
    Overwritten (after h) f j name v ∧
    (∀ k line, Nearest h k name j → perform (.get k name line) f = .ok (.value v) f) ∧
    (∀ k n, ¬(n = name ∧ Nearest h k n j) → f.get? k n = (after h).get? k n)
  assign_refused : ∀ i name v line, ¬Bound h i name →
    Refused (.assign i name v line) (after h) name line
  /-- Defining changes the scope itself: it overwrites its own binding, or adds one at the end. -/
  define : ∀ i name v, i < (parents h).length → ∃ f,
    perform (.define i name v) (after h) = .ok .done f ∧
    ((Defined h i name ∧ Overwritten (after h) f i name v) ∨
      (¬Defined h i name ∧ Added (after h) f i name v))
  /-- A scope lists its names in the order of their first definitions. -/
  names : ∀ i, i < (parents h).length → ∃ s, (after h).scope? i = some s ∧ s.names = names h i
  /-- Names of a scope keep their places, whatever follows. -/
  kept : ∀ later, Possible (h ++ later) → ∀ i s, (after h).scope? i = some s →
    ∃ t, (after (h ++ later)).scope? i = some t ∧ s.names <+: t.names
  /-- A scope is shown with its ancestors, nearest first. -/
  text : ∀ i js, Lineage h i js → (after h).text i =
    " < ".intercalate (js.map fun j => "[" ++ ", ".intercalate (History.names h j) ++ "]")

theorem inside_of_lineage {js : List Nat} (lineage : Lineage h i js) :
    ∀ j ∈ js, j < (parents h).length := by
  have inside {i : Nat} {p : Option Nat} (at_i : (parents h)[i]? = some p) :
      i < (parents h).length := (List.getElem?_eq_some_iff.1 at_i).1
  induction lineage with
  | root at_i => exact List.forall_mem_singleton.2 (inside at_i)
  | child at_i _ ih => exact List.forall_mem_cons.2 ⟨inside at_i, ih⟩

namespace Reflects

theorem nearest_iff_eq (m : Reflects h f) (owner : f.resolve i name = some j) (k : Nat) :
    Nearest h i name k ↔ k = j := by
  rw [m.nearest_iff, owner, Option.some.injEq, eq_comm]

theorem inside_of_resolve (m : Reflects h f) (owner : f.resolve i name = some j) :
    j < f.parents.length := by
  rw [m.parents]
  exact m.inside_of_binds (binds_of_resolve owner)

theorem resolve_of_not_bound (m : Reflects h f) (free : ¬Bound h i name) :
    f.resolve i name = none := by
  rw [m.bound_iff, not_exists] at free
  exact Option.eq_none_iff_forall_ne_some.2 free

theorem inside_of_scope (m : Reflects h f) {s : Scope} (at_i : f.scope? i = some s) :
    i < (History.parents h).length := by
  by_contra outside
  rw [← m.parents, Nat.not_lt] at outside
  rw [scope?_eq_none outside] at at_i
  cases at_i

theorem exists_scope (m : Reflects h f) (inside : i < (History.parents h).length) :
    ∃ s, f.scope? i = some s ∧ s.names = History.names h i := by
  obtain ⟨s, at_i⟩ := Forest.exists_scope (m.parents.symm ▸ inside)
  exact ⟨s, at_i, m.names i s at_i⟩

theorem contains (m : Reflects h f) (i : Nat) (name : String) :
    f.contains i name = true ↔ Bound h i name := by
  rw [m.bound_iff, Forest.contains, Option.isSome_iff_exists]

theorem get (m : Reflects h f) (bound : Bound h i name) :
    ∃ j v, (∀ k, Nearest h i name k ↔ k = j) ∧ (∀ w, LastWritten h j name w ↔ w = v) ∧
      f.get? i name = some v := by
  obtain ⟨j, owner⟩ := m.bound_iff.1 bound
  have has := binds_of_resolve owner
  rw [← isSome_own?, Option.isSome_iff_exists] at has
  obtain ⟨v, value⟩ := has
  refine ⟨j, v, m.nearest_iff_eq owner, fun w => ?_, ?_⟩
  · rw [← m.own, value, Option.some.injEq, eq_comm]
  · rw [get?_eq, owner, Option.bind_some, value]

theorem assign (m : Reflects h f) (bound : Bound h i name) (v : Value) (line : Option Int) :
    ∃ j g, (∀ k, Nearest h i name k ↔ k = j) ∧
      perform (.assign i name v line) f = .ok .done g ∧ Overwritten f g j name v ∧
      (∀ k line, Nearest h k name j → perform (.get k name line) g = .ok (.value v) g) ∧
      ∀ k n, ¬(n = name ∧ Nearest h k n j) → g.get? k n = f.get? k n := by
  obtain ⟨j, owner⟩ := m.bound_iff.1 bound
  have has := binds_of_resolve owner
  have inside := m.inside_of_resolve owner
  refine ⟨j, f.define j name v, m.nearest_iff_eq owner, perform_assign_of_some owner,
    overwritten_define has v, fun k line nearest => ?_, fun k n apart => ?_⟩
  · have seen : (f.define j name v).get? k name = some v := by
      rw [get?_define has inside, if_pos ⟨rfl, m.nearest_iff.1 nearest⟩]
    exact perform_get_of_some seen
  · rw [get?_define has inside, if_neg fun both => apart ⟨both.1, m.nearest_iff.2 both.2⟩]

theorem define (m : Reflects h f) (inside : i < (History.parents h).length) (name : String)
    (v : Value) :
    (Defined h i name ∧ Overwritten f (f.define i name v) i name v) ∨
      (¬Defined h i name ∧ Added f (f.define i name v) i name v) := by
  cases bound : f.binds i name with
  | true => exact .inl ⟨m.binds_iff.1 bound, overwritten_define bound v⟩
  | false =>
    refine .inr ⟨fun defd => ?_, added_define (m.parents.symm ▸ inside) bound v⟩
    rw [m.binds_iff.2 defd] at bound
    cases bound

theorem refused_get (m : Reflects h f) (free : ¬Bound h i name) (line : Option Int) :
    Refused (.get i name line) f name line := by
  have none : f.get? i name = none := by rw [get?_eq, m.resolve_of_not_bound free, Option.bind_none]
  exact ⟨_, perform_get_of_none none, rfl⟩

theorem refused_assign (m : Reflects h f) (free : ¬Bound h i name) (v : Value)
    (line : Option Int) : Refused (.assign i name v line) f name line :=
  ⟨_, perform_assign_of_none (m.resolve_of_not_bound free), rfl⟩

theorem text (m : Reflects h f) {js : List Nat} (lineage : Lineage h i js) :
    f.text i =
      " < ".intercalate (js.map fun j => "[" ++ ", ".intercalate (History.names h j) ++ "]") := by
  have shown : ((f.path i).filterMap f.scope?).map Scope.text =
      js.map fun j => "[" ++ ", ".intercalate (History.names h j) ++ "]" := by
    rw [m.path_of_lineage lineage, List.map_filterMap, ← List.filterMap_eq_map]
    refine List.filterMap_congr fun j mem => ?_
    obtain ⟨s, at_j, names⟩ := m.exists_scope (inside_of_lineage lineage j mem)
    rw [at_j, Function.comp_apply, ← names]
    rfl
  rw [Forest.text, shown]

end Reflects

/-- **The laws hold after every history.** -/
theorem lawful_of_possible (possible : Possible h) : Lawful h := by
  have m := reflects_after possible
  constructor
  case contains => exact fun i name => ⟨_, rfl, m.contains i name⟩
  case get =>
    intro i name line bound
    obtain ⟨j, v, nearest, last, value⟩ := m.get bound
    exact ⟨j, v, nearest, last, perform_get_of_some value⟩
  case get_refused => exact fun i name line free => m.refused_get free line
  case assign => exact fun i name v line bound => m.assign bound v line
  case assign_refused => exact fun i name v line free => m.refused_assign free v line
  case define => exact fun i name v inside => ⟨_, rfl, m.define inside name v⟩
  case names => exact fun i inside => m.exists_scope inside
  case kept =>
    intro later possible' i s at_i
    have m' := reflects_after possible'
    have inside : i < (History.parents (h ++ later)).length := by
      rw [History.parents, List.filterMap_append, List.length_append, ← History.parents]
      exact Nat.lt_add_right _ (m.inside_of_scope at_i)
    obtain ⟨t, at_i', names⟩ := m'.exists_scope inside
    refine ⟨t, at_i', ?_⟩
    rw [m.names i s at_i, names]
    exact names_prefix h later i
  case text => exact fun i js lineage => m.text lineage

/-- Two scopes below the same one. A name of theirs is assigned through both: through one of them
after it shadows the name. Another name is refused at first. -/
theorem lawful_of_possible_siblings :
    let h : List Request := [.grow none, .define 0 "a" (.str "1"), .grow (some 0), .grow (some 0),
      .assign 1 "a" (.str "2") none, .define 1 "a" (.str "3"), .assign 2 "b" .nil (some 7),
      .define 0 "b" .nil, .assign 1 "a" (.str "4") none, .assign 2 "a" (.str "5") none]
    Possible h ∧ Lawful h ∧ names h 0 = ["a", "b"] ∧
      (after h).get? 1 "a" = some (.str "4") ∧ (after h).get? 0 "a" = some (.str "5") := by
  intro h
  have possible : Possible h := by decide
  exact ⟨possible, lawful_of_possible possible, by decide, by decide +kernel, by decide +kernel⟩

end History

end Lox.Forest
