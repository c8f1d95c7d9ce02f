import Lox.Scope.Forest

/-!
# Scopes of a forest

What the operations on a forest do, in terms of what can be observed of it: the parent of each
scope, its names, and its own value of a name. Growing adds a scope without names. Writing changes
the own value of one name in one scope.
-/

namespace Lox

namespace Scope

variable {name : String}

theorem putBinding_of_mem {bs : List (String × Value)} (mem : name ∈ bs.map Prod.fst) (v : Value) :
    ∃ before w after, bs = before ++ (name, w) :: after ∧
      putBinding name v bs = before ++ (name, v) :: after := by
  induction bs with
  | nil => cases mem
  | cons b bs ih =>
    obtain ⟨n, w⟩ := b
    by_cases h : n = name
    · subst h
      exact ⟨[], w, bs, rfl, if_pos rfl⟩
    · have mem' : name ∈ bs.map Prod.fst := by
        rw [List.map_cons, List.mem_cons] at mem
        exact mem.resolve_left fun e => h e.symm
      obtain ⟨before, w', after, rfl, put⟩ := ih mem'
      refine ⟨(n, w) :: before, w', after, rfl, ?_⟩
      rw [putBinding, if_neg h, put]
      rfl

theorem putBinding_of_not_mem {bs : List (String × Value)} (new : name ∉ bs.map Prod.fst)
    (v : Value) : putBinding name v bs = bs ++ [(name, v)] := by
  induction bs with
  | nil => rfl
  | cons b bs ih =>
    rw [List.map_cons, List.mem_cons, not_or] at new
    rw [putBinding, if_neg fun e => new.1 e.symm, ih new.2]
    rfl

end Scope

namespace Forest

variable {f : Forest} {i : Nat} {name : String}

/-- The value that a scope itself binds a name to. -/
def own? (f : Forest) (i : Nat) (name : String) : Option Value := (f.scope? i).bind (·.get? name)

/-- The parents of the scopes, in the order in which these were made. -/
def parents (f : Forest) : List (Option Nat) := f.nodes.map Prod.snd

theorem isSome_own? (f : Forest) (i : Nat) (name : String) :
    (f.own? i name).isSome = f.binds i name := by
  rw [own?, binds]
  cases f.scope? i with
  | none => rfl
  | some s => exact s.isSome_get? name

theorem scope?_eq_none (outside : f.parents.length ≤ i) : f.scope? i = none := by
  rw [parents, List.length_map] at outside
  rw [scope?, List.getElem?_eq_none outside]
  rfl

theorem exists_scope (inside : i < f.parents.length) : ∃ s, f.scope? i = some s := by
  rw [parents, List.length_map] at inside
  exact ⟨_, congrArg (Option.map Prod.fst) (List.getElem?_eq_getElem inside)⟩

theorem own?_eq_none (outside : f.parents.length ≤ i) (name : String) : f.own? i name = none := by
  rw [own?, scope?_eq_none outside]
  rfl

/-! ### The way up -/

theorem path_eq (f : Forest) (i : Nat) :
    f.path i = match f.parents[i]? with
      | none => []
      | some none => [i]
      | some (some p) => i :: f.path p := by
  rw [path, parents, List.getElem?_map]
  split
  next h => rw [h]; rfl
  next h => rw [h]; rfl
  next h => rw [h]; rfl

theorem lt_of_parents {p : Nat} (h : f.parents[i]? = some (some p)) : p < i := by
  rw [parents, List.getElem?_map] at h
  obtain ⟨⟨s, q⟩, at_i, rfl⟩ := Option.map_eq_some_iff.1 h
  exact f.parent_lt at_i

/-- The way up depends on the parents only. -/
theorem path_congr {f g : Forest} (h : f.parents = g.parents) (i : Nat) : f.path i = g.path i := by
  induction i using Nat.strongRecOn with
  | ind i ih =>
    rw [path_eq, path_eq, h]
    split
    next => rfl
    next => rfl
    next p at_i => rw [ih p (lt_of_parents at_i)]

/-! ### Growing -/

theorem parents_grow (f : Forest) (parent : Option Nat) :
    (f.grow parent).parents = f.parents ++ [parent.filter (· < f.parents.length)] := by
  rw [parents, grow, List.map_append, parents, List.length_map]
  rfl

theorem scope?_grow (f : Forest) (parent : Option Nat) (k : Nat) :
    (f.grow parent).scope? k = if k = f.parents.length then some .empty else f.scope? k := by
  rw [scope?, grow, List.getElem?_append, parents, List.length_map]
  split
  next lt => rw [if_neg (Nat.ne_of_lt lt), scope?]
  next ge =>
    split
    next e => rw [e, Nat.sub_self]; rfl
    next ne =>
      have beyond : ¬k - f.nodes.length = 0 := by omega
      rw [scope?, List.getElem?_singleton, if_neg beyond, List.getElem?_eq_none (Nat.le_of_not_lt ge)]

theorem own?_grow (f : Forest) (parent : Option Nat) (k : Nat) (name : String) :
    (f.grow parent).own? k name = f.own? k name := by
  rw [own?, scope?_grow]
  split
  next e => rw [own?_eq_none (Nat.le_of_eq e.symm)]; rfl
  next => rfl

/-! ### Writing -/

variable {v : Value}

theorem getElem?_define (f : Forest) (i : Nat) (name : String) (v : Value) (k : Nat) :
    (f.define i name v).nodes[k]? =
      f.nodes[k]?.map fun n => if i = k then (n.1.define name v, n.2) else n :=
  List.getElem?_modify ..

theorem parents_define (f : Forest) (i : Nat) (name : String) (v : Value) :
    (f.define i name v).parents = f.parents := by
  refine List.ext_getElem? fun k => ?_
  rw [parents, parents, List.getElem?_map, List.getElem?_map, getElem?_define, Option.map_map]
  refine congrArg (Option.map · _) (funext fun n => ?_)
  show (ite _ _ _ : Scope × Option Nat).2 = n.2
  split <;> rfl

theorem scope?_define (f : Forest) (i : Nat) (name : String) (v : Value) (k : Nat) :
    (f.define i name v).scope? k = (f.scope? k).map fun s => if i = k then s.define name v else s := by
  rw [scope?, scope?, getElem?_define, Option.map_map, Option.map_map]
  refine congrArg (Option.map · _) (funext fun n => ?_)
  show (ite _ _ _ : Scope × Option Nat).1 = _
  split <;> rfl

theorem own?_define (inside : i < f.parents.length) (name : String) (v : Value) (k : Nat)
    (n : String) :
    (f.define i name v).own? k n = if k = i ∧ n = name then some v else f.own? k n := by
  rw [own?, scope?_define]
  by_cases at_i : k = i
  · subst at_i
    obtain ⟨s, at_k⟩ := exists_scope inside
    simp only [own?, at_k, Option.map_some, if_true, Option.bind_some, Scope.get?_define, true_and]
  · have ne : ¬i = k := fun e => at_i e.symm
    simp only [at_i, ne, if_false, false_and, Option.map_id_fun', id_eq, own?]

/-- The bindings of one scope are other ones, and nothing else differs. -/
structure Differs (f f' : Forest) (i : Nat) (old new : List (String × Value)) : Prop where
  others : ∀ k, k ≠ i → f'.nodes[k]? = f.nodes[k]?
  bindings : ∃ s s' parent, f.nodes[i]? = some (s, parent) ∧ f'.nodes[i]? = some (s', parent) ∧
    s.bindings = old ∧ s'.bindings = new

theorem differs_define {s : Scope} (at_i : f.scope? i = some s) {new : List (String × Value)}
    (put : Scope.putBinding name v s.bindings = new) :
    Differs f (f.define i name v) i s.bindings new where
  others k ne := by
    have ne' : ¬i = k := fun e => ne e.symm
    simp only [getElem?_define, ne', if_false, Option.map_id_fun', id_eq]
  bindings := by
    obtain ⟨⟨s, parent⟩, node, rfl⟩ := Option.map_eq_some_iff.1 at_i
    refine ⟨s, s.define name v, parent, node, ?_, rfl, put⟩
    rw [getElem?_define, node, Option.map_some, if_pos rfl]

/-- The value of one binding is another one, and nothing else differs. -/
def Overwritten (f f' : Forest) (i : Nat) (name : String) (v : Value) : Prop :=
  ∃ before w after, Differs f f' i (before ++ (name, w) :: after) (before ++ (name, v) :: after)

/-- A name is bound behind all others of its scope, and nothing else differs. -/
def Added (f f' : Forest) (i : Nat) (name : String) (v : Value) : Prop :=
  ∃ old, name ∉ old.map Prod.fst ∧ Differs f f' i old (old ++ [(name, v)])

theorem overwritten_define (bound : f.binds i name = true) (v : Value) :
    Overwritten f (f.define i name v) i name v := by
  obtain ⟨s, at_i, mem⟩ := (Option.any_eq_true ..).1 bound
  obtain ⟨before, w, after, old, new⟩ := Scope.putBinding_of_mem (of_decide_eq_true mem) v
  refine ⟨before, w, after, ?_⟩
  rw [← old]
  exact differs_define at_i new

theorem added_define (inside : i < f.parents.length) (new : f.binds i name = false) (v : Value) :
    Added f (f.define i name v) i name v := by
  obtain ⟨s, at_i⟩ := exists_scope inside
  rw [binds, at_i] at new
  have not_mem : name ∉ s.bindings.map Prod.fst := of_decide_eq_false new
  exact ⟨s.bindings, not_mem, differs_define at_i (Scope.putBinding_of_not_mem not_mem v)⟩

theorem assign?_eq (f : Forest) (i : Nat) (name : String) (v : Value) :
    f.assign? i name v = (f.resolve i name).map (f.define · name v) := rfl

theorem get?_eq (f : Forest) (i : Nat) (name : String) :
    f.get? i name = (f.resolve i name).bind (f.own? · name) := rfl

theorem binds_of_resolve {j : Nat} (h : f.resolve i name = some j) : f.binds j name = true := by
  rw [resolve, List.find?_eq_some_iff_append] at h
  exact h.1

/-! ### Requests -/

variable {line : Option Int}

theorem get_bind {α : Type} (next : Forest → EStateM Failure Forest α) :
    (do next (← get)) f = next f f := rfl

theorem perform_get_of_some (h : f.get? i name = some v) :
    perform (.get i name line) f = .ok (.value v) f := by
  rw [perform, get_bind, h]
  rfl

theorem perform_get_of_none (h : f.get? i name = none) :
    perform (.get i name line) f = .error (.undefined name line) f := by
  rw [perform, get_bind, h]
  rfl

theorem perform_assign_of_some {j : Nat} (h : f.resolve i name = some j) :
    perform (.assign i name v line) f = .ok .done (f.define j name v) := by
  rw [perform, get_bind, assign?_eq, h]
  rfl

theorem perform_assign_of_none (h : f.resolve i name = none) :
    perform (.assign i name v line) f = .error (.undefined name line) f := by
  rw [perform, get_bind, assign?_eq, h]
  rfl

theorem next_get (f : Forest) (i : Nat) (name : String) (line : Option Int) :
    f.next (.get i name line) = f := by
  rw [next]
  cases h : f.get? i name with
  | none => rw [perform_get_of_none h]
  | some v => rw [perform_get_of_some h]

end Forest

end Lox
