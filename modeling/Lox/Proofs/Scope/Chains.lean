import Lox.Proofs.Scope.Forest
import Mathlib.Data.List.Basic

/-!
# Chains as seen from a scope

Evaluation carries the chain of scopes that it is in. Such a chain is what is seen of a forest from
one of its scopes (`Shows`), and what evaluation does to its chain is done to that scope of the
forest, where the other scopes below the same ancestors see it too.
-/

namespace Lox

namespace Forest

variable {f : Forest} {i : Nat} {c : Chain}

/-- The way up goes through older and older scopes. -/
theorem pairwise_path (f : Forest) (i : Nat) :
    (f.path i).Pairwise (· > ·) ∧ ∀ k ∈ f.path i, k ≤ i := by
  induction i using Nat.strongRecOn with
  | ind i ih =>
    rw [path_eq]
    split
    next => exact ⟨.nil, fun _ mem => nomatch mem⟩
    next => exact ⟨List.pairwise_singleton .., fun _ mem => Nat.le_of_eq (List.mem_singleton.1 mem)⟩
    next p h =>
      have lt := lt_of_parents h
      have above := ih p lt
      constructor
      · exact .cons (fun k mem => Nat.lt_of_le_of_lt (above.2 k mem) lt) above.1
      · intro k mem
        rcases List.mem_cons.1 mem with rfl | mem
        · exact Nat.le_refl k
        · exact Nat.le_of_lt (Nat.lt_of_le_of_lt (above.2 k mem) lt)

theorem mem_path (inside : i < f.parents.length) : ∃ rest, f.path i = i :: rest := by
  rw [path_eq]
  split
  next none => exact absurd inside (Nat.not_lt.2 (List.getElem?_eq_none_iff.1 none))
  next => exact ⟨[], rfl⟩
  next p _ => exact ⟨f.path p, rfl⟩

theorem path_grow (parent : Option Nat) (inside : i < f.parents.length) :
    (f.grow parent).path i = f.path i := by
  induction i using Nat.strongRecOn with
  | ind i ih =>
    rw [path_eq, path_eq, parents_grow, List.getElem?_append_left inside]
    split
    next => rfl
    next => rfl
    next p at_i =>
      have lt := lt_of_parents at_i
      rw [ih p lt (Nat.lt_trans lt inside)]

/-! ### Scopes along a way -/

/-- The scopes along a way. -/
def along (f : Forest) (js : List Nat) : List Scope := js.filterMap f.scope?

theorem along_cons {s : Scope} (at_i : f.scope? i = some s) (js : List Nat) :
    f.along (i :: js) = s :: f.along js := List.filterMap_cons_some at_i

theorem along_cons_none (at_i : f.scope? i = none) (js : List Nat) :
    f.along (i :: js) = f.along js := List.filterMap_cons_none at_i

theorem along_define_of_not_mem {js : List Nat} (apart : i ∉ js) (name : String) (v : Value) :
    (f.define i name v).along js = f.along js := by
  refine List.filterMap_congr fun k mem => ?_
  have ne : ¬i = k := fun e => apart (e ▸ mem)
  simp only [scope?_define, ne, if_false, Option.map_id_fun', id_eq]

theorem findSome?_along (f : Forest) (name : String) (js : List Nat) :
    (f.along js).findSome? (·.get? name) =
      (js.find? (f.binds · name)).bind (f.own? · name) := by
  induction js with
  | nil => rfl
  | cons k js ih =>
    cases at_k : f.scope? k with
    | none =>
      have free : f.binds k name = false := by rw [binds, at_k]; rfl
      rw [along_cons_none at_k, List.find?_cons, free, ih]
    | some s =>
      have own : f.own? k name = s.get? name := by rw [own?, at_k]; rfl
      rw [along_cons at_k, List.findSome?_cons, List.find?_cons, ← isSome_own?, own]
      cases value : s.get? name with
      | none => exact ih
      | some v => exact (own.trans value).symm

theorem assignIn_along {js : List Nat} (nodup : js.Nodup) (name : String) (v : Value) :
    Chain.assignIn name v (f.along js) =
      (js.find? (f.binds · name)).map fun j => (f.define j name v).along js := by
  induction js with
  | nil => rfl
  | cons k js ih =>
    rw [List.nodup_cons] at nodup
    have others := ih nodup.2
    cases at_k : f.scope? k with
    | none =>
      have free : f.binds k name = false := by rw [binds, at_k]; rfl
      rw [along_cons_none at_k, List.find?_cons, free, others]
      refine congrArg (Option.map · _) (funext fun j => ?_)
      rw [along_cons_none]
      rw [scope?_define, at_k]
      rfl
    | some s =>
      have same : f.binds k name = s.binds name := by rw [binds, at_k]; rfl
      rw [along_cons at_k, Chain.assignIn, List.find?_cons, same]
      cases s.binds name with
      | true =>
        have at_k' : (f.define k name v).scope? k = some (s.define name v) := by
          rw [scope?_define, at_k, Option.map_some, if_pos rfl]
        rw [if_pos rfl, Option.map_some, along_cons at_k', along_define_of_not_mem nodup.1]
      | false =>
        rw [if_neg Bool.false_ne_true, others, Option.map_map]
        refine Option.map_congr fun j found => ?_
        -- the owner is further on, so the first scope stays as it is
        have ne : ¬j = k := fun e => nodup.1 (e ▸ List.mem_of_find?_eq_some found)
        have at_k' : (f.define j name v).scope? k = some s := by
          rw [scope?_define, at_k, Option.map_some, if_neg ne]
        exact (along_cons at_k' js).symm

/-! ### Seeing a chain -/

/-- The scope and its ancestors are those of the chain. -/
def Shows (f : Forest) (i : Nat) (c : Chain) : Prop := f.along (f.path i) = c.scopes

namespace Shows

theorem inside (shows : Shows f i c) : i < f.parents.length := by
  by_contra outside
  rw [Shows, path_eq, List.getElem?_eq_none (Nat.not_lt.1 outside)] at shows
  cases shows

theorem cases (shows : Shows f i c) :
    ∃ rest, f.path i = i :: rest ∧ i ∉ rest ∧ f.scope? i = some c.inner ∧ f.along rest = c.outer := by
  obtain ⟨rest, path⟩ := mem_path shows.inside
  obtain ⟨s, at_i⟩ := exists_scope shows.inside
  have older := (pairwise_path f i).1
  rw [path, List.pairwise_cons] at older
  rw [Shows, path, along_cons at_i, Chain.scopes, List.cons.injEq] at shows
  refine ⟨rest, path, fun mem => Nat.lt_irrefl i (older.1 i mem), ?_, shows.2⟩
  rw [at_i, shows.1]

/-- Names mean the same in the scope and in the chain. -/
theorem get? (shows : Shows f i c) (name : String) : f.get? i name = c.get? name := by
  rw [get?_eq, resolve, ← findSome?_along, shows, Chain.get?]

/-- Defining in the chain is defining in the scope. -/
theorem define (shows : Shows f i c) (name : String) (v : Value) :
    Shows (f.define i name v) i (c.define name v) := by
  obtain ⟨rest, path, apart, at_i, outer⟩ := shows.cases
  have at_i' : (f.define i name v).scope? i = some (c.inner.define name v) := by
    rw [scope?_define, at_i, Option.map_some, if_pos rfl]
  rw [Shows, path_congr (parents_define ..), path, along_cons at_i', along_define_of_not_mem apart,
    outer]
  rfl

/-- Assigning in the chain is assigning in the scope: both fail, or both lead to the same again. -/
theorem assign? (shows : Shows f i c) (name : String) (v : Value) :
    Option.Rel (Shows · i ·) (f.assign? i name v) (c.assign? name v) := by
  have nodup : (f.path i).Nodup := (pairwise_path f i).1.imp fun gt => Nat.ne_of_gt gt
  have both := c.map_scopes_assign? name v
  rw [← shows, assignIn_along nodup, ← resolve] at both
  rw [assign?_eq]
  cases owner : f.resolve i name with
  | none =>
    rw [owner, Option.map_none, Option.map_eq_none_iff] at both
    rw [both]
    exact .none
  | some j =>
    rw [owner, Option.map_some, Option.map_eq_some_iff] at both
    obtain ⟨c', assigned, scopes⟩ := both
    rw [assigned]
    refine .some ?_
    rw [Shows, path_congr (parents_define ..), scopes]

/-- A block is a scope below. -/
theorem push (shows : Shows f i c) :
    Shows (f.grow (some i)) f.parents.length c.push := by
  have older : (some i).filter (· < f.parents.length) = some i :=
    if_pos (decide_eq_true shows.inside)
  have new : (f.grow (some i)).parents[f.parents.length]? = some (some i) := by
    rw [parents_grow, older, List.getElem?_concat_length]
  have at_new : (f.grow (some i)).scope? f.parents.length = some .empty := by
    rw [scope?_grow, if_pos rfl]
  have same : (f.grow (some i)).along (f.path i) = f.along (f.path i) := by
    refine List.filterMap_congr fun k mem => ?_
    have lt := Nat.lt_of_le_of_lt ((pairwise_path f i).2 k mem) shows.inside
    rw [scope?_grow, if_neg (Nat.ne_of_lt lt)]
  rw [Shows, path_eq, new]
  show (f.grow (some i)).along (f.parents.length :: (f.grow (some i)).path i) = _
  rw [along_cons at_new, path_grow _ shows.inside, same, shows]
  rfl

/-- After the block there is the scope above. -/
theorem pop (shows : Shows f i c) {p : Nat} (below : f.parents[i]? = some (some p)) :
    Shows f p c.pop := by
  obtain ⟨rest, path, -, -, outer⟩ := shows.cases
  have rest_eq : rest = f.path p := by
    rw [path_eq, below] at path
    exact (List.cons.inj path).2.symm
  obtain ⟨s, at_p⟩ := exists_scope (Nat.lt_trans (lt_of_parents below) shows.inside)
  obtain ⟨above, path_p⟩ := mem_path (Nat.lt_trans (lt_of_parents below) shows.inside)
  rw [rest_eq, path_p, along_cons at_p] at outer
  rw [Shows, path_p, along_cons at_p, outer, Chain.pop, ← outer]
  rfl

end Shows

end Forest

end Lox
