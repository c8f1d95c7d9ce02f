import Lox.Proofs.Scope.Forest
import Mathlib.Data.List.Induction

/-!
# Histories of a forest

What scopes are after a history of requests is told here without them, by the requests alone: which
scopes there are and below which others they were made (`parents`, `Lineage`), which names they
bind (`Defined`, `names`), which binding a name means in a scope (`Nearest`), and what was last
written to a binding (`LastWritten`). Then every history is followed request by request: the forest
is what its history tells (`Reflects`).
-/

namespace Lox.Forest.History

/-! ### What a history tells -/

/-- The parent that a scope is made with. -/
def parent? : Request → Option (Option Nat)
  | .grow parent => some parent
  | _ => none

/-- The parents of the scopes made, in their order. -/
def parents (h : List Request) : List (Option Nat) := h.filterMap parent?

/-- The scope that a request is about. For a scope to be made, this is its parent. -/
def subject? : Request → Option Nat
  | .grow parent => parent
  | .define i _ _ | .assign i _ _ _ | .get i _ _ | .contains i _ => some i

/-- Every request is about a scope that was made before it. -/
def Possible (h : List Request) : Prop :=
  ∀ k (lt : k < h.length), ∀ i ∈ subject? h[k], i < (parents (h.take k)).length

instance (h : List Request) : Decidable (Possible h) := by unfold Possible; infer_instance

/-- A scope and its ancestors, nearest first. -/
inductive Lineage (h : List Request) : Nat → List Nat → Prop
  | root {i : Nat} : (parents h)[i]? = some none → Lineage h i [i]
  | child {i p : Nat} {js : List Nat} :
      (parents h)[i]? = some (some p) → Lineage h p js → Lineage h i (i :: js)

/-- A name was defined in the scope. -/
def Defined (h : List Request) (i : Nat) (name : String) : Prop := ∃ v, Request.define i name v ∈ h

/-- A name was defined in the scope or one of its ancestors. -/
def Bound (h : List Request) (i : Nat) (name : String) : Prop :=
  ∃ js, Lineage h i js ∧ ∃ j ∈ js, Defined h j name

/-- Of the scope `i` and its ancestors, `j` is the nearest in which the name was defined. -/
def Nearest (h : List Request) (i : Nat) (name : String) (j : Nat) : Prop :=
  Defined h j name ∧
    ∃ before after, Lineage h i (before ++ j :: after) ∧ ∀ k ∈ before, ¬Defined h k name

/-- What a request writes after a history: to which scope, to which name, and the value. -/
inductive Writes (h : List Request) : Request → Nat → String → Value → Prop
  | define {i : Nat} {name : String} {v : Value} : Writes h (.define i name v) i name v
  | assign {i j : Nat} {name : String} {v : Value} {line : Option Int} :
      Nearest h i name j → Writes h (.assign i name v line) j name v

/-- The value last written to a name of a scope. -/
inductive LastWritten : List Request → Nat → String → Value → Prop
  | written {h : List Request} {r : Request} {i : Nat} {name : String} {v : Value} :
      Writes h r i name v → LastWritten (h ++ [r]) i name v
  | kept {h : List Request} {r : Request} {i : Nat} {name : String} {v : Value} :
      LastWritten h i name v → (∀ w, ¬Writes h r i name w) → LastWritten (h ++ [r]) i name v

/-- The name that a request defines in the scope. -/
def defined? (i : Nat) : Request → Option String
  | .define j name _ => if j = i then some name else none
  | _ => none

/-- The names of a scope, in the order of their first definitions. -/
def names (h : List Request) (i : Nat) : List String := (h.filterMap (defined? i)).eraseDups

/-! ### One more request -/

variable {h : List Request} {r : Request} {f : Forest} {i j : Nat} {name : String} {v : Value}

theorem parents_snoc (h : List Request) (r : Request) :
    parents (h ++ [r]) = parents h ++ (parent? r).toList := by
  rw [parents, List.filterMap_append, parents, List.filterMap_cons]
  cases parent? r <;> rfl

theorem possible_snoc :
    Possible (h ++ [r]) ↔ Possible h ∧ ∀ i ∈ subject? r, i < (parents h).length := by
  constructor
  · intro possible
    constructor
    · intro k lt i about
      have lt' : k < (h ++ [r]).length := by rw [List.length_append]; omega
      have made := possible k lt' i (by rwa [List.getElem_append_left lt])
      rwa [List.take_append_of_le_length (Nat.le_of_lt lt)] at made
    · intro i about
      have made := possible h.length (by simp) i (by rwa [List.getElem_concat_length rfl])
      rwa [List.take_left] at made
  · rintro ⟨possible, last⟩ k lt i about
    rw [List.length_append, List.length_singleton] at lt
    rcases Nat.lt_succ_iff_lt_or_eq.1 lt with lt' | rfl
    · rw [List.getElem_append_left lt'] at about
      rw [List.take_append_of_le_length (Nat.le_of_lt lt')]
      exact possible k lt' i about
    · rw [List.getElem_concat_length rfl] at about
      rw [List.take_left]
      exact last i about

theorem lastWritten_snoc :
    LastWritten (h ++ [r]) i name v ↔
      Writes h r i name v ∨ LastWritten h i name v ∧ ∀ w, ¬Writes h r i name w := by
  constructor
  · intro last
    generalize whole : h ++ [r] = h' at last
    cases last with
    | written writes =>
      obtain ⟨rfl, rfl⟩ := List.append_singleton_inj.1 whole
      exact .inl writes
    | kept last others =>
      obtain ⟨rfl, rfl⟩ := List.append_singleton_inj.1 whole
      exact .inr ⟨last, others⟩
  · rintro (writes | ⟨last, others⟩)
    · exact .written writes
    · exact .kept last others

theorem not_lastWritten_nil : ¬LastWritten [] i name v := by
  intro last
  generalize whole : ([] : List Request) = h at last
  cases last <;> exact List.concat_ne_nil _ _ whole.symm

theorem Defined.append (defd : Defined h i name) (later : List Request) :
    Defined (h ++ later) i name :=
  defd.imp fun _ mem => List.mem_append_left _ mem

theorem not_writes_grow {parent : Option Nat} : ¬Writes h (.grow parent) i name v := by
  rintro ⟨⟩

theorem not_writes_get {k : Nat} {n : String} {line : Option Int} :
    ¬Writes h (.get k n line) i name v := by
  rintro ⟨⟩

theorem not_writes_contains {k : Nat} {n : String} : ¬Writes h (.contains k n) i name v := by
  rintro ⟨⟩

theorem defined_of_writes (writes : Writes h r i name v) : Defined (h ++ [r]) i name := by
  cases writes with
  | define => exact ⟨v, List.mem_append_right _ (List.mem_singleton_self _)⟩
  | assign nearest => exact nearest.1.append _

/-- What was defined has a last value, and nothing else has. -/
theorem exists_lastWritten : (∃ v, LastWritten h i name v) ↔ Defined h i name := by
  induction h using List.reverseRecOn with
  | nil =>
    constructor
    · rintro ⟨v, last⟩
      exact absurd last not_lastWritten_nil
    · rintro ⟨v, mem⟩
      cases mem
  | append_singleton h r ih =>
    constructor
    · rintro ⟨v, last⟩
      rcases lastWritten_snoc.1 last with writes | ⟨last, -⟩
      · exact defined_of_writes writes
      · exact (ih.1 ⟨v, last⟩).append [r]
    · rintro ⟨v, mem⟩
      -- whether the last request writes depends on the forest, if it is an assignment
      by_cases writes : ∃ w, Writes h r i name w
      · exact writes.imp fun w => .written
      · rcases List.mem_append.1 mem with mem | mem
        · obtain ⟨w, last⟩ := ih.2 ⟨v, mem⟩
          exact ⟨w, .kept last fun w' writes' => writes ⟨w', writes'⟩⟩
        · cases List.mem_singleton.1 mem
          exact absurd ⟨v, .define⟩ writes

/-! ### The names of a scope -/

theorem mem_names : name ∈ names h i ↔ Defined h i name := by
  rw [names, List.mem_eraseDups, List.mem_filterMap]
  constructor
  · rintro ⟨r, mem, defines⟩
    cases r with
    | define k n v =>
      rw [defined?] at defines
      split at defines
      next e =>
        cases defines
        exact ⟨v, e ▸ mem⟩
      next => cases defines
    | _ => cases defines
  · rintro ⟨v, mem⟩
    exact ⟨_, mem, if_pos rfl⟩

theorem eraseDups_snoc (ns : List String) (name : String) :
    (ns ++ [name]).eraseDups =
      if name ∈ ns.eraseDups then ns.eraseDups else ns.eraseDups ++ [name] := by
  rw [List.eraseDups_append]
  by_cases old : name ∈ ns <;> simp [List.removeAll, List.eraseDups_cons, old]

theorem names_snoc (h : List Request) (r : Request) (i : Nat) :
    names (h ++ [r]) i = match defined? i r with
      | none => names h i
      | some name => if name ∈ names h i then names h i else names h i ++ [name] := by
  rw [names, List.filterMap_append, List.filterMap_cons]
  cases defined? i r with
  | none => rw [List.filterMap_nil, List.append_nil, names]
  | some name => exact eraseDups_snoc _ name

/-- Names of a scope keep their places. -/
theorem names_prefix (h later : List Request) (i : Nat) : names h i <+: names (h ++ later) i := by
  rw [names, names, List.filterMap_append, List.eraseDups_append]
  exact List.prefix_append ..

/-! ### The forest is what its history tells -/

/-- The forest has the parents, names and values that a history tells of. -/
structure Reflects (h : List Request) (f : Forest) : Prop where
  parents : f.parents = parents h
  names : ∀ i s, f.scope? i = some s → s.names = names h i
  own : ∀ i name v, f.own? i name = some v ↔ LastWritten h i name v

namespace Reflects

theorem binds_iff (m : Reflects h f) : f.binds i name = true ↔ Defined h i name := by
  rw [← isSome_own?, Option.isSome_iff_exists, ← exists_lastWritten]
  exact exists_congr fun v => m.own i name v

theorem lineage_path (m : Reflects h f) (inside : i < (History.parents h).length) :
    Lineage h i (f.path i) := by
  induction i using Nat.strongRecOn with
  | ind i ih =>
    rw [path_eq, m.parents]
    cases at_i : (History.parents h)[i]? with
    | none => exact absurd inside (Nat.not_lt.2 (List.getElem?_eq_none_iff.1 at_i))
    | some parent =>
      cases parent with
      | none => exact .root at_i
      | some p =>
        have lt : p < i := lt_of_parents (by rw [m.parents, at_i])
        exact .child at_i (ih p lt (Nat.lt_trans lt inside))

theorem path_of_lineage (m : Reflects h f) {js : List Nat} (lineage : Lineage h i js) :
    f.path i = js := by
  induction lineage with
  | root at_i => rw [path_eq, m.parents, at_i]
  | child at_i _ ih =>
    rw [path_eq, m.parents, at_i]
    exact congrArg _ ih

theorem lineage_iff (m : Reflects h f) (inside : j ∈ f.path i) {js : List Nat} :
    Lineage h i js ↔ f.path i = js := by
  constructor
  · exact m.path_of_lineage
  · rintro rfl
    refine m.lineage_path ?_
    by_contra outside
    rw [path_eq, m.parents, List.getElem?_eq_none (Nat.not_lt.1 outside)] at inside
    cases inside

theorem nearest_iff (m : Reflects h f) : Nearest h i name j ↔ f.resolve i name = some j := by
  rw [resolve, List.find?_eq_some_iff_append, m.binds_iff, Nearest]
  refine and_congr_right fun _ => exists_congr fun before => exists_congr fun after => ?_
  have passed : (∀ k ∈ before, (!f.binds k name) = true) ↔ ∀ k ∈ before, ¬Defined h k name := by
    refine forall_congr' fun k => imp_congr_right fun _ => ?_
    rw [Bool.not_eq_true', ← Bool.not_eq_true, m.binds_iff]
  rw [passed]
  refine and_congr_left fun _ => ⟨m.path_of_lineage, fun path => ?_⟩
  have inside : j ∈ f.path i := path ▸ List.mem_append_right _ (List.mem_cons_self ..)
  exact (m.lineage_iff inside).2 path

/-- A name is bound exactly if it has a nearest binding. -/
theorem bound_iff (m : Reflects h f) : Bound h i name ↔ ∃ j, f.resolve i name = some j := by
  rw [← Option.isSome_iff_exists, resolve, List.find?_isSome]
  constructor
  · rintro ⟨js, lineage, j, mem, defd⟩
    exact ⟨j, m.path_of_lineage lineage ▸ mem, m.binds_iff.2 defd⟩
  · rintro ⟨j, mem, bound⟩
    exact ⟨f.path i, (m.lineage_iff mem).2 rfl, j, mem, m.binds_iff.1 bound⟩

theorem inside_of_binds (m : Reflects h f) (bound : f.binds i name = true) :
    i < (History.parents h).length := by
  by_contra outside
  rw [← m.parents, Nat.not_lt] at outside
  rw [← isSome_own?, own?_eq_none outside] at bound
  cases bound

/-- A scope that is not made yet has no names. -/
theorem names_eq_nil (m : Reflects h f) (outside : (History.parents h).length ≤ i) :
    History.names h i = [] := by
  refine List.eq_nil_iff_forall_not_mem.2 fun name mem => ?_
  exact Nat.not_lt.2 outside (m.inside_of_binds (m.binds_iff.2 (mem_names.1 mem)))

/-! ### One more request keeps to that -/

theorem empty : Reflects [] Forest.empty where
  parents := rfl
  names i s at_i := by cases at_i
  own i name v := by
    constructor
    · intro own
      cases own
    · exact fun last => absurd last not_lastWritten_nil

/-- A request that makes nothing and writes nothing. -/
theorem idle (m : Reflects h f) (makes : parent? r = none) (defines : ∀ i, defined? i r = none)
    (writes : ∀ i name v, ¬Writes h r i name v) : Reflects (h ++ [r]) f where
  parents := by rw [parents_snoc, makes, m.parents]; exact (List.append_nil _).symm
  names i s at_i := by rw [names_snoc, defines]; exact m.names i s at_i
  own i name v := by
    rw [lastWritten_snoc, m.own]
    exact ⟨fun last => .inr ⟨last, writes i name⟩,
      fun last => (last.resolve_left (writes i name v)).1⟩

theorem grow (m : Reflects h f) {parent : Option Nat}
    (fits : ∀ p ∈ parent, p < (History.parents h).length) :
    Reflects (h ++ [.grow parent]) (f.grow parent) where
  parents := by
    have older : parent.filter (· < (History.parents h).length) = parent := by
      cases parent with
      | none => rfl
      | some p => exact if_pos (decide_eq_true (fits p rfl))
    rw [parents_grow, parents_snoc, m.parents, older]
    rfl
  names i s at_i := by
    rw [names_snoc]
    rw [scope?_grow] at at_i
    split at at_i
    next e =>
      cases at_i
      exact (m.names_eq_nil (Nat.le_of_eq (m.parents ▸ e.symm))).symm
    next => exact m.names i s at_i
  own i name v := by
    rw [own?_grow, m.own, lastWritten_snoc]
    exact ⟨fun last => .inr ⟨last, fun w => not_writes_grow⟩,
      fun last => (last.resolve_left not_writes_grow).1⟩

/-- A request that writes to one name of a scope, which is new or was there. -/
theorem write (m : Reflects h f) (inside : j < (History.parents h).length) (makes : parent? r = none)
    (names : ∀ i, History.names (h ++ [r]) i =
      if i = j ∧ name ∉ History.names h i then History.names h i ++ [name] else History.names h i)
    (writes : ∀ i n w, Writes h r i n w ↔ (i = j ∧ n = name) ∧ w = v) :
    Reflects (h ++ [r]) (f.define j name v) where
  parents := by
    rw [parents_define, parents_snoc, makes, m.parents]
    exact (List.append_nil _).symm
  names i s at_i := by
    rw [scope?_define] at at_i
    obtain ⟨t, before, rfl⟩ := Option.map_eq_some_iff.1 at_i
    have before := m.names i t before
    rw [names, ← before]
    by_cases e : j = i
    · subst e
      rw [if_pos rfl, Scope.names_define]
      by_cases old : name ∈ t.names <;> simp [old]
    · have ne : ¬i = j := fun e' => e e'.symm
      rw [if_neg e, if_neg fun both => ne both.1]
  own i n w := by
    rw [own?_define (m.parents ▸ inside), lastWritten_snoc, writes]
    by_cases here : i = j ∧ n = name
    · rw [if_pos here]
      constructor
      · rintro ⟨rfl⟩
        exact .inl ⟨here, rfl⟩
      · rintro (⟨-, rfl⟩ | ⟨-, others⟩)
        · rfl
        · exact absurd ((writes ..).2 ⟨here, rfl⟩) (others v)
    · rw [if_neg here, m.own]
      constructor
      · exact fun last => .inr ⟨last, fun w' writes' => here ((writes ..).1 writes').1⟩
      · rintro (⟨here', -⟩ | ⟨last, -⟩)
        · exact absurd here' here
        · exact last

/-- **One step.** A request about a scope that is there does to the forest what it adds to the
history. -/
theorem next (m : Reflects h f) (fits : ∀ i ∈ subject? r, i < (History.parents h).length) :
    Reflects (h ++ [r]) (f.next r) := by
  cases r with
  | grow parent => exact m.grow fits
  | define i name v =>
    refine m.write (fits i rfl) rfl (fun k => ?_) fun k n w => ?_
    · rw [names_snoc, defined?]
      by_cases e : i = k
      · subst e
        by_cases old : name ∈ History.names h i <;> simp [old]
      · have ne : ¬k = i := fun e' => e e'.symm
        rw [if_neg e, if_neg fun both => ne both.1]
    · constructor
      · intro writes
        cases writes
        exact ⟨⟨rfl, rfl⟩, rfl⟩
      · rintro ⟨⟨rfl, rfl⟩, rfl⟩
        exact .define
  | assign i name v line =>
    rw [Forest.next]
    cases owner : f.resolve i name with
    | none =>
      rw [perform_assign_of_none owner]
      refine m.idle rfl (fun _ => rfl) fun k n w writes => ?_
      cases writes with
      | assign nearest =>
        rw [m.nearest_iff, owner] at nearest
        cases nearest
    | some j =>
      rw [perform_assign_of_some owner]
      have bound := binds_of_resolve owner
      refine m.write (m.inside_of_binds bound) rfl (fun k => ?_) fun k n w => ?_
      · -- the owner has the name already, so no name is added
        have old : name ∈ History.names h j := mem_names.2 (m.binds_iff.1 bound)
        rw [names_snoc, if_neg]
        · rfl
        · rintro ⟨rfl, new⟩
          exact new old
      · constructor
        · intro writes
          cases writes with
          | assign nearest =>
            rw [m.nearest_iff, owner] at nearest
            cases nearest
            exact ⟨⟨rfl, rfl⟩, rfl⟩
        · rintro ⟨⟨rfl, rfl⟩, rfl⟩
          exact .assign (m.nearest_iff.2 owner)
  | get i name line =>
    rw [next_get]
    exact m.idle rfl (fun _ => rfl) fun _ _ _ => not_writes_get
  | contains i name => exact m.idle rfl (fun _ => rfl) fun _ _ _ => not_writes_contains

end Reflects

/-- **All steps.** After a history the forest is what the history tells. -/
theorem reflects_after (possible : Possible h) : Reflects h (after h) := by
  induction h using List.reverseRecOn with
  | nil => exact .empty
  | append_singleton h r ih =>
    rw [possible_snoc] at possible
    rw [after, List.foldl_append]
    exact (ih possible.1).next possible.2

end Lox.Forest.History
