import Lox.Value

/-!
# Scopes

A scope binds names to values, in the order in which the names were first defined; no name is
bound twice. A chain of scopes runs from the innermost block out to the program: a name means its
innermost binding.
-/

namespace Lox

/-- The bindings of one block, in order of first definition. -/
structure Scope where
  bindings : List (String × Value)
  nodup : (bindings.map Prod.fst).Nodup
  deriving DecidableEq

namespace Scope

/-- No bindings. -/
def empty : Scope := ⟨[], List.nodup_nil⟩

instance : Inhabited Scope := ⟨empty⟩

/-- The names bound, in order of first definition. -/
def names (s : Scope) : List String := s.bindings.map Prod.fst

/-- The value that a name is bound to. -/
def get? (s : Scope) (name : String) : Option Value := s.bindings.lookup name

/-- Whether a name is bound. -/
def binds (s : Scope) (name : String) : Bool := name ∈ s.names

/-- The bindings with a name bound to a value: in its old place, or at the end if it is new. -/
def putBinding (name : String) (v : Value) : List (String × Value) → List (String × Value)
  | [] => [(name, v)]
  | (n, w) :: rest => if n = name then (n, v) :: rest else (n, w) :: putBinding name v rest

theorem map_fst_putBinding (name : String) (v : Value) (bs : List (String × Value)) :
    (putBinding name v bs).map Prod.fst =
      if name ∈ bs.map Prod.fst then bs.map Prod.fst else bs.map Prod.fst ++ [name] := by
  induction bs with
  | nil => simp [putBinding]
  | cons b bs ih =>
    obtain ⟨n, w⟩ := b
    by_cases h : n = name
    · simp [putBinding, h]
    · have h' : name ≠ n := fun e => h e.symm
      simp only [putBinding, h, if_false, List.map_cons, ih, List.mem_cons, h', false_or]
      split <;> simp

/-- Binds a name to a value. An old binding of the name is overwritten in place. -/
def define (s : Scope) (name : String) (v : Value) : Scope where
  bindings := putBinding name v s.bindings
  nodup := by
    rw [map_fst_putBinding]
    split
    · exact s.nodup
    next h =>
      rw [List.nodup_append]
      refine ⟨s.nodup, by simp, ?_⟩
      intro a ha b hb e
      simp only [List.mem_singleton] at hb
      exact h (hb ▸ e ▸ ha)

theorem names_define (s : Scope) (name : String) (v : Value) :
    (s.define name v).names = if name ∈ s.names then s.names else s.names ++ [name] :=
  map_fst_putBinding name v s.bindings

theorem lookup_putBinding (name : String) (v : Value) (bs : List (String × Value)) (n : String) :
    (putBinding name v bs).lookup n = if n = name then some v else bs.lookup n := by
  have ne {a b : String} (h : ¬a = b) : (a == b) = false := by simp [h]
  induction bs with
  | nil => by_cases hn : n = name <;> simp [putBinding, List.lookup_cons, hn, ne]
  | cons b bs ih =>
    obtain ⟨m, w⟩ := b
    by_cases h : m = name
    · subst h
      by_cases hn : n = m <;> simp [putBinding, List.lookup_cons, hn, ne]
    · by_cases hn : n = m
      · subst hn
        simp [putBinding, h]
      · simp [putBinding, h, List.lookup_cons, hn, ne, ih]

/-- Reading after writing: the name written has the value, others are as before. -/
theorem get?_define (s : Scope) (name : String) (v : Value) (n : String) :
    (s.define name v).get? n = if n = name then some v else s.get? n :=
  lookup_putBinding name v s.bindings n

/-- A name is bound exactly if it has a value. -/
theorem isSome_get? (s : Scope) (name : String) : (s.get? name).isSome = s.binds name := by
  rw [Bool.eq_iff_iff]
  simp only [get?, binds, names, List.lookup_isSome_iff, decide_eq_true_eq, List.mem_map]
  exact ⟨fun ⟨b, hb, e⟩ => ⟨b, hb, (beq_iff_eq.1 e).symm⟩, fun ⟨b, hb, e⟩ => ⟨b, hb, by simp [e]⟩⟩

/-- A scope with these bindings, later ones of the same name winning. -/
def ofList (bs : List (String × Value)) : Scope :=
  bs.foldl (fun s (name, v) => s.define name v) empty

/-- The names in brackets. -/
def text (s : Scope) : String := "[" ++ ", ".intercalate s.names ++ "]"

end Scope

/-- A chain of scopes, from the innermost out. -/
structure Chain where
  inner : Scope
  outer : List Scope
  deriving DecidableEq, Inhabited

namespace Chain

/-- A chain of one empty scope. -/
def global : Chain := ⟨.empty, []⟩

/-- All scopes, innermost first. -/
def scopes (c : Chain) : List Scope := c.inner :: c.outer

/-- The value of the innermost binding of a name. -/
def get? (c : Chain) (name : String) : Option Value := c.scopes.findSome? (·.get? name)

/-- Binds a name in the innermost scope. -/
def define (c : Chain) (name : String) (v : Value) : Chain :=
  { c with inner := c.inner.define name v }

/-- The scopes with the first binding of a name overwritten, if there is one. -/
def assignIn (name : String) (v : Value) : List Scope → Option (List Scope)
  | [] => none
  | s :: ss =>
    if s.binds name then some (s.define name v :: ss) else (assignIn name v ss).map (s :: ·)

/-- Overwrites the innermost binding of a name, if there is one. -/
def assign? (c : Chain) (name : String) (v : Value) : Option Chain :=
  if c.inner.binds name then some (c.define name v)
  else (assignIn name v c.outer).map fun outer => { c with outer }

/-- The chain within a new block. -/
def push (c : Chain) : Chain := ⟨.empty, c.scopes⟩

/-- The chain after a block. -/
def pop (c : Chain) : Chain :=
  match c.outer with
  | [] => c
  | s :: ss => ⟨s, ss⟩

@[simp] theorem pop_push (c : Chain) : c.push.pop = c := rfl

/-- Reading after a definition. -/
theorem get?_define (c : Chain) (name : String) (v : Value) (n : String) :
    (c.define name v).get? n = if n = name then some v else c.get? n := by
  simp only [get?, define, scopes, List.findSome?_cons, Scope.get?_define]
  by_cases h : n = name <;> simp [h]

/-- A new block sees what is bound around it. -/
theorem get?_push (c : Chain) (name : String) : c.push.get? name = c.get? name := by
  rfl

/-- Assigning treats all scopes of a chain alike. -/
theorem map_scopes_assign? (c : Chain) (name : String) (v : Value) :
    (c.assign? name v).map scopes = assignIn name v c.scopes := by
  rw [assign?, scopes, assignIn]
  split
  · rfl
  · cases assignIn name v c.outer <;> rfl

theorem isSome_assignIn (name : String) (v : Value) (ss : List Scope) :
    (assignIn name v ss).isSome = ss.any (·.binds name) := by
  induction ss with
  | nil => rfl
  | cons s ss ih =>
    by_cases h : s.binds name <;> simp [assignIn, h, ih]

/-- An assignment succeeds exactly if the name is bound. -/
theorem isSome_assign? (c : Chain) (name : String) (v : Value) :
    (c.assign? name v).isSome = (c.get? name).isSome := by
  have bound : (c.get? name).isSome = c.scopes.any (·.binds name) := by
    simp only [get?, List.isSome_findSome?, Scope.isSome_get?]
  rw [bound]
  by_cases h : c.inner.binds name <;> simp [assign?, scopes, h, isSome_assignIn]

/-- The names of each scope, from the innermost out. -/
def text (c : Chain) : String := " < ".intercalate (c.scopes.map Scope.text)

end Chain

end Lox
