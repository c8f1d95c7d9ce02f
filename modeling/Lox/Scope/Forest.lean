import Lox.Eval.Failure
import Lox.Scope

/-!
# Forests of scopes

Scopes that live at the same time form a forest: each has at most one parent, made before it, and
may have many children. A name read in a scope means its binding in the nearest scope on the way
up. What is written to a scope is seen by all its descendants that do not shadow it.
-/

namespace Lox

/-- Scopes with parents. A scope is known by the number of scopes made before it. -/
structure Forest where
  nodes : List (Scope × Option Nat)
  /-- A parent is older than its children. -/
  parent_lt : ∀ {i : Nat} {s : Scope} {p : Nat}, nodes[i]? = some (s, some p) → p < i

namespace Forest

/-- No scopes. -/
def empty : Forest := ⟨[], by simp⟩

/-- The scope with this number. -/
def scope? (f : Forest) (i : Nat) : Option Scope := (f.nodes[i]?).map Prod.fst

/-- The numbers of a scope and its ancestors, nearest first. -/
def path (f : Forest) (i : Nat) : List Nat :=
  match _h : f.nodes[i]? with
  | none => []
  | some (_, none) => [i]
  | some (_, some p) => i :: f.path p
termination_by i
decreasing_by exact f.parent_lt ‹_›

/-- Adds an empty scope below the given one, or a root if there is no such scope. Its number is the
number of scopes before. -/
def grow (f : Forest) (parent : Option Nat) : Forest where
  nodes := f.nodes ++ [(.empty, parent.filter (· < f.nodes.length))]
  parent_lt := by
    intro i s p h
    rw [List.getElem?_append] at h
    split at h
    · exact f.parent_lt h
    · rw [List.getElem?_singleton] at h
      split at h
      · simp only [Option.some.injEq, Prod.mk.injEq, Option.filter_eq_some_iff] at h
        have := of_decide_eq_true h.2.2
        omega
      · simp at h

/-- Replaces a scope. -/
def modify (f : Forest) (i : Nat) (change : Scope → Scope) : Forest where
  nodes := f.nodes.modify i fun (s, p) => (change s, p)
  parent_lt := by
    intro j s p h
    rw [List.getElem?_modify] at h
    split at h
    · obtain ⟨⟨t, q⟩, ht, e⟩ := Option.map_eq_some_iff.1 h
      cases e
      exact f.parent_lt ht
    · obtain ⟨⟨t, q⟩, ht, e⟩ := Option.map_eq_some_iff.1 h
      cases e
      exact f.parent_lt ht

/-- Whether a scope itself binds a name. -/
def binds (f : Forest) (i : Nat) (name : String) : Bool := (f.scope? i).any (·.binds name)

/-- The nearest scope on the way up that binds a name. -/
def resolve (f : Forest) (i : Nat) (name : String) : Option Nat := (f.path i).find? (f.binds · name)

/-- Whether a name is bound on the way up. -/
def contains (f : Forest) (i : Nat) (name : String) : Bool := (f.resolve i name).isSome

/-- The value of a name in its nearest binding. -/
def get? (f : Forest) (i : Nat) (name : String) : Option Value := do
  let owner ← f.resolve i name
  let s ← f.scope? owner
  s.get? name

/-- Binds a name in the scope itself. -/
def define (f : Forest) (i : Nat) (name : String) (v : Value) : Forest :=
  f.modify i (·.define name v)

/-- Overwrites the nearest binding of a name, if there is one. -/
def assign? (f : Forest) (i : Nat) (name : String) (v : Value) : Option Forest :=
  (f.resolve i name).map fun owner => f.modify owner (·.define name v)

/-- The names of a scope and its ancestors. -/
def text (f : Forest) (i : Nat) : String :=
  " < ".intercalate (((f.path i).filterMap f.scope?).map Scope.text)

/-- What may be asked of scopes: to make another one, and to use one of them. Uses that may fail
come with a line to blame. -/
inductive Request where
  | grow (parent : Option Nat)
  | define (scope : Nat) (name : String) (v : Value)
  | assign (scope : Nat) (name : String) (v : Value) (line : Option Int)
  | get (scope : Nat) (name : String) (line : Option Int)
  | contains (scope : Nat) (name : String)
  deriving DecidableEq

/-- What is answered. A scope that is made is answered with its number. -/
inductive Answer where
  | scope (number : Nat)
  | done
  | value (v : Value)
  | truth (b : Bool)
  deriving DecidableEq

/-- Does what is asked. -/
def perform : Request → EStateM Failure Forest Answer
  | .grow parent => do
    let f ← get
    set (f.grow parent)
    return .scope f.nodes.length
  | .define i name v => do
    set ((← get).define i name v)
    return .done
  | .assign i name v line => do
    match (← get).assign? i name v with
    | some f =>
      set f
      return .done
    | none => throw (.undefined name line)
  | .get i name line => do
    match (← get).get? i name with
    | some v => return .value v
    | none => throw (.undefined name line)
  | .contains i name => return .truth ((← get).contains i name)

/-- The scopes after a request, also if it fails. -/
def next (f : Forest) (r : Request) : Forest :=
  match perform r f with
  | .ok _ f' => f'
  | .error _ f' => f'

/-- The scopes after a history of requests, with none before it. -/
def after (history : List Request) : Forest := history.foldl next empty

end Forest

end Lox
