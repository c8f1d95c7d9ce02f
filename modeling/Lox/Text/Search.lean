/-!
# Finding text

Where one text first occurs in another. An occurrence at `i` means that the text stands at the
beginning of what is left after `i` characters; none is found only if there is none.
-/

namespace Lox.Text

/-- Where a text first occurs in another. -/
def occurrence? (part : List Char) : List Char → Option Nat
  | [] => if part = [] then some 0 else none
  | c :: cs => if part.isPrefixOf (c :: cs) then some 0 else (occurrence? part cs).map (· + 1)

/-- What is found is an occurrence. -/
theorem exists_eq_of_occurrence? {part cs : List Char} {i : Nat}
    (h : occurrence? part cs = some i) :
    ∃ left right, cs = left ++ part ++ right ∧ left.length = i := by
  induction cs generalizing i with
  | nil =>
    unfold occurrence? at h
    split at h
    next e =>
      cases h
      exact ⟨[], [], by rw [e]; rfl, rfl⟩
    next => cases h
  | cons c cs ih =>
    unfold occurrence? at h
    split at h
    next e =>
      cases h
      obtain ⟨right, eq⟩ := List.isPrefixOf_iff_prefix.1 e
      exact ⟨[], right, eq.symm, rfl⟩
    next =>
      obtain ⟨j, found, rfl⟩ := Option.map_eq_some_iff.1 h
      obtain ⟨left, right, eq, length⟩ := ih found
      exact ⟨c :: left, right, by rw [eq]; rfl, by rw [← length]; rfl⟩

/-- Nothing is found only where the text does not occur. -/
theorem occurrence?_eq_none_iff {part cs : List Char} :
    occurrence? part cs = none ↔ ¬ part <:+: cs := by
  induction cs with
  | nil => by_cases h : part = [] <;> simp [occurrence?, h]
  | cons c cs ih =>
    unfold occurrence?
    rw [List.infix_cons_iff]
    by_cases h : part.isPrefixOf (c :: cs)
    · simp [h, List.isPrefixOf_iff_prefix.1 h]
    · have h' : ¬ part <+: c :: cs := fun e => h (List.isPrefixOf_iff_prefix.2 e)
      simp [h, h', ih]

end Lox.Text
