/-!
# Splitting text

A text is split at the characters of a class: at newlines into lines, at blanks into words. There
is always one part more than there are such characters (`length_split`), and splitting a text at
one of them splits what comes before and after it on its own (`split_append_cons`).
-/

namespace Lox.Text

/-- The parts of a text between the characters of a class. -/
def split (p : Char → Bool) : List Char → List (List Char)
  | [] => [[]]
  | c :: cs =>
    if p c then [] :: split p cs
    else match split p cs with
      | [] => [[c]]
      | part :: parts => (c :: part) :: parts

/-- The lines of a text. A newline separates lines. -/
def lines (cs : List Char) : List (List Char) := split (· == '\n') cs

theorem split_ne_nil (p : Char → Bool) (cs : List Char) : split p cs ≠ [] := by
  cases cs with
  | nil => simp [split]
  | cons c cs =>
    unfold split
    split
    · simp
    · split <;> simp

/-- A character outside the class joins the first part. -/
theorem split_cons_of_not {p : Char → Bool} {c : Char} (h : p c = false) {cs part : List Char}
    {parts : List (List Char)} (hs : split p cs = part :: parts) :
    split p (c :: cs) = (c :: part) :: parts := by
  simp [split, h, hs]

theorem split_cons_of_pos {p : Char → Bool} {c : Char} (h : p c = true) (cs : List Char) :
    split p (c :: cs) = [] :: split p cs := by
  simp [split, h]

theorem length_split (p : Char → Bool) (cs : List Char) :
    (split p cs).length = cs.countP p + 1 := by
  induction cs with
  | nil => rfl
  | cons c cs ih =>
    by_cases h : p c
    · rw [split_cons_of_pos h, List.length_cons, ih, List.countP_cons_of_pos h]
    · obtain ⟨part, parts, hs⟩ := List.exists_cons_of_ne_nil (split_ne_nil p cs)
      rw [split_cons_of_not (by simpa using h) hs, List.countP_cons_of_neg h, ← ih, hs]
      rfl

/-- Splitting at one character of the class splits both sides on their own. -/
theorem split_append_cons {p : Char → Bool} {c : Char} (h : p c = true) (before after : List Char) :
    split p (before ++ c :: after) = split p before ++ split p after := by
  induction before with
  | nil => exact split_cons_of_pos h after
  | cons d ds ih =>
    by_cases hd : p d
    · rw [List.cons_append, split_cons_of_pos hd, split_cons_of_pos hd, ih, List.cons_append]
    · obtain ⟨part, parts, hs⟩ := List.exists_cons_of_ne_nil (split_ne_nil p ds)
      have hd' : p d = false := by simpa using hd
      have joined : split p (ds ++ c :: after) = part :: (parts ++ split p after) := by
        rw [ih, hs, List.cons_append]
      rw [List.cons_append, split_cons_of_not hd' hs, split_cons_of_not hd' joined,
        List.cons_append]

/-- No part holds a character of the class. -/
theorem eq_false_of_mem_split {p : Char → Bool} {cs part : List Char} (h : part ∈ split p cs) :
    ∀ c ∈ part, p c = false := by
  induction cs generalizing part with
  | nil =>
    have e : part = [] := by simpa [split] using h
    simp [e]
  | cons c cs ih =>
    by_cases hc : p c
    · rw [split_cons_of_pos hc] at h
      cases List.mem_cons.1 h with
      | inl e => simp [e]
      | inr h => exact ih h
    · obtain ⟨first, parts, hs⟩ := List.exists_cons_of_ne_nil (split_ne_nil p cs)
      rw [split_cons_of_not (by simpa using hc) hs] at h
      cases List.mem_cons.1 h with
      | inl e =>
        subst e
        intro d hd
        cases List.mem_cons.1 hd with
        | inl e => rw [e]; simpa using hc
        | inr hd => exact ih (hs ▸ List.mem_cons_self) d hd
      | inr h => exact ih (hs ▸ List.mem_cons_of_mem _ h)

/-- A character outside the class is in one of the parts. -/
theorem exists_mem_split {p : Char → Bool} {c : Char} {cs : List Char} (mem : c ∈ cs)
    (h : p c = false) : ∃ part ∈ split p cs, c ∈ part := by
  induction cs with
  | nil => cases mem
  | cons d cs ih =>
    by_cases hd : p d
    · rw [split_cons_of_pos hd]
      have later : c ∈ cs := (List.mem_cons.1 mem).resolve_left fun eq => by simp [← eq, h] at hd
      obtain ⟨part, among, inside⟩ := ih later
      exact ⟨part, List.mem_cons_of_mem _ among, inside⟩
    · obtain ⟨first, parts, hs⟩ := List.exists_cons_of_ne_nil (split_ne_nil p cs)
      rw [split_cons_of_not (by simpa using hd) hs]
      rcases List.mem_cons.1 mem with rfl | later
      · exact ⟨_, List.mem_cons_self, List.mem_cons_self⟩
      · obtain ⟨part, among, inside⟩ := ih later
        rw [hs] at among
        rcases List.mem_cons.1 among with rfl | among
        · exact ⟨_, List.mem_cons_self, List.mem_cons_of_mem _ inside⟩
        · exact ⟨part, List.mem_cons_of_mem _ among, inside⟩

end Lox.Text
