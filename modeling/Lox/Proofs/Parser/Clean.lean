import Lox.Parser.Rule

/-!
# Replies without complaint

`Reply.done value rest` is the reply of a parser that found a value and nothing to complain about.
Each combinator of parsers gives such a reply exactly if its parts do, one after the other; a
complaint anywhere stays in the reply.
-/

namespace Lox.Parser

variable {α β : Type}

namespace Reply

@[simp] theorem done_eq_done {v w : α} {rest rest' : List Token} :
    done v rest = done w rest' ↔ v = w ∧ rest = rest' := by
  simp [done]

@[simp] theorem failed_ne_done {cause : Cause} {v : α} {rest rest' : List Token} :
    failed cause rest ≠ done v rest' := by
  simp [failed, done]

theorem bind_eq_done {r : Reply α} {next : α → List Token → Reply β} {value : β}
    {rest : List Token} :
    r.bind next = done value rest ↔
      ∃ a mid, r = done a mid ∧ next a mid = done value rest := by
  obtain ⟨complaints, outcome⟩ := r
  cases outcome with
  | done a mid =>
    constructor
    · intro h
      obtain ⟨rfl, clean⟩ := List.append_eq_nil_iff.1 (congrArg Reply.complaints h)
      exact ⟨a, mid, rfl, by rw [← h]; rfl⟩
    · rintro ⟨b, m, h, hnext⟩
      cases h
      exact hnext
  | failed cause mid => simp [bind, done]
  | tooDeep mid => simp [bind, done]

theorem bind_bind {γ : Type} (r : Reply α) (f : α → List Token → Reply β)
    (g : β → List Token → Reply γ) :
    (r.bind f).bind g = r.bind fun v rest => (f v rest).bind g := by
  obtain ⟨complaints, outcome⟩ := r
  cases outcome with
  | done v rest =>
    show ((f v rest).after complaints).bind g = ((f v rest).bind g).after complaints
    obtain ⟨complaints', outcome'⟩ := f v rest
    cases outcome' <;> simp [after, bind]
  | failed cause rest => rfl
  | tooDeep rest => rfl

/-- Going on with nothing but the value and the tokens left changes nothing. -/
theorem bind_done_self (r : Reply α) : (r.bind fun v rest => done v rest) = r := by
  obtain ⟨complaints, outcome⟩ := r
  cases outcome <;> simp [bind, after, done]

end Reply

theorem bind_eq_done {p : Parser α} {next : α → Parser β} {ts rest : List Token} {value : β} :
    (p >>= next) ts = .done value rest ↔
      ∃ a mid, p ts = .done a mid ∧ next a mid = .done value rest :=
  Reply.bind_eq_done

theorem map_eq_done {p : Parser α} {f : α → β} {ts rest : List Token} {value : β} :
    (f <$> p) ts = .done value rest ↔ ∃ a, p ts = .done a rest ∧ f a = value := by
  refine bind_eq_done.trans ?_
  constructor
  · rintro ⟨a, mid, h, e⟩
    obtain ⟨rfl, rfl⟩ := Reply.done_eq_done.1 e
    exact ⟨a, h, rfl⟩
  · rintro ⟨a, h, rfl⟩
    exact ⟨a, rest, h, rfl⟩

theorem expect_eq_done {kind : Kind} {cause : Cause} {ts rest : List Token} {t : Token} :
    expect kind cause ts = .done t rest ↔ ts = t :: rest ∧ t.kind = kind := by
  cases ts with
  | nil => simp [expect]
  | cons u ts =>
    simp only [expect, List.cons.injEq]
    split
    next h =>
      rw [Reply.done_eq_done]
      constructor
      · rintro ⟨rfl, rfl⟩
        exact ⟨⟨rfl, rfl⟩, h⟩
      · exact And.left
    next h =>
      constructor
      · intro e
        exact absurd e Reply.failed_ne_done
      · rintro ⟨⟨rfl, -⟩, k⟩
        exact absurd k h

/-- A complaint is never taken back. -/
theorem complain_bind_ne_done {c : Complaint} {next : Unit → Parser β} {ts rest : List Token}
    {value : β} : (complain c >>= next) ts ≠ .done value rest := by
  intro h
  obtain ⟨_, _, e, -⟩ := bind_eq_done.1 h
  cases e

end Lox.Parser
