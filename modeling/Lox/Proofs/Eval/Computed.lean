import Lox.Proofs.Eval.BigStep
import Lox.Proofs.Eval.Failures
import Lox.Proofs.Eval.Scopes

/-!
# What the evaluator computes with

The relations on scopes, values and operators that the rules of the semantics use are those that
the evaluator computes: each is the graph of one of its functions. Where a function fails, the
relation for its failure tells the problem that is reported, provided that the operator is one of
the grammar.
-/

namespace Lox.Semantics

variable {name : String} {v w u : Value}

/-! ### Scopes -/

theorem mem_names_iff {s : Scope} : name ∈ s.names ↔ ∃ v, s.get? name = some v := by
  rw [← Option.isSome_iff_exists, Scope.isSome_get?]
  simp [Scope.binds]

theorem get?_eq_none_iff {s : Scope} : s.get? name = none ↔ name ∉ s.names := by
  rw [mem_names_iff, ← Option.isSome_iff_exists, Option.not_isSome_iff_eq_none]

theorem bound_iff {scopes : List Scope} :
    Bound name v scopes ↔ scopes.findSome? (·.get? name) = some v := by
  constructor
  · intro bound
    induction bound with
    | here mem => rw [List.findSome?_cons, Scope.get?_eq_some_iff.2 mem]
    | further fresh _ ih => rw [List.findSome?_cons, get?_eq_none_iff.2 fresh, ih]
  · intro found
    induction scopes with
    | nil => cases found
    | cons s scopes ih =>
      rw [List.findSome?_cons] at found
      cases value : s.get? name with
      | some w =>
        rw [value] at found
        cases found
        exact .here (Scope.get?_eq_some_iff.1 value)
      | none =>
        rw [value] at found
        exact .further (get?_eq_none_iff.1 value) (ih found)

theorem unbound_iff {scopes : List Scope} :
    Unbound name scopes ↔ scopes.findSome? (·.get? name) = none := by
  simp only [Unbound, List.findSome?_eq_none_iff, get?_eq_none_iff]

/-- Binding a name overwrites the binding that there is, or adds one. -/
theorem putBinding_eq {bs : List (String × Value)} (nodup : (bs.map Prod.fst).Nodup) :
    Scope.putBinding name v bs =
      if name ∈ bs.map Prod.fst then bs.map fun b => if b.1 = name then (name, v) else b
      else bs ++ [(name, v)] := by
  induction bs with
  | nil => rfl
  | cons b bs ih =>
    obtain ⟨m, x⟩ := b
    rw [List.map_cons, List.nodup_cons] at nodup
    by_cases h : m = name
    · subst h
      -- no name is bound twice, so the others are not touched
      have others : (bs.map fun b => if b.1 = m then (m, v) else b) = bs := by
        refine (List.map_congr_left fun b mem => if_neg fun e => nodup.1 ?_).trans (List.map_id bs)
        exact List.mem_map.2 ⟨b, mem, e⟩
      simp [Scope.putBinding, others]
    · have h' : name ≠ m := fun e => h e.symm
      simp only [Scope.putBinding, h, if_false, ih nodup.2, List.map_cons, List.mem_cons, h',
        false_or]
      split <;> rfl

theorem written_iff {s s' : Scope} : Written name v s s' ↔ s.define name v = s' := by
  have defined : (s.define name v).bindings =
      if name ∈ s.names then s.bindings.map fun b => if b.1 = name then (name, v) else b
      else s.bindings ++ [(name, v)] := putBinding_eq s.nodup
  constructor
  · rintro (⟨bound, bindings⟩ | ⟨fresh, bindings⟩)
    · rw [if_pos bound] at defined
      exact Scope.ext_bindings (defined.trans bindings.symm)
    · rw [if_neg fresh] at defined
      exact Scope.ext_bindings (defined.trans bindings.symm)
  · rintro rfl
    by_cases bound : name ∈ s.names
    · rw [if_pos bound] at defined
      exact .old bound defined
    · rw [if_neg bound] at defined
      exact .new bound defined

theorem assigned_iff_assignIn {scopes scopes' : List Scope} :
    Assigned name v scopes scopes' ↔ Chain.assignIn name v scopes = some scopes' := by
  constructor
  · intro assigned
    induction assigned with
    | here bound written =>
      rw [Chain.assignIn, if_pos (by simpa [Scope.binds] using bound), written_iff.1 written]
    | further fresh _ ih =>
      rw [Chain.assignIn, if_neg (by simpa [Scope.binds] using fresh), ih]
      rfl
  · intro assigned
    induction scopes generalizing scopes' with
    | nil => cases assigned
    | cons s scopes ih =>
      rw [Chain.assignIn] at assigned
      split at assigned
      next bound =>
        cases assigned
        exact .here (by simpa [Scope.binds] using bound) (written_iff.2 rfl)
      next fresh =>
        obtain ⟨outer, within, rfl⟩ := Option.map_eq_some_iff.1 assigned
        exact .further (by simpa [Scope.binds] using fresh) (ih within)

theorem assigned_iff {c c' : Chain} :
    Assigned name v c.scopes c'.scopes ↔ c.assign? name v = some c' := by
  rw [assigned_iff_assignIn, Chain.scopes, Chain.scopes, Chain.assignIn, Chain.assign?]
  obtain ⟨inner', outer'⟩ := c'
  split
  · simp [Chain.define]
  · simp [Option.map_eq_some_iff]

theorem unbound_iff_assign? {c : Chain} : Unbound name c.scopes ↔ c.assign? name v = none := by
  rw [unbound_iff, ← Option.not_isSome_iff_eq_none, ← Option.not_isSome_iff_eq_none,
    Chain.isSome_assign?, Chain.get?]

/-! ### Values -/

theorem truthy_iff : Truthy v ↔ v.isTruthy = true := by
  cases v <;> simp [Truthy]

theorem not_truthy_iff : ¬ Truthy v ↔ v.isTruthy = false := by
  rw [truthy_iff, Bool.not_eq_true]

theorem compared_iff {b : Bool} : Compared v w b ↔ v.equals w = b := by
  constructor
  · rintro (⟨⟩ | _ | _ | _ | differ)
    · rfl
    · rfl
    · rfl
    · rfl
    · cases v <;> cases w <;> first | rfl | exact absurd rfl differ
  · rintro rfl
    cases v <;> cases w <;> first | exact .mixed (by simp [typeOf]) | constructor

/-! ### Operators -/

theorem denotes_iff {token : Token} : Denotes token v ↔ Operator.literal token = .ok v := by
  constructor
  · rintro (k | k | k | k | k) <;> simp [Operator.literal, k]
  · intro done
    unfold Operator.literal at done
    split at done <;> cases done
    next k => exact .number k
    next k => exact .string k
    next k => exact .true k
    next k => exact .false k
    next k => exact .nil k

theorem negates_iff {operator : Token} :
    Negates operator v w ↔ Operator.unary operator v = .ok w := by
  constructor
  · rintro (⟨x, k⟩ | ⟨k, truthy⟩ | ⟨k, falsy⟩)
    · simp [Operator.unary, k]
    · simp [Operator.unary, k, truthy_iff.1 truthy]
    · simp [Operator.unary, k, not_truthy_iff.1 falsy]
  · intro done
    unfold Operator.unary at done
    split at done
    next k =>
      cases v <;> cases done
      exact .minus _ k
    next k =>
      cases done
      cases truthy : v.isTruthy with
      | true => exact .truthy k (truthy_iff.2 truthy)
      | false => exact .falsy k (not_truthy_iff.2 truthy)
    next => cases done

/-- Two numbers are combined. -/
theorem onNumbers_eq_ok {operator : Token} {f : Float → Float → Value} :
    Operator.onNumbers operator f v w = .ok u ↔ ∃ x y, v = .num x ∧ w = .num y ∧ f x y = u := by
  unfold Operator.onNumbers
  split
  · simp
  next other =>
    constructor
    · intro done
      cases done
    · rintro ⟨x, y, rfl, rfl, -⟩
      exact (other x y rfl rfl).elim

theorem combines_iff {operator : Token} :
    Combines operator v w u ↔ Operator.binary operator v w = .ok u := by
  constructor
  · rintro (⟨x, y, k⟩ | ⟨a, b, k⟩ | ⟨x, y, k⟩ | ⟨x, y, k⟩ | ⟨x, y, k⟩ | ⟨x, y, k⟩ | ⟨x, y, k⟩ |
      ⟨x, y, k⟩ | ⟨x, y, k⟩ | ⟨k, compared⟩ | ⟨k, compared⟩)
    case equal | unequal => simp [Operator.binary, k, compared_iff.1 compared]
    all_goals simp [Operator.binary, Operator.onNumbers, Operator.divide, k]
  · intro done
    unfold Operator.binary at done
    split at done
    case h_1 k =>
      split at done <;> cases done
      · exact .sum _ _ k
      · exact .text _ _ k
    case h_9 k =>
      cases done
      exact .equal k (compared_iff.2 rfl)
    case h_10 k =>
      cases done
      exact .unequal k (compared_iff.2 rfl)
    case h_11 => cases done
    all_goals obtain ⟨x, y, rfl, rfl, rfl⟩ := onNumbers_eq_ok.1 done
    case h_2 k => exact .difference x y k
    case h_3 k => exact .product x y k
    case h_4 k => exact .quotient x y k
    case h_5 k => exact .greater x y k
    case h_6 k => exact .greaterEqual x y k
    case h_7 k => exact .less x y k
    case h_8 k => exact .lessEqual x y k

/-! ### Problems -/

theorem atToken_eq_refusal {operator : Token} (h : operator.kind ≠ .eof) (message : String) :
    Diagnostic.atToken .runtime operator message = refusal operator message := by
  rw [Diagnostic.atToken, if_neg h]
  rfl

theorem RefusesOne.exists_cause {operator : Token} {d : Diagnostic} (h : RefusesOne operator v d) :
    ∃ cause, Operator.unary operator v = .error cause ∧ cause.diagnostic = d := by
  obtain ⟨k, type⟩ := h
  refine ⟨.operandNotNumber operator, ?_, atToken_eq_refusal (by rw [k]; decide) _⟩
  cases v <;> simp_all [Operator.unary, typeOf]

/-- An operator before an operand fails only if the operand has the wrong type. -/
theorem refusesOne_of_error {operator : Token} {cause : Failure}
    (known : operator.kind ∈ [Kind.bang, .minus])
    (failed : Operator.unary operator v = .error cause) :
    RefusesOne operator v cause.diagnostic := by
  have located := Operator.unary_locatedAt known failed
  unfold Operator.unary at failed
  split at failed
  next k =>
    have problem (type : typeOf v ≠ .num) :
        RefusesOne operator v (Failure.operandNotNumber operator).diagnostic := by
      rw [Failure.diagnostic, atToken_eq_refusal (by rw [k]; decide)]
      exact .minus k type
    cases v <;> cases failed <;> exact problem (by simp [typeOf])
  next => cases failed
  next =>
    cases failed
    exact located.elim

theorem onNumbers_of_types {operator : Token} {f : Float → Float → Value}
    (types : ¬ (typeOf v = .num ∧ typeOf w = .num)) :
    Operator.onNumbers operator f v w = .error (.operandsNotNumbers operator) := by
  unfold Operator.onNumbers
  split
  · exact absurd ⟨rfl, rfl⟩ types
  · rfl

theorem types_of_onNumbers {operator : Token} {f : Float → Float → Value} {cause : Failure}
    (failed : Operator.onNumbers operator f v w = .error cause) :
    cause = .operandsNotNumbers operator ∧ ¬ (typeOf v = .num ∧ typeOf w = .num) := by
  unfold Operator.onNumbers at failed
  split at failed
  · cases failed
  next other =>
    cases failed
    refine ⟨rfl, ?_⟩
    cases v <;> cases w <;> simp [typeOf]
    exact other _ _ rfl rfl

theorem RefusesTwo.exists_cause {operator : Token} {d : Diagnostic}
    (h : RefusesTwo operator v w d) :
    ∃ cause, Operator.binary operator v w = .error cause ∧ cause.diagnostic = d := by
  rcases h with ⟨k, numbers, strings⟩ | ⟨kinds, types⟩
  · refine ⟨.operandsMismatch operator, ?_, atToken_eq_refusal (by rw [k]; decide) _⟩
    cases v <;> cases w <;> simp_all [Operator.binary, typeOf]
  · have ne_eof : operator.kind ≠ .eof := by
      intro e
      rw [e] at kinds
      revert kinds
      decide
    refine ⟨.operandsNotNumbers operator, ?_, atToken_eq_refusal ne_eof _⟩
    simp only [List.mem_cons, List.not_mem_nil, or_false] at kinds
    rcases kinds with k | k | k | k | k | k | k <;>
      simp only [Operator.binary, k, onNumbers_of_types types]

/-- An operator between operands fails only if these have the wrong types. -/
theorem refusesTwo_of_error {operator : Token} {cause : Failure}
    (known : operator.kind.infixLevel?.isSome)
    (failed : Operator.binary operator v w = .error cause) :
    RefusesTwo operator v w cause.diagnostic := by
  have ne_eof : operator.kind ≠ .eof := by
    intro e
    rw [e] at known
    cases known
  have numeric {f : Float → Float → Value} (mem : operator.kind ∈ [Kind.minus, .star, .slash,
      .greater, .greaterEqual, .less, .lessEqual])
      (failed : Operator.onNumbers operator f v w = .error cause) :
      RefusesTwo operator v w cause.diagnostic := by
    obtain ⟨rfl, types⟩ := types_of_onNumbers failed
    rw [Failure.diagnostic, atToken_eq_refusal ne_eof]
    exact .numeric mem types
  have located := Operator.binary_locatedAt known failed
  unfold Operator.binary at failed
  split at failed
  case h_1 k =>
    have problem (numbers : ¬ (typeOf v = .num ∧ typeOf w = .num))
        (strings : ¬ (typeOf v = .str ∧ typeOf w = .str)) :
        RefusesTwo operator v w (Failure.operandsMismatch operator).diagnostic := by
      rw [Failure.diagnostic, atToken_eq_refusal ne_eof]
      exact .plus k numbers strings
    split at failed <;> cases failed
    next numbers strings =>
      refine problem ?_ ?_ <;> cases v <;> cases w <;> simp_all [typeOf]
  case h_9 | h_10 => cases failed
  case h_11 =>
    cases failed
    exact located.elim
  all_goals exact numeric (by simp [*]) failed

end Lox.Semantics
