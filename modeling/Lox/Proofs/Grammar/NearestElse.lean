import Lox.Proofs.Grammar.Loose

/-!
# Every `else` with the nearest conditional

The grammar as it is written down is ambiguous: in `if (a) if (b) x; else y;` the `else` may belong
to either conditional. A parser gives it to the nearest one. Nothing is lost by this. Each tree of
the grammar has another with the same written form in which every `else` belongs to the nearest
conditional (`Stmt.nearest`): a branch that the outer conditional has too much goes to the innermost
conditional at the end of the first branch (`Stmt.giveElse`).
-/

namespace Lox.Stmt

mutual

/-- Every `else` belongs to the nearest conditional before it. -/
def ElseNearest : Stmt → Prop
  | ifElse _ yes no => yes.endsOpen = false ∧ yes.ElseNearest ∧ no.ElseNearest
  | ifThen _ yes => yes.ElseNearest
  | loop _ body => body.ElseNearest
  | block body => AllElseNearest body
  | expression _ | print _ | var _ _ | foreign _ => True

/-- Every `else` in the statements belongs to the nearest conditional before it. -/
def AllElseNearest : List Stmt → Prop
  | [] => True
  | s :: ss => s.ElseNearest ∧ AllElseNearest ss

end

/-- Gives a second branch to the innermost conditional at the end of the statement. -/
def giveElse (no : Stmt) : Stmt → Stmt
  | ifThen condition yes =>
    if yes.endsOpen then .ifThen condition (giveElse no yes) else .ifElse condition yes no
  | ifElse condition yes no' => .ifElse condition yes (giveElse no no')
  | loop condition body => .loop condition (giveElse no body)
  | s => s

mutual

/-- The statement with every `else` given to the nearest conditional. -/
def nearest : Stmt → Stmt
  | ifElse condition yes no =>
    if yes.nearest.endsOpen then .ifThen condition (giveElse no.nearest yes.nearest)
    else .ifElse condition yes.nearest no.nearest
  | ifThen condition yes => .ifThen condition yes.nearest
  | loop condition body => .loop condition body.nearest
  | block body => .block (nearestAll body)
  | s => s

/-- The statements with every `else` given to the nearest conditional. -/
def nearestAll : List Stmt → List Stmt
  | [] => []
  | s :: ss => s.nearest :: nearestAll ss

end

theorem nearestAll_eq_map (ss : List Stmt) : nearestAll ss = ss.map nearest := by
  induction ss with
  | nil => rfl
  | cons s ss ih => rw [nearestAll, ih, List.map_cons]

/-! ### One more branch -/

/-- A statement that can take the place of another: it is written with these symbols, the bad
equals signs in it are these, and it declares a variable or does not. -/
structure Writes (s : Stmt) (symbols : List Symbol) (signs : List Token) (declares : Bool) :
    Prop where
  loose : s.Loose
  elseNearest : s.ElseNearest
  isVar : s.isVar = declares
  flatten : s.flatten = symbols
  badEquals : s.badEquals = signs

theorem giveElse_writes {no : Stmt} (hno : no.Loose) (nearest_no : no.ElseNearest)
    (statement : no.isVar = false) : ∀ {s : Stmt}, s.Loose → s.ElseNearest → s.endsOpen = true →
      (giveElse no s).Writes (s.flatten ++ .implied .kwElse :: no.flatten)
        (s.badEquals ++ no.badEquals) false
  | .ifThen c yes, ⟨hc, notVar, hyes⟩, nearest_yes, _ => by
    unfold giveElse
    split
    next isOpen =>
      have inner := giveElse_writes hno nearest_no statement hyes nearest_yes isOpen
      refine ⟨⟨hc, inner.isVar, inner.loose⟩, inner.elseNearest, rfl, ?_, ?_⟩
      · simp only [flatten, inner.flatten, List.cons_append, List.append_assoc]
      · simp only [badEquals, inner.badEquals, List.append_assoc]
    next closed =>
      refine ⟨⟨hc, ⟨notVar, hyes⟩, statement, hno⟩,
        ⟨Bool.eq_false_iff.2 closed, nearest_yes, nearest_no⟩, rfl, ?_, ?_⟩
      · simp only [flatten, List.cons_append, List.append_assoc]
      · simp only [badEquals, List.append_assoc]
  | .ifElse c yes no', ⟨hc, hyes, _, hno'⟩, ⟨closed, nearest_yes, nearest_no'⟩, isOpen => by
    have inner := giveElse_writes hno nearest_no statement hno' nearest_no' isOpen
    refine ⟨⟨hc, hyes, inner.isVar, inner.loose⟩, ⟨closed, nearest_yes, inner.elseNearest⟩, rfl,
      ?_, ?_⟩
    · simp only [giveElse, flatten, inner.flatten, List.cons_append, List.append_assoc]
    · simp only [giveElse, badEquals, inner.badEquals, List.append_assoc]
  | .loop c body, ⟨hc, _, hbody⟩, nearest_body, isOpen => by
    have inner := giveElse_writes hno nearest_no statement hbody nearest_body isOpen
    refine ⟨⟨hc, inner.isVar, inner.loose⟩, inner.elseNearest, rfl, ?_, ?_⟩
    · simp only [giveElse, flatten, inner.flatten, List.cons_append, List.append_assoc]
    · simp only [giveElse, badEquals, inner.badEquals, List.append_assoc]

/-! ### All statements -/

mutual

/-- **Moving every `else` to the nearest conditional** changes neither what is written nor which
equals signs are bad. -/
theorem nearest_writes : ∀ {s : Stmt}, s.Loose → s.nearest.Writes s.flatten s.badEquals s.isVar
  | .expression _, h | .print _, h | .var _ _, h => ⟨h, trivial, rfl, rfl, rfl⟩
  | .block body, h => by
    obtain ⟨loose, elseNearest, flatten, badEquals⟩ := nearestAll_writes h
    refine ⟨loose, elseNearest, rfl, ?_, badEquals⟩
    simp only [nearest, Stmt.flatten, flatten]
  | .ifThen c yes, ⟨hc, notVar, hyes⟩ => by
    have inner := nearest_writes hyes
    refine ⟨⟨hc, inner.isVar.trans notVar, inner.loose⟩, inner.elseNearest, rfl, ?_, ?_⟩
    · simp only [nearest, flatten, inner.flatten]
    · simp only [nearest, badEquals, inner.badEquals]
  | .ifElse c yes no, ⟨hc, ⟨notVar, hyes⟩, notVar', hno⟩ => by
    have first := nearest_writes hyes
    have second := nearest_writes hno
    have statement := second.isVar.trans notVar'
    unfold nearest
    split
    next isOpen =>
      have given := giveElse_writes second.loose second.elseNearest statement first.loose
        first.elseNearest isOpen
      refine ⟨⟨hc, given.isVar, given.loose⟩, given.elseNearest, rfl, ?_, ?_⟩
      · simp only [flatten, given.flatten, first.flatten, second.flatten]
      · simp only [badEquals, given.badEquals, first.badEquals, second.badEquals]
    next closed =>
      refine ⟨⟨hc, ⟨first.isVar.trans notVar, first.loose⟩, statement, second.loose⟩,
        ⟨Bool.eq_false_iff.2 closed, first.elseNearest, second.elseNearest⟩, rfl, ?_, ?_⟩
      · simp only [flatten, first.flatten, second.flatten]
      · simp only [badEquals, first.badEquals, second.badEquals]
  | .loop c body, ⟨hc, notVar, hbody⟩ => by
    have inner := nearest_writes hbody
    refine ⟨⟨hc, inner.isVar.trans notVar, inner.loose⟩, inner.elseNearest, rfl, ?_, ?_⟩
    · simp only [nearest, flatten, inner.flatten]
    · simp only [nearest, badEquals, inner.badEquals]
  | .foreign _, h => h.elim

theorem nearestAll_writes : ∀ {ss : List Stmt}, AllLoose ss →
    AllLoose (nearestAll ss) ∧ AllElseNearest (nearestAll ss) ∧
      flattenAll (nearestAll ss) = flattenAll ss ∧ badEqualsAll (nearestAll ss) = badEqualsAll ss
  | [], _ => ⟨trivial, trivial, rfl, rfl⟩
  | s :: ss, ⟨hs, hss⟩ => by
    have first := nearest_writes hs
    obtain ⟨loose, elseNearest, flatten, badEquals⟩ := nearestAll_writes hss
    refine ⟨⟨first.loose, loose⟩, ⟨first.elseNearest, elseNearest⟩, ?_, ?_⟩
    · simp only [nearestAll, flattenAll, first.flatten, flatten]
    · simp only [nearestAll, badEqualsAll, first.badEquals, badEquals]

end

mutual

/-- Where every `else` belongs to the nearest conditional there is nothing to move. -/
theorem ElseNearest.nearest_eq : ∀ {s : Stmt}, s.ElseNearest → s.nearest = s
  | .expression _, _ | .print _, _ | .var _ _, _ | .foreign _, _ => rfl
  | .block body, h => by rw [nearest, AllElseNearest.nearestAll_eq h]
  | .ifThen c yes, h => by rw [nearest, ElseNearest.nearest_eq (s := yes) h]
  | .ifElse c yes no, ⟨closed, hyes, hno⟩ => by
    rw [nearest, hyes.nearest_eq, hno.nearest_eq, closed]
    rfl
  | .loop c body, h => by rw [nearest, ElseNearest.nearest_eq (s := body) h]

theorem AllElseNearest.nearestAll_eq : ∀ {ss : List Stmt}, AllElseNearest ss → nearestAll ss = ss
  | [], _ => rfl
  | s :: ss, ⟨hs, hss⟩ => by rw [nearestAll, hs.nearest_eq, hss.nearestAll_eq]

end

end Lox.Stmt
