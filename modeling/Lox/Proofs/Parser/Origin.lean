import Lox.Proofs.Parser.Kinds

/-!
# Parsing makes up no tokens

Every token that a statement keeps, that is complained about, or at which nesting went over the
limit, is one of the tokens that were parsed. The proof does not look at the rules again. Parsing
lets every change of tokens through that keeps their kinds (`Parsed.ofTokens_map`). A change that
moves exactly the tokens outside of the list leaves the list as it is, and so it leaves what is
parsed from it as it is, which therefore has no token from outside.
-/

namespace Lox

/-- The token on the next line, unless it is one of the list. -/
def Token.displace (ts : List Token) (t : Token) : Token :=
  if t ∈ ts then t else { t with line := t.line + 1 }

theorem Token.kind_displace (ts : List Token) (t : Token) : (t.displace ts).kind = t.kind := by
  unfold displace
  split <;> rfl

theorem Token.mem_of_displace_eq {ts : List Token} {t : Token} (fixed : t.displace ts = t) :
    t ∈ ts := by
  by_contra outside
  rw [displace, if_neg outside] at fixed
  have line : t.line + 1 = t.line := congrArg Token.line fixed
  omega

theorem Token.map_displace (ts : List Token) : ts.map (displace ts) = ts := by
  have fixed : ∀ t ∈ ts, t.displace ts = t := fun t mem => if_pos mem
  rw [List.map_congr_left fixed, List.map_id']

/-- What a list that does not change under a function holds does not change either. -/
theorem eq_of_map_eq_self {α : Type} {f : α → α} {as : List α} (h : as.map f = as) {a : α}
    (mem : a ∈ as) : f a = a :=
  List.map_inj_left.1 (h.trans (List.map_id as).symm) a mem

namespace Parsed

open Lox.Parser

variable {depth : Nat} {tokens : List Token}

/-- The end token of the answer is the closing one. -/
theorem eof_ofTokens (depth : Nat) (tokens : List Token) :
    (ofTokens depth tokens).eof = closing tokens := by
  rw [ofTokens]
  rcases program depth (body tokens) with ⟨complaints, outcome⟩
  cases outcome <;> rfl

variable (ends : ∃ t ∈ tokens, t.kind = .eof)

include ends

/-- The closing token is one of the list. -/
theorem closing_mem : closing tokens ∈ tokens := by
  obtain ⟨first, eq⟩ := exists_first_eof ends
  rw [closing, eq]
  exact List.mem_of_find?_eq_some eq

/-- Moving the tokens outside of the list changes nothing in what is parsed. -/
theorem map_displace :
    (ofTokens depth tokens).map (Token.displace tokens) = ofTokens depth tokens := by
  rw [← ofTokens_map (Token.kind_displace tokens) depth ends, Token.map_displace]

/-- **The tokens that statements keep are among those that were parsed.** -/
theorem mem_of_stored {t : Token}
    (stored : .stored t ∈ Stmt.flattenAll (ofTokens depth tokens).statements) : t ∈ tokens := by
  have same : Stmt.mapAll (Token.displace tokens) (ofTokens depth tokens).statements =
      (ofTokens depth tokens).statements :=
    congrArg Parsed.statements (map_displace ends)
  have fixed := congrArg Stmt.flattenAll same
  rw [Stmt.flattenAll_map] at fixed
  exact Token.mem_of_displace_eq (Symbol.stored.inj (eq_of_map_eq_self fixed stored))

/-- **The tokens that are complained about are among those that were parsed.** -/
theorem mem_of_blamed {c : Complaint} (mem : c ∈ (ofTokens depth tokens).complaints) {t : Token}
    (blamed : c.blamed = some t) : t ∈ tokens := by
  have same : (ofTokens depth tokens).complaints.map (Complaint.map (Token.displace tokens)) =
      (ofTokens depth tokens).complaints :=
    congrArg Parsed.complaints (map_displace ends)
  have fixed := congrArg Complaint.blamed (eq_of_map_eq_self same mem)
  rw [Complaint.map, blamed] at fixed
  exact Token.mem_of_displace_eq (Option.some.inj fixed)

/-- **The token at which nesting went over the limit is among those that were parsed.** -/
theorem mem_of_overflow {t : Token} (deep : (ofTokens depth tokens).overflow = some t) :
    t ∈ tokens := by
  have fixed : ((ofTokens depth tokens).map (Token.displace tokens)).overflow =
      (ofTokens depth tokens).overflow := congrArg Parsed.overflow (map_displace ends)
  rw [map, deep] at fixed
  exact Token.mem_of_displace_eq (Option.some.inj fixed)

end Parsed

end Lox
