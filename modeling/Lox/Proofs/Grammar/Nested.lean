import Lox.Proofs.Lexer.Lexeme
import Lox.Tree.Text

/-!
# Reading parenthesized text

A text in parenthesized form is a word, or a head and parts between parentheses. If words and heads
are lexemes, it can be read in one way only, also as the front of a longer text: a word ends where
the lexer ends it, and a group where its parenthesis is closed (`Nested.append_inj`).
-/

namespace Lox

/-- What a text in parenthesized form shows: a word, or a head with parts. -/
inductive Nested where
  | word (text : String)
  | group (head : String) (parts : List Nested)

namespace Nested

mutual

/-- The text. -/
def text : Nested → String
  | word text => text
  | group head parts => parenthesized head (texts parts)

/-- The texts in order. -/
def texts : List Nested → List String
  | [] => []
  | n :: ns => n.text :: texts ns

end

mutual

/-- Words and heads are lexemes, and no word is the opening parenthesis. -/
def Legible : Nested → Prop
  | word text => IsLexeme text ∧ text ≠ "("
  | group head parts => IsLexeme head ∧ AllLegible parts

/-- All of them are legible. -/
def AllLegible : List Nested → Prop
  | [] => True
  | n :: ns => n.Legible ∧ AllLegible ns

end

/-- The characters of texts in order, each after a blank. -/
def spaced (texts : List String) : List Char := texts.flatMap fun text => ' ' :: text.toList

end Nested

open Nested in
theorem toList_intercalate_space (text : String) (texts : List String) :
    (" ".intercalate (text :: texts)).toList = text.toList ++ spaced texts := by
  induction texts generalizing text with
  | nil => simp [spaced]
  | cons next texts ih =>
    rw [String.intercalate_cons_cons, String.toList_append, ih]
    simp [spaced]

open Nested in
theorem toList_parenthesized (head : String) (parts : List String) :
    (parenthesized head parts).toList = '(' :: (head.toList ++ (spaced parts ++ [')'])) := by
  rw [parenthesized, String.toList_append, String.toList_append, toList_intercalate_space,
    List.append_assoc, List.append_assoc]
  rfl

namespace Nested

/-- What can follow the last of a row of parts: nothing, or a closing parenthesis. -/
def Closes (rest : List Char) : Prop := ∀ c ∈ rest.head?, c = ')'

theorem closes_nil : Closes [] := nofun

theorem closes_cons (rest : List Char) : Closes (')' :: rest) := by simp [Closes]

theorem delimits_spaced (texts : List String) {r : List Char} (h : Closes r) :
    Delimits (spaced texts ++ r) := by
  cases texts with
  | nil => exact fun c mem => .inr (h c mem)
  | cons text texts => exact delimits_space _

mutual

/-- **Legible text can be read in one way only**, also in front of a blank, a closing parenthesis,
or nothing. -/
theorem append_inj : ∀ {a b : Nested} {r q : List Char}, a.Legible → b.Legible → Delimits r →
    Delimits q → a.text.toList ++ r = b.text.toList ++ q → a = b ∧ r = q
  | word s, word t, r, q, ⟨hs, _⟩, ⟨ht, _⟩, hr, hq, same => by
    obtain ⟨rfl, rest⟩ := hs.append_inj ht hr hq same
    exact ⟨rfl, rest⟩
  | word s, group head parts, r, q, ⟨hs, ne⟩, _, hr, _, same => by
    rw [text, text, toList_parenthesized] at same
    exact absurd same (hs.head_ne_paren ne hr _)
  | group head parts, word t, r, q, _, ⟨ht, ne⟩, _, hq, same => by
    rw [text, text, toList_parenthesized] at same
    exact absurd same.symm (ht.head_ne_paren ne hq _)
  | group head parts, group head' parts', r, q, ⟨hhead, hparts⟩, ⟨hhead', hparts'⟩, _, _, same => by
    rw [text, text, toList_parenthesized, toList_parenthesized] at same
    simp only [List.cons_append, List.append_assoc, List.nil_append, List.cons.injEq,
      true_and] at same
    -- the head ends where a part or the closing parenthesis follows, and the parts at the latter
    have after : Closes (')' :: r) := closes_cons r
    have after' : Closes (')' :: q) := closes_cons q
    obtain ⟨rfl, behind⟩ := hhead.append_inj hhead' (delimits_spaced _ after)
      (delimits_spaced _ after') same
    obtain ⟨rfl, rest⟩ := spaced_inj hparts hparts' after after' behind
    exact ⟨rfl, (List.cons.inj rest).2⟩

/-- A row of legible texts can be read in one way only. -/
theorem spaced_inj : ∀ {as bs : List Nested} {r q : List Char}, AllLegible as → AllLegible bs →
    Closes r → Closes q → spaced (texts as) ++ r = spaced (texts bs) ++ q → as = bs ∧ r = q
  | [], [], _, _, _, _, _, _, same => ⟨rfl, same⟩
  | [], b :: bs, r, q, _, _, hr, _, same => by
    -- a blank closes nothing
    rw [texts, texts] at same
    have blank : ' ' = ')' := hr ' ' (by rw [show r = _ from same]; rfl)
    exact absurd blank (by decide)
  | a :: as, [], r, q, _, _, _, hq, same => by
    rw [texts, texts] at same
    have blank : ' ' = ')' := hq ' ' (by rw [show q = _ from same.symm]; rfl)
    exact absurd blank (by decide)
  | a :: as, b :: bs, r, q, ⟨ha, has⟩, ⟨hb, hbs⟩, hr, hq, same => by
    simp only [texts, spaced, List.flatMap_cons, List.cons_append, List.append_assoc,
      List.cons.injEq, true_and] at same
    obtain ⟨rfl, behind⟩ := append_inj ha hb (delimits_spaced (texts as) hr)
      (delimits_spaced (texts bs) hq) same
    obtain ⟨rfl, rest⟩ := spaced_inj has hbs hr hq behind
    exact ⟨rfl, rest⟩

end

/-- Legible forms with the same text are the same. -/
theorem eq_of_text {a b : Nested} (ha : a.Legible) (hb : b.Legible) (same : a.text = b.text) :
    a = b :=
  (append_inj ha hb delimits_nil delimits_nil (by rw [same])).1

end Nested

end Lox
