import Lox.Text.Split

/-!
# Blanks

White space is the characters with the Unicode property `White_Space`; it may stand around a
number. The command lines of the shell count four separators of ASCII among their blanks as well.
The lexer of Lox has a smaller set of its own.
-/

namespace Lox.Text

/-- Whether the character has the property `White_Space`. -/
def isWhiteSpace (c : Char) : Bool :=
  c.isWhitespace || c == '\x0b' || c == '\x0c' || c == '\u0085' || c == '\u00a0' || c == '\u1680'
    || ('\u2000' ≤ c && c ≤ '\u200a') || c == '\u2028' || c == '\u2029' || c == '\u202f'
    || c == '\u205f' || c == '\u3000'

/-- Whether the character is blank in the shell: white space or a separator from U+001C to
U+001F. -/
def isBlank (c : Char) : Bool := isWhiteSpace c || ('\x1c' ≤ c && c ≤ '\x1f')

/-- Every white-space character of ASCII is blank. -/
theorem isBlank_of_isWhitespace {c : Char} (h : c.isWhitespace) : isBlank c := by
  simp [isBlank, isWhiteSpace, h]

/-- The characters without those of a class at both ends. -/
def trim (p : Char → Bool) (cs : List Char) : List Char :=
  ((cs.dropWhile p).reverse.dropWhile p).reverse

/-- The characters without the blanks at both ends. -/
def strip (cs : List Char) : List Char := trim isBlank cs

/-- The maximal runs of characters that are not blank. -/
def words (cs : List Char) : List (List Char) := (split isBlank cs).filter (· ≠ [])

/-- A word is not empty and holds no blank. -/
theorem not_blank_of_mem_words {cs word : List Char} (h : word ∈ words cs) :
    word ≠ [] ∧ ∀ c ∈ word, isBlank c = false := by
  obtain ⟨hs, ne⟩ := List.mem_filter.1 h
  exact ⟨by simpa using ne, eq_false_of_mem_split hs⟩

/-- A character that is not blank is in one of the words. -/
theorem exists_mem_words {c : Char} {cs : List Char} (mem : c ∈ cs) (h : isBlank c = false) :
    ∃ word ∈ words cs, c ∈ word := by
  obtain ⟨part, among, inside⟩ := exists_mem_split mem h
  refine ⟨part, List.mem_filter.2 ⟨among, ?_⟩, inside⟩
  simpa using List.ne_nil_of_mem inside

end Lox.Text
