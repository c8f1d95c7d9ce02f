import Lox.Text.Quoted

/-!
# Reading script text

A script is a file in strict UTF-8. The first byte that cannot be part of a character is a fault
that names the bytes, their position and the reason. A byte order mark is a character like others.
All three conventions for ending a line are read as one newline.
-/

namespace Lox.Text.Utf8

/-- Why bytes are not a character. -/
inductive Reason where
  | start | continuation | truncated
  deriving DecidableEq

/-- The reason in words. -/
def Reason.text : Reason → String
  | start => "invalid start byte"
  | continuation => "invalid continuation byte"
  | truncated => "unexpected end of data"

/-- Bytes that are not a character: the first of them, where it stands, and how many they are. -/
structure Fault where
  first : UInt8
  position : Nat
  length : Nat
  reason : Reason
  deriving DecidableEq

/-- The message for a fault. -/
def Fault.message (f : Fault) : String :=
  let what :=
    if f.length = 1 then
      "byte 0x" ++ String.ofList (hexDigits 2 f.first.toNat)
        ++ " in position " ++ toString f.position
    else
      "bytes in position " ++ toString f.position ++ "-" ++ toString (f.position + f.length - 1)
  "'utf-8' codec can't decode " ++ what ++ ": " ++ f.reason.text

/-- The bounds of the bytes that must follow a first byte, or nothing if no character starts so. The
bounds exclude overlong forms, surrogates and code points beyond the last. -/
def following? (b : UInt8) : Option (List (UInt8 × UInt8)) :=
  let any : UInt8 × UInt8 := (0x80, 0xbf)
  if b < 0x80 then some []
  else if b < 0xc2 then none
  else if b < 0xe0 then some [any]
  else if b < 0xf0 then
    some [if b = 0xe0 then (0xa0, 0xbf) else if b = 0xed then (0x80, 0x9f) else any, any]
  else if b < 0xf5 then
    some [if b = 0xf0 then (0x90, 0xbf) else if b = 0xf4 then (0x80, 0x8f) else any, any, any]
  else none

/-- The bits of the code point in a first byte that `count` bytes follow. -/
def leadingBits (b : UInt8) (count : Nat) : Nat :=
  if count = 0 then b.toNat else b.toNat % Nat.pow 2 (6 - count)

/-- Reads the bytes within the bounds, or tells how many were read before the fault. -/
def continueWith (code read : Nat) :
    List (UInt8 × UInt8) → List UInt8 → Except (Nat × Reason) (Nat × List UInt8)
  | [], rest => .ok (code, rest)
  | _ :: _, [] => .error (read, .truncated)
  | (low, high) :: more, b :: rest =>
    if low ≤ b ∧ b ≤ high then continueWith (code * 64 + b.toNat % 64) (read + 1) more rest
    else .error (read, .continuation)

theorem length_continueWith_le {code read : Nat} {bounds : List (UInt8 × UInt8)}
    {bytes rest : List UInt8} {result : Nat}
    (h : continueWith code read bounds bytes = .ok (result, rest)) :
    rest.length ≤ bytes.length := by
  fun_induction continueWith code read bounds bytes with
  | case1 => cases h; exact Nat.le_refl _
  | case2 => cases h
  | case3 _ _ _ _ _ _ _ _ ih => exact Nat.le_trans (ih h) (Nat.le_succ _)
  | case4 => cases h

/-- Decodes bytes of which the first stands at `position`. -/
def decodeFrom (position : Nat) : List UInt8 → Except Fault (List Char)
  | [] => .ok []
  | b :: bytes =>
    match following? b with
    | none => .error ⟨b, position, 1, .start⟩
    | some bounds =>
      match _h : continueWith (leadingBits b bounds.length) 1 bounds bytes with
      | .error (length, reason) => .error ⟨b, position, length, reason⟩
      | .ok (code, rest) =>
        (decodeFrom (position + bounds.length + 1) rest).map (Char.ofNat code :: ·)
termination_by bytes => bytes.length
decreasing_by exact Nat.lt_succ_of_le (length_continueWith_le ‹_›)

/-- Decodes bytes. -/
def decode (bytes : List UInt8) : Except Fault (List Char) := decodeFrom 0 bytes

/-- Ends every line with a newline alone. -/
def unifyNewlines : List Char → List Char
  | '\r' :: '\n' :: cs => '\n' :: unifyNewlines cs
  | '\r' :: cs => '\n' :: unifyNewlines cs
  | c :: cs => c :: unifyNewlines cs
  | [] => []

/-- The text of a script file. -/
def scriptText (bytes : List UInt8) : Except Fault String :=
  (decode bytes).map (String.ofList <| unifyNewlines ·)

end Lox.Text.Utf8
