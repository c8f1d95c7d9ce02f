import Mathlib
import Lox.Eval.Operator

/-!
# Dividing by zero

A quotient of two numbers always has a value. If the divisor is one of the two zeros, the value is
fixed by the kind of the dividend and the two signs, so that no division is needed to tell it
(`overZero`). `divide_eq` says that division is what this case split gives.

The proofs take numbers apart into sign, exponent and significand. To compare equal to zero is to
have neither exponent nor significand, so only the two zeros do (`eq_zero_of_beq_zero`).
-/

namespace Lox.Operator

open Float.Model (UnpackedFloat Format)
open Float.Model.UnpackedFloat (Sign unpackMantissa unpackExponent)

/-- Positive infinity. -/
def infinity : Float := .ofBits 0x7FF0000000000000

/-- The result of operations that have no number for a result. -/
def notANumber : Float := .ofBits 0x7FF8000000000000

/-- The quotient of a number over one of the zeros: an infinity if the dividend is a number other
than zero, with the sign that the two signs give. -/
def overZero (x y : Float) : Float :=
  if x == 0 || x.isNaN then notANumber
  else if decide (x < 0) = decide (y = -0) then infinity else -infinity

/-! ### The two zeros -/

theorem toNat_unpackMantissa (b : BitVec 64) :
    (@unpackMantissa Format.binary64 b).toNat = b.toNat % 2 ^ 52 := by
  simp [unpackMantissa, BitVec.extractLsb, BitVec.extractLsb']

theorem toNat_unpackExponent (b : BitVec 64) :
    (@unpackExponent Format.binary64 b).toNat = b.toNat / 2 ^ 52 % 2 ^ 11 := by
  simp [unpackExponent, BitVec.extractLsb, BitVec.extractLsb', Nat.shiftRight_eq_div_pow]

/-- A zero has all bits zero but the sign. -/
theorem fields_of_unpack_zero {b : BitVec 64} {s : Sign}
    (h : UnpackedFloat.unpack Format.binary64 b = .zero s) :
    b.toNat / 2 ^ 52 % 2 ^ 11 = 0 ∧ b.toNat % 2 ^ 52 = 0 := by
  simp only [UnpackedFloat.unpack] at h
  split at h
  · split at h <;> cases h
  split at h
  next exponent =>
    split at h
    next mantissa =>
      rw [← toNat_unpackExponent, ← toNat_unpackMantissa, exponent, mantissa]
      exact ⟨rfl, rfl⟩
    next => cases h
  next => cases h

theorem eq_of_toNat_toBits {x : Float} (bits : UInt64) {valid : Format.binary64.Valid bits.toBitVec}
    (h : x.toModel.toBits.toNat = bits.toNat) : x = .ofModel ⟨bits, valid⟩ := by
  obtain ⟨⟨xbits, xvalid⟩⟩ := x
  congr 2
  exact UInt64.toNat_inj.1 h

/-- What compares equal to zero is one of the two zeros. -/
theorem eq_zero_of_beq_zero {x : Float} (h : (x == 0) = true) : x = 0 ∨ x = -0 := by
  have compared : x.toModel.unpack.beq (.zero .positive) = true := h
  have parts : ∃ s, x.toModel.unpack = .zero s := by
    cases parts : x.toModel.unpack with
    | zero s => exact ⟨s, rfl⟩
    | notANumber => rw [parts] at compared; cases compared
    | infinity s | finite s => rw [parts] at compared; cases s <;> cases compared
  obtain ⟨s, parts⟩ := parts
  obtain ⟨exponent, mantissa⟩ := fields_of_unpack_zero parts
  simp only [UInt64.toNat_toBitVec] at exponent mantissa
  have bound := x.toModel.toBits.toNat_lt
  -- only the sign bit is left to be told
  have bits : x.toModel.toBits.toNat = 0 ∨ x.toModel.toBits.toNat = 2 ^ 63 := by omega
  rcases bits with positive | negative
  · exact .inl (eq_of_toNat_toBits 0 positive)
  · exact .inr (eq_of_toNat_toBits 0x8000000000000000 negative)

/-! ### Quotients -/

/-- The number with these parts. -/
def ofParts (parts : UnpackedFloat) : Float := .ofModel (.pack parts)

theorem ofParts_notANumber : ofParts .notANumber = notANumber := by decide +kernel

theorem ofParts_infinity_positive : ofParts (.infinity .positive) = infinity := by decide +kernel

theorem ofParts_infinity_negative : ofParts (.infinity .negative) = -infinity := by decide +kernel

theorem decide_lt_zero (x : Float) :
    decide (x < 0) = x.toModel.unpack.lt (.zero .positive) := by
  show decide (decide (x.toModel < (0 : Float).toModel) = true) = _
  rw [Bool.decide_eq_true]
  show decide (x.toModel.unpack.lt (.zero .positive) = true) = _
  rw [Bool.decide_eq_true]

/-- Dividing by a zero looks at the signs alone, unless the dividend is zero or no number. -/
theorem div_of_unpack_zero (x : Float) {y : Float} {s : Sign} (h : y.toModel.unpack = .zero s) :
    x / y = match x.toModel.unpack with
      | .notANumber | .zero _ => notANumber
      | .infinity t | .finite t .. => ofParts (.infinity (t / s)) := by
  have quotient : x / y = ofParts (.div Format.binary64 x.toModel.unpack y.toModel.unpack) := rfl
  rw [quotient, h]
  cases x.toModel.unpack with
  | notANumber | zero => exact ofParts_notANumber
  | infinity | finite => rfl

theorem div_eq_overZero (x : Float) {y : Float} (h : (y == 0) = true) : x / y = overZero x y := by
  have sign : ∃ s, y.toModel.unpack = .zero s ∧ decide (y = -0) = (s == .negative) := by
    rcases eq_zero_of_beq_zero h with rfl | rfl
    · exact ⟨.positive, rfl, by decide +kernel⟩
    · exact ⟨.negative, rfl, by decide +kernel⟩
  obtain ⟨s, parts, negative⟩ := sign
  have zero : (x == 0) = x.toModel.unpack.beq (.zero .positive) := rfl
  have nan : x.isNaN = x.toModel.unpack.isNaN := rfl
  rw [div_of_unpack_zero x parts, overZero, zero, nan, decide_lt_zero, negative]
  cases x.toModel.unpack with
  | notANumber | zero => rfl
  | infinity t | finite t =>
    cases t with
    | positive =>
      cases s with
      | positive => exact ofParts_infinity_positive
      | negative => exact ofParts_infinity_negative
    | negative =>
      cases s with
      | positive => exact ofParts_infinity_negative
      | negative => exact ofParts_infinity_positive

/-- **Division has a value for every divisor.** It divides only by what is not zero, and a zero is
told apart before. -/
theorem divide_eq (x y : Float) :
    divide x y = if y == 0 then overZero x y else x / y := by
  rw [divide]
  split
  next zero => exact div_eq_overZero x zero
  next => rfl

example : divide (-1) 0 = -infinity ∧ divide (-1) (-0) = infinity ∧ divide (-0) 0 = notANumber := by
  decide +kernel

end Lox.Operator
