/-!
# Shortest decimals

A positive number and the interval of reals that round to it are given as fractions over one
denominator. `Interval.shortest` finds the decimal `d * 10 ^ k` with the fewest digits that lies
in the interval, and among those of that length the one nearest to the number; an exact tie goes
to the even last digit. All arithmetic is on `Nat`, so nothing is rounded on the way.
-/

namespace Lox.Number

/-- A positive number `value / unit` with the bounds of the interval that rounds to it. -/
structure Interval where
  lower : Nat
  value : Nat
  upper : Nat
  /-- The common denominator. -/
  unit : Nat
  /-- Whether the bounds themselves round to the number. -/
  closed : Bool
  deriving Repr, DecidableEq

/-- A decimal `digits * 10 ^ exponent`. -/
structure Decimal where
  digits : Nat
  exponent : Int
  deriving Repr, DecidableEq

/-- The exponent of the first digit of `num / den`: the greatest `e` with `10 ^ e ≤ num / den`. -/
def leadingExponent (num den : Nat) : Int :=
  if den ≤ num then ((Nat.toDigits 10 (num / den)).length : Int) - 1
  else
    let inverse := den / num
    let places := (Nat.toDigits 10 inverse).length
    if inverse = Nat.pow 10 (places - 1) ∧ den % num = 0 then 1 - (places : Int)
    else -(places : Int)

namespace Interval

/-- Whether the decimal lies in the interval. -/
def holds (i : Interval) (d : Decimal) : Bool :=
  let point := d.digits * i.unit * Nat.pow 10 d.exponent.toNat
  let scale := Nat.pow 10 (-d.exponent).toNat
  if i.closed then i.lower * scale ≤ point && point ≤ i.upper * scale
  else i.lower * scale < point && point < i.upper * scale

/-- The best decimal in the interval whose last digit counts `10 ^ k`. Of the multiples of `10 ^
k` only the two neighbours of the number can be best. -/
def bestAt? (i : Interval) (k : Int) : Option Decimal :=
  let num := i.value * Nat.pow 10 (-k).toNat
  let step := i.unit * Nat.pow 10 k.toNat
  let below : Decimal := ⟨num / step, k⟩
  let above : Decimal := ⟨num / step + 1, k⟩
  match i.holds below, i.holds above with
  | false, false => none
  | true, false => some below
  | false, true => some above
  | true, true =>
    let excess := 2 * (num % step)
    if excess < step then some below
    else if step < excess then some above
    else if below.digits % 2 = 0 then some below
    else some above

/-- The shortest decimal in the interval. Seventeen digits are enough for every binary64 number. -/
def shortest (i : Interval) : Decimal :=
  let lead := leadingExponent i.value i.unit
  ((List.range 17).findSome? fun n => i.bestAt? (lead - (n : Nat))).getD ⟨i.value, 0⟩

end Interval

end Lox.Number
