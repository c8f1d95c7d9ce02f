import Lox.Number.Shortest
import Lox.Text.Blank
import Lox.Text.Digit

/-!
# Numbers as text

Lox numbers are binary64 floating-point numbers. `text` writes one with the fewest digits that
read back as the same number, laid out as a `Layout` says; `read?` reads decimal text, rounding to
nearest.
-/

namespace Lox.Number

/-- How digits are laid out. A number whose first digit counts `10 ^ e` is written positionally if
`leastPositional ≤ e < beyondPositional`, otherwise with an exponent. -/
structure Layout where
  leastPositional : Int
  beyondPositional : Int
  /-- Follows the digits of a number without a fraction in positional form. -/
  wholeSuffix : String
  /-- The least number of digits of an exponent, whose sign is always written. -/
  exponentDigits : Nat
  deriving Repr, DecidableEq

/-- Full form: whole numbers keep a fraction digit. -/
def full : Layout := ⟨-4, 16, ".0", 2⟩

/-- Plain form: as full, but whole numbers have no fraction. -/
def plain : Layout := ⟨-4, 16, "", 2⟩

/-! ### Decoding -/

/-- The interval of reals that round to the finite number with these biased exponent and fraction
bits. Below a power of two the neighbours are twice as close, so the lower bound moves in. -/
def interval (biased fraction : Nat) : Interval :=
  let significand := if biased = 0 then fraction else fraction + Nat.pow 2 52
  let exponent : Int := (max biased 1 : Nat) - 1077
  let scale := Nat.pow 2 exponent.toNat
  let narrow := fraction = 0 ∧ 1 < biased
  { lower := (4 * significand - if narrow then 1 else 2) * scale
    value := 4 * significand * scale
    upper := (4 * significand + 2) * scale
    unit := Nat.pow 2 (-exponent).toNat
    closed := significand % 2 = 0 }

/-! ### Layout -/

namespace Layout

/-- `count` zeros. -/
def zeros (count : Nat) : String := String.ofList (List.replicate count '0')

/-- The exponent with its sign and at least `exponentDigits` digits. -/
def exponentText (l : Layout) (e : Int) : String :=
  let digits := Nat.toDigits 10 e.natAbs
  (if e < 0 then "-" else "+") ++ zeros (l.exponentDigits - digits.length) ++ String.ofList digits

/-- The decimal, which is not zero, as text. -/
def write (l : Layout) (d : Decimal) : String :=
  let all := Nat.toDigits 10 d.digits
  let lead : Int := d.exponent + all.length - 1
  let digits := (all.reverse.dropWhile (· == '0')).reverse
  if l.leastPositional ≤ lead ∧ lead < l.beyondPositional then
    if lead < 0 then "0." ++ zeros ((-lead).toNat - 1) ++ String.ofList digits
    else
      let whole := lead.toNat + 1
      if digits.length ≤ whole then
        String.ofList digits ++ zeros (whole - digits.length) ++ l.wholeSuffix
      else String.ofList (digits.take whole) ++ "." ++ String.ofList (digits.drop whole)
  else
    let mantissa := match digits with
      | first :: rest@(_ :: _) => String.ofList (first :: '.' :: rest)
      | short => String.ofList short
    mantissa ++ "e" ++ l.exponentText lead

end Layout

/-- The text of a number. Not-a-number has no sign; zero keeps its sign. -/
def text (l : Layout) (x : Float) : String :=
  let bits := x.toBits.toNat
  let biased := bits / Nat.pow 2 52 % Nat.pow 2 11
  let fraction := bits % Nat.pow 2 52
  let sign := if bits / Nat.pow 2 63 = 1 then "-" else ""
  if biased = Nat.pow 2 11 - 1 then
    if fraction = 0 then sign ++ "inf" else "nan"
  else if biased = 0 ∧ fraction = 0 then sign ++ "0" ++ l.wholeSuffix
  else sign ++ l.write (interval biased fraction).shortest

/-! Fewest digits, the ends of positional notation, the least positive number, and zero's sign. -/

example : text full (0.1 + 0.2) = "0.30000000000000004" ∧
    text full 1e15 = "1000000000000000.0" := by
  decide +kernel

example : text full 1e16 = "1e+16" ∧ text full 0.0001 = "0.0001" ∧ text full 0.00001 = "1e-05" := by
  decide +kernel

example : text full (Float.ofBits 1) = "5e-324" ∧ text full (-0.0) = "-0.0" := by
  decide +kernel

example : text plain 3 = "3" ∧ text plain 2.5 = "2.5" ∧ text plain (1 / 0) = "inf" := by
  decide +kernel

/-! ### Reading -/

/-- The value of a list of decimal digits. -/
def digitsValue (ds : List Char) : Nat :=
  ds.foldl (fun n d => 10 * n + (d.toNat - '0'.toNat)) 0

/-- The number nearest to the decimal `whole.fraction * 10 ^ exponent`. Exponents far outside the
range of numbers are cut off early: the answer is zero or infinity whatever they are. -/
def ofDigits (whole fraction : List Char) (exponent : Int) : Float :=
  let significand := digitsValue (whole ++ fraction)
  let e := exponent - fraction.length
  if significand = 0 then 0
  else
    let size : Int := (Nat.toDigits 10 significand).length + e
    if 400 < size then Float.ofScientific 1 false 400
    else if size < -400 then 0
    else Float.ofScientific significand (decide (e < 0)) e.natAbs

/-- Splits off the leading digits, between which single underscores may stand. -/
def takeDigits : List Char → List Char × List Char
  | d :: '_' :: e :: rest =>
    if d.isDigit && e.isDigit then
      let (ds, rest) := takeDigits (e :: rest)
      (d :: ds, rest)
    else if d.isDigit then ([d], '_' :: e :: rest)
    else ([], d :: '_' :: e :: rest)
  | d :: rest =>
    if d.isDigit then
      let (ds, rest) := takeDigits rest
      (d :: ds, rest)
    else ([], d :: rest)
  | [] => ([], [])

/-- A sign, `+` or `-` or none, and what follows it; true means negative. -/
def takeSign : List Char → Bool × List Char
  | '-' :: rest => (true, rest)
  | '+' :: rest => (false, rest)
  | rest => (false, rest)

/-- An optional exponent that ends the text. -/
def readExponent? : List Char → Option Int
  | [] => some 0
  | e :: rest =>
    if e.toLower != 'e' then none
    else
      let (negative, rest) := takeSign rest
      match takeDigits rest with
      | (ds@(_ :: _), []) => some (if negative then -(digitsValue ds : Int) else digitsValue ds)
      | _ => none

/-- Unsigned decimal text: digits, a fraction and an exponent, with a digit before or after the
point. -/
def readUnsigned? (cs : List Char) : Option Float :=
  let (whole, rest) := takeDigits cs
  let (fraction, rest) := match rest with
    | '.' :: rest => takeDigits rest
    | rest => ([], rest)
  if whole.isEmpty && fraction.isEmpty then none
  else (readExponent? rest).map (ofDigits whole fraction)

/-- Reads decimal text with an optional sign, or the name of an infinity or of not-a-number. The
digits may be those of any script, and white space around the text does not count. -/
def read? (s : String) : Option Float :=
  let (negative, rest) := takeSign ((Text.trim Text.isWhiteSpace s.toList).map Text.asciiDigit)
  let magnitude := match String.ofList (rest.map Char.toLower) with
    | "inf" | "infinity" => some (1 / 0)
    | "nan" => some (0 / 0)
    | _ => readUnsigned? rest
  magnitude.map fun x => if negative then -x else x

/-! White space around, digits of any script, single underscores inside, and what is no number. -/

example : (read? "\u000b+1_0.5e1 ").map Float.toBits = some (Float.toBits 105) ∧
    (read? "１２").map Float.toBits = some (Float.toBits 12) ∧
    (read? "-Infinity").map Float.toBits = some (Float.toBits (-1 / 0)) := by
  decide +kernel

example : (read? "1__0").isNone ∧ (read? "1_").isNone ∧ (read? "+ 1").isNone ∧
    (read? ".e1").isNone := by
  decide +kernel

end Lox.Number
