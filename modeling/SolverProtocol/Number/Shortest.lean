import SolverProtocol.Number.Numeral

/-! The shortest decimal text of a double: the fewest digits that read back as the same number, and
of those the nearest. The text is positional, without an exponent, unless a format asks for one. -/

namespace SolverProtocol.Number

/-- The units of 10^-1074 in 2^-1074, which is 5^1074 · 10^-1074, so that magnitudes are whole
numbers of such units as well. -/
def decimalUnits : Nat := Nat.pow 5 1074

namespace Magnitude

/-- The bounds of the numbers that round to a magnitude, in quarters of a unit. The step below a
power of two is half the step above it. -/
def roundingInterval (m : Magnitude) : Nat × Nat :=
  let step := 1 <<< surplus m.units
  let below := if 1 < step ∧ m.units = 1 <<< m.units.log2 then step / 2 else step
  (4 * m.units - 2 * below, 4 * m.units + 2 * step)

/-- The significand is even, so that both ends of the interval round to the magnitude. -/
def evenSignificand (m : Magnitude) : Bool :=
  m.units >>> surplus m.units % 2 == 0

/-- The multiple of `10^place` units of 10^-1074 that reads back as `m` and is nearest to it, the
larger of two equally near. -/
def onGrid? (m : Magnitude) (place : Nat) : Option Nat :=
  let (low, high) := m.roundingInterval
  let value := 4 * m.units * decimalUnits
  let grid := 4 * Nat.pow 10 place
  let under := value / grid
  let reads (count : Nat) : Bool :=
    if m.evenSignificand then
      low * decimalUnits ≤ count * grid && count * grid ≤ high * decimalUnits
    else low * decimalUnits < count * grid && count * grid < high * decimalUnits
  match reads under, reads (under + 1) with
  | true, true =>
    some (if value - under * grid < (under + 1) * grid - value then under else under + 1)
  | true, false => some under
  | false, true => some (under + 1)
  | false, false => none

/-- The shortest numeral; 17 digits always suffice. -/
def shortest (m : Magnitude) : Numeral :=
  let length := Numeral.length (m.units * decimalUnits)
  let found := (List.range 17).findSome? fun shorter =>
    (m.onGrid? (length - (shorter + 1))).map (·, length - (shorter + 1))
  match found with
  | some (digits, place) => ⟨false, digits, place - 1074⟩
  | none => ⟨false, m.units * decimalUnits, -1074⟩

end Magnitude

namespace Numeral

def dropTrailingZeros (digits : List Char) : List Char :=
  (digits.reverse.dropWhile (· == '0')).reverse

/-- The digits in place: zeros fill up to the point, and a fraction ends in no zero. -/
def positional (numeral : Numeral) : String :=
  let digits := Nat.toDigits 10 (numeral.digits * Nat.pow 10 numeral.exponent.toNat)
  let places := (-numeral.exponent).toNat
  let padded := List.replicate (places + 1 - digits.length) '0' ++ digits
  let whole := padded.take (padded.length - places)
  let fraction := dropTrailingZeros (padded.drop (padded.length - places))
  String.ofList (if numeral.negative then ['-'] else []) ++ String.ofList whole
    ++ (if fraction.isEmpty then "" else "." ++ String.ofList fraction)

/-- One digit before the point, and the exponent. -/
def scientific (numeral : Numeral) : String :=
  let digits := Nat.toDigits 10 numeral.digits
  let fraction := dropTrailingZeros digits.tail
  String.ofList (if numeral.negative then ['-'] else []) ++ String.ofList (digits.take 1)
    ++ (if fraction.isEmpty then "" else "." ++ String.ofList fraction)
    ++ "e" ++ toString (numeral.exponent + digits.length - 1)

end Numeral

/-- Zero keeps its sign; the other values that are no numbers have words. -/
def Binary64.toText : Binary64 → String
  | .finite negative m =>
    if m.units = 0 then if negative then "-0" else "0"
    else { m.shortest with negative }.positional
  | .infinite negative => if negative then "-inf" else "inf"
  | .nan => "NaN"

instance : ToString Binary64 := ⟨Binary64.toText⟩

end SolverProtocol.Number
