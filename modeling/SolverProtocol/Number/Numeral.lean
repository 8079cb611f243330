import SolverProtocol.Number.Binary64

namespace SolverProtocol.Number

/-- The decimal numeral `±digits · 10^exponent`. -/
structure Numeral where
  negative : Bool
  digits : Nat
  exponent : Int
deriving DecidableEq

namespace Numeral

/-- The number a string of decimal digits writes. -/
def ofDigits (digits : List Char) : Nat :=
  digits.foldl (fun n c => 10 * n + (c.toNat - '0'.toNat)) 0

/-- The number of decimal digits of `n`, 1 for 0. -/
def length (n : Nat) : Nat :=
  (Nat.toDigits 10 n).length

/-- A leading sign, with the rest. -/
def splitSign : List Char → Bool × List Char
  | '-' :: rest => (true, rest)
  | '+' :: rest => (false, rest)
  | text => (false, text)

def exponent? (text : List Char) : Option Int :=
  let (negative, digits) := splitSign text
  if digits.isEmpty || !digits.all Char.isDigit then none
  else some (Binary64.signed negative (ofDigits digits))

/-- Reads an optional sign, digits with an optional point among or around them, and an optional
exponent after `e` or `E`. -/
def ofChars? (text : List Char) : Option Numeral :=
  let (negative, unsignedText) := splitSign text
  let (mantissa, tail) := unsignedText.span (fun c => c != 'e' && c != 'E')
  let (whole, fractionTail) := mantissa.span Char.isDigit
  let fraction := if fractionTail.head? = some '.' then fractionTail.tail else fractionTail
  let exponent := if tail.isEmpty then some 0 else exponent? tail.tail
  if (whole ++ fraction).isEmpty || !fraction.all Char.isDigit then none
  else exponent.map fun e => ⟨negative, ofDigits (whole ++ fraction), e - fraction.length⟩

/-- The nearest double. The first two cases give what rounding would, without the long powers of
ten: a numeral below 10^-330 rounds to zero and one from 10^310 on is infinite. -/
def toBinary64 (numeral : Numeral) : Binary64 :=
  let size := numeral.exponent + length numeral.digits
  if numeral.digits = 0 ∨ size < -330 then .round numeral.negative 0 1
  else if 310 < size then .infinite numeral.negative
  else .round numeral.negative (numeral.digits * Nat.pow 10 numeral.exponent.toNat * unitsPerOne)
    (Nat.pow 10 (-numeral.exponent).toNat)

end Numeral

/-- Reads a numeral, `inf`, `infinity` or `nan`, the words in any case and with any sign. -/
def Binary64.ofText? (text : String) : Option Binary64 :=
  let (negative, word) := Numeral.splitSign text.toList
  match String.ofList (word.map Char.toLower) with
  | "nan" => some .nan
  | "inf" | "infinity" => some (.infinite negative)
  | _ => (Numeral.ofChars? text.toList).map Numeral.toBinary64

end SolverProtocol.Number
