import SolverProtocol.Json.Syntax
import SolverProtocol.Json.Value

/-! The numbers that JSON numerals stand for. An integer is itself, unless it takes more than 64
bits; every other numeral stands for a double. The leading digits make a significand of 64 bits,
which is rounded and then scaled by a power of ten and rounded again, so that a long number may end
up beside its nearest double. A number that is too large for a double stands for none. -/

namespace SolverProtocol.Json

open Number

/-- The significand after as many of the digits as fit, with the digits left. -/
def absorb (significand : Nat) : List Char → Nat × List Char
  | [] => (significand, [])
  | c :: rest =>
    let next := 10 * significand + (c.toNat - '0'.toNat)
    if next < UInt64.size then absorb next rest else (significand, c :: rest)

def powerOfTen (n : Nat) : Binary64 :=
  Numeral.toBinary64 ⟨false, 1, n⟩

/-- Division by `10^n`, in steps that each divide by a power of ten below the largest double. -/
def scaleDown (x : Binary64) (n : Nat) : Binary64 :=
  if n ≤ 308 then x.div (powerOfTen n)
  else if x.equal .zero then x
  else scaleDown (x.div (powerOfTen 308)) (n - 308)
termination_by n

/-- `significand · 10^exponent`, unless it is too large. -/
def scale? (significand : Nat) (exponent : Int) : Option Binary64 :=
  let x := Binary64.ofInt significand
  if exponent < 0 then some (scaleDown x exponent.natAbs)
  else if 308 < exponent then if x.equal .zero then some x else none
  else
    let scaled := x.mul (powerOfTen exponent.natAbs)
    if scaled.isFinite then some scaled else none

namespace NumberSyntax

/-- The exponent that is written, 0 if none is. -/
def writtenExponent (n : NumberSyntax) : Int :=
  match n.exponent with
  | some (negative, digits) => Binary64.signed negative (Numeral.ofDigits digits)
  | none => 0

/-- An exponent that takes more than 31 bits makes the number zero or too large by itself. -/
def toBinary64? (n : NumberSyntax) : Option Binary64 :=
  let (leading, dropped) := absorb 0 n.whole
  let (significand, unused) := absorb leading n.fraction
  let places := (dropped.length : Int) - (n.fraction.length - unused.length)
  let size :=
    if n.writtenExponent.natAbs < 0x80000000 then scale? significand (places + n.writtenExponent)
    else if significand = 0 ∨ n.writtenExponent < 0 then some .zero
    else none
  size.map fun x => if n.negative then x.neg else x

/-- The integer that digits alone write. Negative zero is none, so that it keeps its sign. -/
def toInteger? (n : NumberSyntax) : Option Int :=
  let size := Numeral.ofDigits n.whole
  let fits := if n.negative then decide (0 < size ∧ size ≤ 0x8000000000000000)
    else decide (size < UInt64.size)
  if n.fraction.isEmpty && n.exponent.isNone && fits then some (Binary64.signed n.negative size)
  else none

def toNumber? (n : NumberSyntax) : Option JsonNumber :=
  match n.toInteger? with
  | some value => some (.integer value)
  | none => n.toBinary64?.map .real

end NumberSyntax

end SolverProtocol.Json
