import SolverProtocol.Number.Rounding

/-! Double precision numbers with exact, executable arithmetic. A finite number is a sign and a
magnitude counted in units of 2^-1074, the smallest positive double, so sums, differences and
comparisons are those of integers, rounded once. There is one NaN. -/

namespace SolverProtocol.Number

/-- The units of 2^-1074 in 1. -/
def unitsPerOne : Nat := 1 <<< 1074

/-- The units of 2^-1074 in 2^1024, where the finite doubles end. -/
def unitsLimit : Nat := 1 <<< 2098

/-- The size of a finite double in units of 2^-1074. -/
structure Magnitude where
  units : Nat
  representable : Representable units
  lt_limit : units < unitsLimit
deriving DecidableEq

inductive Binary64 where
  | finite (negative : Bool) (magnitude : Magnitude)
  | infinite (negative : Bool)
  | nan
deriving DecidableEq

namespace Binary64

/-- The double nearest to `num / den` units, infinite from half a step past the largest one. -/
def round (negative : Bool) (num den : Nat) : Binary64 :=
  if bound : nearest num den < unitsLimit then
    .finite negative ⟨nearest num den, representable_nearest num den, bound⟩
  else .infinite negative

def signed (negative : Bool) (n : Nat) : Int :=
  if negative then -n else n

/-- The double nearest to an integer. -/
def ofInt (n : Int) : Binary64 :=
  round (decide (n < 0)) (n.natAbs * unitsPerOne) 1

def zero : Binary64 := ofInt 0

def one : Binary64 := ofInt 1

instance : Inhabited Binary64 := ⟨zero⟩

def isFinite : Binary64 → Bool
  | .finite .. => true
  | _ => false

def isNaN : Binary64 → Bool
  | .nan => true
  | _ => false

def neg : Binary64 → Binary64
  | .finite negative m => .finite (!negative) m
  | .infinite negative => .infinite (!negative)
  | .nan => .nan

def abs : Binary64 → Binary64
  | .finite _ m => .finite false m
  | .infinite _ => .infinite false
  | .nan => .nan

/-- The exact sum rounded once. A zero sum is negative only when both operands are. -/
def add : Binary64 → Binary64 → Binary64
  | .finite a x, .finite b y =>
    let sum := signed a x.units + signed b y.units
    round (if sum = 0 then a && b else decide (sum < 0)) sum.natAbs 1
  | .infinite a, .infinite b => if a = b then .infinite a else .nan
  | .infinite a, .finite .. => .infinite a
  | .finite .., .infinite b => .infinite b
  | .nan, _ => .nan
  | _, .nan => .nan

def sub (x y : Binary64) : Binary64 :=
  add x (neg y)

/-- The exact product rounded once. -/
def mul : Binary64 → Binary64 → Binary64
  | .finite a x, .finite b y => round (a != b) (x.units * y.units) unitsPerOne
  | .infinite a, .infinite b => .infinite (a != b)
  | .infinite a, .finite b y => if y.units = 0 then .nan else .infinite (a != b)
  | .finite a x, .infinite b => if x.units = 0 then .nan else .infinite (a != b)
  | .nan, _ => .nan
  | _, .nan => .nan

/-- The exact quotient rounded once; what is not zero divided by zero is infinite. -/
def div : Binary64 → Binary64 → Binary64
  | .finite a x, .finite b y =>
    if y.units = 0 then if x.units = 0 then .nan else .infinite (a != b)
    else round (a != b) (x.units * unitsPerOne) y.units
  | .infinite _, .infinite _ => .nan
  | .infinite a, .finite b _ => .infinite (a != b)
  | .finite a _, .infinite b => round (a != b) 0 1
  | .nan, _ => .nan
  | _, .nan => .nan

/-- The place on the number line in units of 2^-1074, both zeros at 0 and the infinities just
outside the finite range. NaN has none. -/
def position : Binary64 → Option Int
  | .finite negative m => some (signed negative m.units)
  | .infinite negative => some (signed negative unitsLimit)
  | .nan => none

/-- Compares the positions; false as soon as one is missing. -/
def compareBy (holds : Int → Int → Bool) (x y : Binary64) : Bool :=
  match x.position, y.position with
  | some a, some b => holds a b
  | _, _ => false

/-- Numeric comparisons: every one with NaN is false, and the two zeros are equal. -/
def lt : Binary64 → Binary64 → Bool := compareBy (· < ·)

@[inherit_doc lt]
def le : Binary64 → Binary64 → Bool := compareBy (· ≤ ·)

@[inherit_doc lt]
def equal : Binary64 → Binary64 → Bool := compareBy (· == ·)

/-- The nearest integer, a half going away from zero. -/
def roundAway : Binary64 → Binary64
  | .finite negative m => round negative (divHalfUp m.units unitsPerOne * unitsPerOne) 1
  | x => x

/-- The integer part of a finite number, 0 for the others. -/
def truncate : Binary64 → Int
  | .finite negative m => signed negative (m.units / unitsPerOne)
  | _ => 0

end Binary64

end SolverProtocol.Number
