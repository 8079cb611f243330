import SolverProtocol.Number.Shortest

namespace SolverProtocol

open Number

inductive CoefficientType where
  | real
  | integer
deriving DecidableEq, Repr

def CoefficientType.all : List CoefficientType := [.real, .integer]

@[reducible]
def CoefficientType.Carrier : CoefficientType → Type
  | .real => Binary64
  | .integer => Int64

/-- Numbers that can stand for a double, exactly or within a tolerance. -/
class Coefficient (T : Type) extends ToString T where
  /-- Numeric equality, under which NaN differs from itself and the zeros agree. -/
  equal : T → T → Bool
  /-- The nearest double. -/
  widen : T → Binary64
  /-- `narrow? tolerance value` stands for `value`, at most `tolerance` away from it. -/
  narrow? : Binary64 → Binary64 → Option T

/-- An integer stands for a double when it is the nearest one, a half going away from zero, is not
farther than the tolerance, and fits into 64 bits with its sign. -/
def narrowInteger? (tolerance value : Binary64) : Option Int64 :=
  let rounded := value.roundAway
  if !value.isFinite || tolerance.lt (value.sub rounded).abs ||
      rounded.lt (.ofInt Int64.minValue.toInt) ||
      (Binary64.ofInt (Int64.maxValue.toInt + 1)).le rounded then none
  else some (.ofInt rounded.truncate)

instance : Coefficient Binary64 where
  equal := Binary64.equal
  widen x := x
  narrow? _ value := some value

instance : Coefficient Int64 where
  equal x y := x == y
  widen n := .ofInt n.toInt
  narrow? := narrowInteger?

instance (k : CoefficientType) : Coefficient k.Carrier :=
  match k with
  | .real => inferInstanceAs (Coefficient Binary64)
  | .integer => inferInstanceAs (Coefficient Int64)

end SolverProtocol
