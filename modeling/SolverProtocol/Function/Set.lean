import SolverProtocol.Function.Coefficient

namespace SolverProtocol

/-- The numbers up to `upper`. -/
structure LessThan (T : Type) where
  upper : T

/-- The numbers from `lower` on. -/
structure GreaterThan (T : Type) where
  lower : T

/-- The one number `value`. -/
structure EqualTo (T : Type) where
  value : T

/-- The numbers from `lower` to `upper`. -/
structure Interval (T : Type) where
  lower : T
  upper : T

inductive SetShape where
  | lessThan
  | greaterThan
  | equalTo
  | interval
deriving DecidableEq, Repr

/-- The types of sets. -/
structure SetType where
  shape : SetShape
  coefficient : CoefficientType
deriving DecidableEq, Repr

namespace SetShape

@[reducible]
def Carrier (T : Type) : SetShape → Type
  | .lessThan => LessThan T
  | .greaterThan => GreaterThan T
  | .equalTo => EqualTo T
  | .interval => Interval T

def name : SetShape → String
  | .lessThan => "LessThan"
  | .greaterThan => "GreaterThan"
  | .equalTo => "EqualTo"
  | .interval => "Interval"

def render {T : Type} [ToString T] : (s : SetShape) → s.Carrier T → String
  | .lessThan, set => s!"<= {set.upper}"
  | .greaterThan, set => s!">= {set.lower}"
  | .equalTo, set => s!"== {set.value}"
  | .interval, set => s!"in [{set.lower}, {set.upper}]"

def equal {T : Type} [Coefficient T] : (s : SetShape) → s.Carrier T → s.Carrier T → Bool
  | .lessThan, a, b => Coefficient.equal a.upper b.upper
  | .greaterThan, a, b => Coefficient.equal a.lower b.lower
  | .equalTo, a, b => Coefficient.equal a.value b.value
  | .interval, a, b => Coefficient.equal a.lower b.lower && Coefficient.equal a.upper b.upper

end SetShape

namespace SetType

def all : List SetType :=
  [SetShape.lessThan, .greaterThan, .equalTo, .interval].flatMap fun shape =>
    CoefficientType.all.map fun k => ⟨shape, k⟩

@[reducible]
def Carrier (s : SetType) : Type :=
  s.shape.Carrier s.coefficient.Carrier

/-- The name in messages, which leaves the type of the numbers out. -/
def name (s : SetType) : String := s.shape.name

def render (s : SetType) (set : s.Carrier) : String := s.shape.render set

/-- The same bounds, compared as numbers. -/
def equal (s : SetType) (a b : s.Carrier) : Bool := s.shape.equal a b

end SetType

end SolverProtocol
