import SolverProtocol.Conversion

namespace SolverProtocol

namespace Attribute

/-- What the attribute makes of constraint indices, keeping those of its own type. -/
def ofIndices? : Attribute → List AnyConstraintIndex → Option Value
  | .global (.property (.listOfConstraintIndices t)), indices =>
    some ⟨.list (.constraint t), indices.filterMap (·.as? t)⟩
  | .global (.property (.numberOfConstraints t)), indices =>
    some ⟨.size, indices.countP (fun c => decide (c.type = t))⟩
  | _, _ => none

/-- Answers from constraint indices; a slot of another type stays as it is. -/
def fillFromIndices (a : Attribute) (indices : List AnyConstraintIndex) {τ : ValueType}
    (slot : Option τ.Carrier) : Bool × Option τ.Carrier :=
  match (a.ofIndices? indices).bind fun value => ValueType.cast? τ value.2 with
  | some value => (true, some value)
  | none => (false, slot)

/-- Answers from a canonical form first written as a `source`; `none` if the attribute does not ask
for the objective. A failed answer leaves the slot as it is. -/
def fillFromObjective (a : Attribute) (tolerance : Number.Binary64) (source : FunctionType)
    (q : Canonical) {τ : ValueType} (slot : Option τ.Carrier) :
    Option (Except ProtocolError Unit) × Option τ.Carrier :=
  match a.functionType? with
  | none => (none, slot)
  | some f =>
    if same : ValueType.function f = τ then
      match convertCanonical f source tolerance q with
      | .ok g => (some (.ok ()), some (same ▸ g))
      | .error e => (some (.error e), slot)
    else (some (.error (.valueTypeMismatch a)), slot)

/-- Takes an objective out of its slot in canonical form, with the type it was written as. -/
def drainObjective (a : Attribute) {τ : ValueType} (slot : Option τ.Carrier) :
    Option (FunctionType × Canonical) × Option τ.Carrier :=
  match a.functionType? with
  | none => (none, slot)
  | some f =>
    if τ = ValueType.function f then
      ((slot.bind (ValueType.cast? (.function f))).map fun g => (f, f.toCanonical g), none)
    else (none, slot)

/-- Whether the canonical form can be read as the type the attribute asks for, if it asks for the
objective. -/
def representsObjective (a : Attribute) (tolerance : Number.Binary64) (q : Canonical) :
    Option Bool :=
  a.functionType?.map fun f => f.represents tolerance q

end Attribute

end SolverProtocol
