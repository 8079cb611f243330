import SolverProtocol.Request.Read

/-! Requests to store values. The caller leaves the value in a slot, and the instance takes it out
by naming what it takes it for. Nothing is taken when that is not what the request is about, and
what has been taken is gone from the slot. -/

namespace SolverProtocol

/-- An attempt to take the value of a global attribute. -/
inductive Take where
  | value (a : GlobalAttribute)
  /-- The objective in canonical form, with the type it was written as. -/
  | objective

namespace Take

def Response : Take → Type
  | .value a => Option a.Value
  | .objective => Option (FunctionType × Canonical)

def deliver (a : GlobalAttribute) :
    (take : Take) → Option a.Value → take.Response × Option a.Value
  | .value b, slot => if same : a = b then (same ▸ slot, none) else (none, slot)
  | .objective, slot => (Attribute.global a).drainObjective slot

end Take

/-- An attempt to take the value of an attribute at an index, or the values at several. -/
inductive IndexedTake where
  /-- At indices of one kind. -/
  | typed (kind : IndexKind) (attr : IndexedAttribute kind)
  /-- At constraints of any type, for an attribute whose values are of the same type at all. -/
  | uniform (attr : ConstraintAttribute) (type : ValueType) (same : attr.uniformType? = some type)

namespace IndexedTake

/-- What the take finds of an index. -/
@[reducible]
def Index : IndexedTake → Type
  | typed k _ => k.Index
  | uniform .. => AnyConstraintIndex

def toAttribute : IndexedTake → Attribute
  | typed _ a => a.toAttribute
  | uniform a .. => .constraint a

def valueType : IndexedTake → ValueType
  | typed _ a => a.valueType
  | uniform _ type _ => type

protected abbrev Value (take : IndexedTake) : Type := take.valueType.Carrier

protected abbrev Values (take : IndexedTake) : Type := (ValueType.list take.valueType).Carrier

def find? : (take : IndexedTake) → AnyIndex → Option take.Index
  | typed k _, i => k.as? i
  | uniform .., .constraint c => some c
  | uniform .., .var _ => none

/-- Gives the value of a request for `asked` to a take for `wanted`, together with what the take
finds of the indices. -/
def give {α : Type} {σ : ValueType} (asked wanted : Attribute) (found : Option α) (τ : ValueType)
    (slot : Option σ.Carrier) : Option (α × τ.Carrier) × Option σ.Carrier :=
  match found with
  | some indices =>
    if asked = wanted ∧ σ = τ then
      ((slot.bind (ValueType.cast? τ)).map fun value => (indices, value), none)
    else (none, slot)
  | none => (none, slot)

/-- The request has to be for the same attribute, at an index that the take finds. -/
def deliver {k : IndexKind} (a : IndexedAttribute k) (index : k.Index) (take : IndexedTake)
    (slot : Option a.Value) : Option (take.Index × take.Value) × Option a.Value :=
  give a.toAttribute take.toAttribute (take.find? (k.erase index)) take.valueType slot

/-- The request has to be for the same attribute, at indices all of which the take finds, and for
values of the same type. -/
def deliverAll {k : IndexKind} (a : IndexedAttribute k) (indices : List k.Index)
    (take : IndexedTake) (slot : Option a.Values) :
    Option (List take.Index × take.Values) × Option a.Values :=
  give a.toAttribute take.toAttribute (indices.mapM fun index => take.find? (k.erase index))
    (.list take.valueType) slot

private theorem mapM_as?_erase {k : IndexKind} (indices : List k.Index) :
    (indices.mapM fun index => k.as? (k.erase index)) = some indices := by
  induction indices with
  | nil => rfl
  | cons index rest ih =>
    rw [List.mapM_cons, IndexKind.as?_erase, ih]
    rfl

theorem deliver_own {k : IndexKind} (a : IndexedAttribute k) (index : k.Index)
    (slot : Option a.Value) :
    deliver a index (.typed k a) slot = (slot.map fun value => (index, value), none) := by
  cases slot <;> simp [deliver, give, find?, toAttribute, valueType] <;> rfl

theorem deliverAll_own {k : IndexKind} (a : IndexedAttribute k) (indices : List k.Index)
    (slot : Option a.Values) :
    deliverAll a indices (.typed k a) slot =
      (slot.map fun values => (indices, values), none) := by
  simp only [deliverAll, find?]
  rw [mapM_as?_erase]
  cases slot <;> simp [give, toAttribute, valueType] <;> rfl

end IndexedTake

abbrev Assignment (σ : Type) : Type :=
  Program Take Take.Response (Outcome σ)

abbrev IndexedAssignment (σ : Type) : Type :=
  Program IndexedTake (fun take => Option (take.Index × take.Value)) (Outcome σ)

abbrev BulkAssignment (σ : Type) : Type :=
  Program IndexedTake (fun take => Option (List take.Index × take.Values)) (Outcome σ)

end SolverProtocol
