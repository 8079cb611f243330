import SolverProtocol.Function.Scalar
import SolverProtocol.Function.Set

namespace SolverProtocol

/-- The types of the function and the set of a constraint. -/
structure ConstraintType where
  function : FunctionType
  set : SetType
deriving DecidableEq, Repr

def ConstraintType.all : List ConstraintType :=
  FunctionType.all.flatMap fun f => SetType.all.map fun s => ⟨f, s⟩

def ConstraintType.name (t : ConstraintType) : String :=
  s!"{t.function.name}-in-{t.set.name}"

/-- Identifies a constraint of one type within one instance. -/
structure ConstraintIndex (type : ConstraintType) where
  value : Nat
deriving DecidableEq

def ConstraintIndex.toText {t : ConstraintType} (c : ConstraintIndex t) : String :=
  s!"ConstraintIndex<{t.function.name}, {t.set.name}>({c.value})"

/-- The index of a constraint of any type. -/
structure AnyConstraintIndex where
  type : ConstraintType
  value : Nat
deriving DecidableEq

namespace AnyConstraintIndex

def toText (c : AnyConstraintIndex) : String :=
  s!"ConstraintIndex<{c.type.name}>({c.value})"

/-- The index as one of constraints of type `t`, if it is one. -/
def as? (c : AnyConstraintIndex) (t : ConstraintType) : Option (ConstraintIndex t) :=
  if c.type = t then some ⟨c.value⟩ else none

end AnyConstraintIndex

def ConstraintIndex.erase {t : ConstraintType} (c : ConstraintIndex t) : AnyConstraintIndex :=
  ⟨t, c.value⟩

theorem AnyConstraintIndex.as?_eq_some_iff {c : AnyConstraintIndex} {t : ConstraintType}
    {typed : ConstraintIndex t} : c.as? t = some typed ↔ c = typed.erase := by
  rcases c with ⟨u, value⟩
  rcases typed with ⟨other⟩
  by_cases same : u = t <;> simp [as?, ConstraintIndex.erase, same]

/-- An index of either kind. -/
inductive AnyIndex where
  | var (index : VariableIndex)
  | constraint (index : AnyConstraintIndex)
deriving DecidableEq

def AnyIndex.toText : AnyIndex → String
  | .var x => x.toText
  | .constraint c => c.toText

/-- What an index is of: a variable, or a constraint of one type. -/
inductive IndexKind where
  | var
  | constraint (type : ConstraintType)
deriving DecidableEq, Repr

def AnyIndex.kind : AnyIndex → IndexKind
  | .var _ => .var
  | .constraint c => .constraint c.type

namespace IndexKind

@[reducible]
def Index : IndexKind → Type
  | .var => VariableIndex
  | .constraint t => ConstraintIndex t

def toText : IndexKind → String
  | .var => "VariableIndex"
  | .constraint t => s!"ConstraintIndex<{t.name}>"

instance (k : IndexKind) : DecidableEq k.Index :=
  match k with
  | .var => inferInstanceAs (DecidableEq VariableIndex)
  | .constraint t => inferInstanceAs (DecidableEq (ConstraintIndex t))

def erase : (k : IndexKind) → k.Index → AnyIndex
  | .var, x => .var x
  | .constraint _, c => .constraint c.erase

/-- The index as one of kind `k`, if it is one. -/
def as? : (k : IndexKind) → AnyIndex → Option k.Index
  | .var, .var x => some x
  | .constraint t, .constraint c => c.as? t
  | _, _ => none

theorem as?_eq_some_iff {k : IndexKind} {i : AnyIndex} {index : k.Index} :
    k.as? i = some index ↔ i = k.erase index := by
  cases k <;> cases i <;> simp [as?, erase, AnyConstraintIndex.as?_eq_some_iff]

@[simp]
theorem as?_erase (k : IndexKind) (index : k.Index) : k.as? (k.erase index) = some index :=
  as?_eq_some_iff.2 rfl

theorem kind_erase (k : IndexKind) (index : k.Index) : (k.erase index).kind = k := by
  cases k <;> rfl

theorem as?_eq_none {k : IndexKind} {i : AnyIndex} (other : i.kind ≠ k) : k.as? i = none := by
  cases found : k.as? i with
  | none => rfl
  | some index =>
    rw [as?_eq_some_iff] at found
    exact absurd (found ▸ kind_erase k index) other

def indexText : (k : IndexKind) → k.Index → String
  | .var, x => x.toText
  | .constraint _, c => c.toText

def rawValue : (k : IndexKind) → k.Index → Nat
  | .var, x => x.value
  | .constraint _, c => c.value

end IndexKind

/-- What a name is looked up among. -/
inductive NameTarget where
  | var
  | constraint (type : ConstraintType)
  | anyConstraint
deriving DecidableEq, Repr

def NameTarget.toText : NameTarget → String
  | .var => "variable"
  | .constraint t => s!"{t.name} constraint"
  | .anyConstraint => "constraint"

def IndexKind.nameTarget : IndexKind → NameTarget
  | .var => .var
  | .constraint t => .constraint t

end SolverProtocol
