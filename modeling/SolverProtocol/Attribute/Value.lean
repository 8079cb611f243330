import SolverProtocol.Index
import SolverProtocol.Json.Value
import SolverProtocol.Status

namespace SolverProtocol

open Number

inductive ValueType where
  | bool
  | text
  | real
  /-- Sizes and counts of what is stored. -/
  | size
  /-- Counts of solver steps, a type of their own. -/
  | steps
  | json
  /-- The handle of a solver, which has no contents here. -/
  | solverHandle
  | var
  | constraintType
  | constraint (type : ConstraintType)
  | sense
  | basisStatus
  | terminationStatus
  | resultStatus
  | function (type : FunctionType)
  | set (type : SetType)
  | option (item : ValueType)
  | list (item : ValueType)
deriving DecidableEq

namespace ValueType

@[reducible]
def Carrier : ValueType → Type
  | .bool => Bool
  | .text => String
  | .real => Binary64
  | .size => Nat
  | .steps => Nat
  | .json => Json
  | .solverHandle => Unit
  | .var => VariableIndex
  | .constraintType => ConstraintType
  | .constraint t => ConstraintIndex t
  | .sense => OptimizationSense
  | .basisStatus => BasisStatus
  | .terminationStatus => TerminationStatus
  | .resultStatus => ResultStatus
  | .function f => f.Carrier
  | .set s => s.Carrier
  | .option item => Option item.Carrier
  | .list item => List item.Carrier

/-- A value of type `σ` as one of type `τ`, if the types agree. -/
def cast? {σ : ValueType} (τ : ValueType) (value : σ.Carrier) : Option τ.Carrier :=
  if same : σ = τ then some (same ▸ value) else none

@[simp]
theorem cast?_self {τ : ValueType} (value : τ.Carrier) : cast? τ value = some value := by
  simp [cast?]

theorem cast?_of_ne {σ τ : ValueType} (value : σ.Carrier) (differ : σ ≠ τ) :
    cast? τ value = none := by
  simp [cast?, differ]

theorem exists_cast? {σ τ : ValueType} (same : σ = τ) (value : σ.Carrier) :
    ∃ given, cast? τ value = some given := by
  subst same
  exact ⟨value, cast?_self value⟩

end ValueType

/-- A value together with its type. -/
abbrev Value : Type := (type : ValueType) × type.Carrier

theorem ValueType.cast?_eq_some_iff {σ τ : ValueType} {value : σ.Carrier} {given : τ.Carrier} :
    cast? τ value = some given ↔ (⟨τ, given⟩ : Value) = ⟨σ, value⟩ := by
  constructor
  · intro found
    by_cases same : σ = τ
    · subst same
      rw [cast?_self] at found
      cases found
      rfl
    · rw [cast?_of_ne value same] at found
      cases found
  · intro same
    cases same
    exact cast?_self value

end SolverProtocol
