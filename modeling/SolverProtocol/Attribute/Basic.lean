import SolverProtocol.Attribute.Value
import SolverProtocol.Text.Quoted

namespace SolverProtocol

/-- What only affects how an instance is solved. -/
inductive SolverParameter where
  | silent
  | timeLimit
  | numberOfThreads
  /-- A parameter that only one solver knows, under the name it has there. -/
  | raw (name : String)
deriving DecidableEq

/-- Properties of the whole problem or of its latest solve. -/
inductive InstanceAttribute where
  | name
  | objectiveSense
  | numberOfVariables
  | listOfVariableIndices
  | listOfConstraints
  | objectiveValue (result : Nat)
  | objectiveBound
  | relativeGap
  | solveTime
  | simplexIterations
  | barrierIterations
  | nodeCount
  | rawSolver
  | resultCount
  | terminationStatus
  | primalStatus (result : Nat)
  | dualStatus (result : Nat)
  | objectiveFunction (type : FunctionType)
  | listOfConstraintIndices (type : ConstraintType)
  | numberOfConstraints (type : ConstraintType)
deriving DecidableEq

inductive VariableAttribute where
  | name
  | primalStart
  | primal (result : Nat)
  | basisStatus
deriving DecidableEq

inductive ConstraintAttribute where
  | name
  | primalStart
  | dualStart
  | primal (result : Nat)
  | dual (result : Nat)
  | basisStatus
  | function
  | set
deriving DecidableEq

/-- Attributes with one value for the whole instance. -/
inductive GlobalAttribute where
  | parameter (attr : SolverParameter)
  | property (attr : InstanceAttribute)
deriving DecidableEq

inductive Attribute where
  | global (attr : GlobalAttribute)
  | var (attr : VariableAttribute)
  | constraint (attr : ConstraintAttribute)
deriving DecidableEq

inductive AttributeFamily where
  | solverParameter
  | instanceAttribute
  | variableAttribute
  | constraintAttribute
deriving DecidableEq, Repr

/-- The attributes with a value at each index of a kind. -/
@[reducible]
def IndexedAttribute : IndexKind → Type
  | .var => VariableAttribute
  | .constraint _ => ConstraintAttribute

instance (k : IndexKind) : DecidableEq (IndexedAttribute k) :=
  match k with
  | .var => inferInstanceAs (DecidableEq VariableAttribute)
  | .constraint _ => inferInstanceAs (DecidableEq ConstraintAttribute)

def SolverParameter.valueType : SolverParameter → ValueType
  | .silent => .bool
  | .timeLimit => .option .real
  | .numberOfThreads => .option .size
  | .raw _ => .json

def InstanceAttribute.valueType : InstanceAttribute → ValueType
  | .name => .text
  | .objectiveSense => .sense
  | .numberOfVariables | .resultCount | .numberOfConstraints _ => .size
  | .listOfVariableIndices => .list .var
  | .listOfConstraints => .list .constraintType
  | .objectiveValue _ | .objectiveBound | .relativeGap | .solveTime => .real
  | .simplexIterations | .barrierIterations | .nodeCount => .steps
  | .rawSolver => .solverHandle
  | .terminationStatus => .terminationStatus
  | .primalStatus _ | .dualStatus _ => .resultStatus
  | .objectiveFunction f => .function f
  | .listOfConstraintIndices t => .list (.constraint t)

def VariableAttribute.valueType : VariableAttribute → ValueType
  | .name => .text
  | .primalStart | .primal _ => .real
  | .basisStatus => .basisStatus

def ConstraintAttribute.valueType (t : ConstraintType) : ConstraintAttribute → ValueType
  | .name => .text
  | .primalStart | .dualStart | .primal _ | .dual _ => .real
  | .basisStatus => .basisStatus
  | .function => .function t.function
  | .set => .set t.set

/-- The type of the values, if it is the same for all types of constraints. -/
def ConstraintAttribute.uniformType? : ConstraintAttribute → Option ValueType
  | .name => some .text
  | .primalStart | .dualStart | .primal _ | .dual _ => some .real
  | .basisStatus => some .basisStatus
  | .function | .set => none

namespace GlobalAttribute

def valueType : GlobalAttribute → ValueType
  | .parameter p => p.valueType
  | .property a => a.valueType

abbrev Value (a : GlobalAttribute) : Type := a.valueType.Carrier

end GlobalAttribute

namespace IndexedAttribute

def valueType : {k : IndexKind} → IndexedAttribute k → ValueType
  | .var, a => VariableAttribute.valueType a
  | .constraint t, a => ConstraintAttribute.valueType t a

abbrev Value {k : IndexKind} (a : IndexedAttribute k) : Type := (valueType a).Carrier

/-- The values at several indices. -/
abbrev Values {k : IndexKind} (a : IndexedAttribute k) : Type :=
  (ValueType.list (valueType a)).Carrier

def toAttribute : {k : IndexKind} → IndexedAttribute k → Attribute
  | .var, a => .var a
  | .constraint _, a => .constraint a

end IndexedAttribute

def SolverParameter.name : SolverParameter → String
  | .silent => "Silent"
  | .timeLimit => "TimeLimit"
  | .numberOfThreads => "NumberOfThreads"
  | .raw _ => "RawParameter"

def InstanceAttribute.label : InstanceAttribute → String
  | .name => "Name"
  | .objectiveSense => "ObjectiveSense"
  | .numberOfVariables => "NumberOfVariables"
  | .listOfVariableIndices => "ListOfVariableIndices"
  | .listOfConstraints => "ListOfConstraints"
  | .objectiveValue _ => "ObjectiveValue"
  | .objectiveBound => "ObjectiveBound"
  | .relativeGap => "RelativeGap"
  | .solveTime => "SolveTime"
  | .simplexIterations => "SimplexIterations"
  | .barrierIterations => "BarrierIterations"
  | .nodeCount => "NodeCount"
  | .rawSolver => "RawSolver"
  | .resultCount => "ResultCount"
  | .terminationStatus => "TerminationStatus"
  | .primalStatus _ => "PrimalStatus"
  | .dualStatus _ => "DualStatus"
  | .objectiveFunction _ => "ObjectiveFunction"
  | .listOfConstraintIndices _ => "ListOfConstraintIndices"
  | .numberOfConstraints _ => "NumberOfConstraints"

def VariableAttribute.label : VariableAttribute → String
  | .name => "VariableName"
  | .primalStart => "VariablePrimalStart"
  | .primal _ => "VariablePrimal"
  | .basisStatus => "VariableBasisStatus"

def ConstraintAttribute.label : ConstraintAttribute → String
  | .name => "ConstraintName"
  | .primalStart => "ConstraintPrimalStart"
  | .dualStart => "ConstraintDualStart"
  | .primal _ => "ConstraintPrimal"
  | .dual _ => "ConstraintDual"
  | .basisStatus => "ConstraintBasisStatus"
  | .function => "ConstraintFunction"
  | .set => "ConstraintSet"

def AttributeFamily.name : AttributeFamily → String
  | .solverParameter => "SolverParameter"
  | .instanceAttribute => "InstanceAttribute"
  | .variableAttribute => "VariableAttribute"
  | .constraintAttribute => "ConstraintAttribute"

namespace Attribute

def family : Attribute → AttributeFamily
  | .global (.parameter _) => .solverParameter
  | .global (.property _) => .instanceAttribute
  | .var _ => .variableAttribute
  | .constraint _ => .constraintAttribute

/-- The attributes that have no parameters. -/
def plain : List Attribute :=
  [SolverParameter.silent, .timeLimit, .numberOfThreads].map (.global ∘ .parameter) ++
  [InstanceAttribute.name, .objectiveSense, .numberOfVariables, .listOfVariableIndices,
    .listOfConstraints, .objectiveBound, .relativeGap, .solveTime, .simplexIterations,
    .barrierIterations, .nodeCount, .rawSolver, .resultCount, .terminationStatus].map
    (.global ∘ .property) ++
  [VariableAttribute.name, .primalStart, .basisStatus].map .var ++
  [ConstraintAttribute.name, .primalStart, .dualStart, .basisStatus, .function, .set].map
    .constraint

/-- The name without parameters. -/
def label : Attribute → String
  | .global (.parameter p) => p.name
  | .global (.property a) => a.label
  | .var a => a.label
  | .constraint a => a.label

/-- The result that a value belongs to, if the attribute has one for each result. -/
def resultIndex? : Attribute → Option Nat
  | .global (.property (.objectiveValue r)) => some r
  | .global (.property (.primalStatus r)) => some r
  | .global (.property (.dualStatus r)) => some r
  | .var (.primal r) => some r
  | .constraint (.primal r) => some r
  | .constraint (.dual r) => some r
  | _ => none

/-- The type of constraints that the attribute is about. -/
def constraintType? : Attribute → Option ConstraintType
  | .global (.property (.listOfConstraintIndices t)) => some t
  | .global (.property (.numberOfConstraints t)) => some t
  | _ => none

/-- The type of function that the attribute asks for. -/
def functionType? : Attribute → Option FunctionType
  | .global (.property (.objectiveFunction f)) => some f
  | _ => none

theorem functionType?_eq_some_iff {a : GlobalAttribute} {f : FunctionType} :
    (global a).functionType? = some f ↔ a = .property (.objectiveFunction f) := by
  rcases a with p | a
  · simp [functionType?]
  · cases a <;> simp [functionType?]

/-- The attribute with its parameters. -/
def toText (a : Attribute) : String :=
  match a with
  | .global (.parameter (.raw name)) => s!"{a.label} \x7b name: {Text.quoted name} \x7d"
  | _ =>
    match a.resultIndex?, a.constraintType?, a.functionType? with
    | some r, _, _ => s!"{a.label} \x7b result_index: {r} \x7d"
    | _, some t, _ => s!"{a.label}<{t.function.name}, {t.set.name}>"
    | _, _, some f => s!"{a.label}<{f.name}>"
    | none, none, none => a.label

end Attribute

end SolverProtocol
