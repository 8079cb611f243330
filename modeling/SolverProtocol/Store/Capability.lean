import SolverProtocol.Store.Read
import SolverProtocol.Store.Write

namespace SolverProtocol.Store

open Number

def supports : Attribute → Bool
  | .global (.property .rawSolver) => false
  | _ => true

/-- The attribute is one of the family that belongs to indices of the kind. -/
def supportsFor : Attribute → IndexKind → Bool
  | .var _, .var => true
  | .constraint _, .constraint _ => true
  | _, _ => false

/-- The result exists and satisfies the condition. -/
def resultHas (s : Store) (r : Nat) (condition : ResultRecord → Bool) : Bool :=
  (s.result? r).any condition

def canGetProperty (s : Store) (tolerance : Binary64) : InstanceAttribute → Bool
  | .objectiveFunction f => f.represents tolerance s.objective.function
  | .objectiveValue r => s.resultHas r (·.objectiveValue.isSome)
  | .primalStatus r => s.resultHas r (·.primalStatus.isSome)
  | .dualStatus r => s.resultHas r (·.dualStatus.isSome)
  | .terminationStatus => s.statistics.terminationStatus.isSome
  | .objectiveBound => s.statistics.objectiveBound.isSome
  | .relativeGap => s.statistics.relativeGap.isSome
  | .solveTime => s.statistics.solveTime.isSome
  | .simplexIterations => s.statistics.simplexIterations.isSome
  | .barrierIterations => s.statistics.barrierIterations.isSome
  | .nodeCount => s.statistics.nodeCount.isSome
  | .rawSolver => false
  | _ => true

def canGet (s : Store) (tolerance : Binary64) : Attribute → Bool
  | .global (.parameter (.raw name)) => s.parameters.raw.contains name
  | .global (.parameter _) => true
  | .global (.property a) => s.canGetProperty tolerance a
  | .var _ | .constraint _ => false

/-- Every variable has a value, and there is a variable. -/
def canGetForVariables (s : Store) (a : VariableAttribute) : Bool :=
  !s.variableRecords.isEmpty &&
    match a with
    | .name => true
    | .primalStart => s.variableRecords.entries.all (·.2.primalStart.isSome)
    | .basisStatus => s.variableRecords.entries.all (·.2.basisStatus.isSome)
    | .primal r => s.resultHas r fun result =>
        s.variableRecords.keys.all result.variablePrimal.contains

/-- The live constraints of one type, with their records. -/
def constraintsOf (s : Store) (t : ConstraintType) :
    List (AnyConstraintIndex × ConstraintRecord) :=
  s.constraintRecords.entries.filter fun entry => decide (entry.1.type = t)

/-- Every constraint of the type has a value, and there is one. -/
def canGetForConstraints (s : Store) (t : ConstraintType) (a : ConstraintAttribute) : Bool :=
  let constraints := s.constraintsOf t
  !constraints.isEmpty &&
    match a with
    | .name | .function | .set => true
    | .primalStart => constraints.all (·.2.primalStart.isSome)
    | .dualStart => constraints.all (·.2.dualStart.isSome)
    | .basisStatus => constraints.all (·.2.basisStatus.isSome)
    | .primal r => s.resultHas r fun result =>
        constraints.all fun entry => result.constraintPrimal.contains entry.1
    | .dual r => s.resultHas r fun result =>
        constraints.all fun entry => result.constraintDual.contains entry.1

def canGetFor (s : Store) : Attribute → IndexKind → Bool
  | .var a, .var => s.canGetForVariables a
  | .constraint a, .constraint t => s.canGetForConstraints t a
  | _, _ => false

def canSet (s : Store) : Attribute → Bool
  | .global (.parameter _) => true
  | .global (.property a) =>
    match a with
    | .objectiveValue r | .primalStatus r | .dualStatus r => s.hasResult r
    | .numberOfVariables | .listOfVariableIndices | .listOfConstraints
    | .listOfConstraintIndices _ | .numberOfConstraints _ | .rawSolver => false
    | _ => true
  | .var _ | .constraint _ => false

def canSetFor (s : Store) : Attribute → IndexKind → Bool
  | .var (.primal r), .var => s.hasResult r
  | .constraint (.primal r), .constraint _ => s.hasResult r
  | .constraint (.dual r), .constraint _ => s.hasResult r
  | a, k => supportsFor a k

def hasNamed (s : Store) (target : NameTarget) (name : String) : Bool :=
  (s.indexNamed target name).isOk

end SolverProtocol.Store
