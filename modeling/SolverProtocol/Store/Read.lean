import SolverProtocol.Store.Basic

namespace SolverProtocol.Store

open Number

/-- The value, or the error that there is none. -/
def present {α : Type} (a : Attribute) : Option α → Except ProtocolError α
  | some value => .ok value
  | none => .error (.noValue a kind)

/-- The types with at least one constraint, in the order in which each was first used. -/
def constraintTypes (s : Store) : List ConstraintType :=
  (s.tables.entries.filter fun entry => !entry.2.rows.isEmpty).map (·.2.type)

/-- The indices listed by the table kept under a type. -/
def indicesUnder (s : Store) (t : ConstraintType) : List AnyConstraintIndex :=
  ((s.tables.find? t).map AnyTable.indices).getD []

def readParameter (s : Store) : (p : SolverParameter) → Except ProtocolError p.valueType.Carrier
  | .silent => .ok s.parameters.silent
  | .timeLimit => .ok s.parameters.timeLimit
  | .numberOfThreads => .ok s.parameters.numberOfThreads
  | .raw name => present (.global (.parameter (.raw name))) (s.parameters.raw.find? name)

/-- A value of one result. -/
def readResult {α : Type} (s : Store) (a : Attribute) (r : Nat)
    (value : ResultRecord → Option α) : Except ProtocolError α := do
  present a (value (← s.result r))

/-- The objective is converted within the tolerance. -/
def readProperty (s : Store) (tolerance : Binary64) :
    (a : InstanceAttribute) → Except ProtocolError a.valueType.Carrier
  | .name => .ok s.name
  | .objectiveSense => .ok s.sense
  | .numberOfVariables => .ok s.variableRecords.size
  | .listOfVariableIndices => .ok s.variableRecords.keys
  | .listOfConstraints => .ok s.constraintTypes
  | .resultCount => .ok s.results.length
  | .terminationStatus => statistic .terminationStatus s.statistics.terminationStatus
  | .objectiveBound => statistic .objectiveBound s.statistics.objectiveBound
  | .relativeGap => statistic .relativeGap s.statistics.relativeGap
  | .solveTime => statistic .solveTime s.statistics.solveTime
  | .simplexIterations => statistic .simplexIterations s.statistics.simplexIterations
  | .barrierIterations => statistic .barrierIterations s.statistics.barrierIterations
  | .nodeCount => statistic .nodeCount s.statistics.nodeCount
  | .objectiveValue r => ofResult (.objectiveValue r) r (·.objectiveValue)
  | .primalStatus r => ofResult (.primalStatus r) r (·.primalStatus)
  | .dualStatus r => ofResult (.dualStatus r) r (·.dualStatus)
  | .listOfConstraintIndices t => .ok ((s.indicesUnder t).filterMap (·.as? t))
  | .numberOfConstraints t => .ok ((s.indicesUnder t).countP fun c => decide (c.type = t))
  | .objectiveFunction f => convertCanonical f s.objective.source tolerance s.objective.function
  | .rawSolver => unsupported (.global (.property .rawSolver))
where
  statistic {α : Type} (a : InstanceAttribute) (value : Option α) : Except ProtocolError α :=
    present (.global (.property a)) value
  ofResult {α : Type} (a : InstanceAttribute) (r : Nat) (value : ResultRecord → Option α) :
      Except ProtocolError α :=
    s.readResult (.global (.property a)) r value

def readGlobal (s : Store) (tolerance : Binary64) :
    (a : GlobalAttribute) → Except ProtocolError a.Value
  | .parameter p => s.readParameter p
  | .property a => s.readProperty tolerance a

/-- The variable has to be live before anything else is looked at. -/
def readVariable (s : Store) (a : VariableAttribute) (x : VariableIndex) :
    Except ProtocolError a.valueType.Carrier :=
  match s.variableRecords.find? x with
  | none => notFound (.var x)
  | some record =>
    match a with
    | .name => .ok record.name
    | .primalStart => present (.var .primalStart) record.primalStart
    | .basisStatus => present (.var .basisStatus) record.basisStatus
    | .primal r => s.readResult (.var (.primal r)) r (·.variablePrimal.find? x)

/-- The function and the set of a constraint. -/
def row (s : Store) (a : ConstraintAttribute) {t : ConstraintType} (c : ConstraintIndex t) :
    Except ProtocolError (ConstraintRow t) :=
  match s.table? t with
  | none => unsupported (.constraint a)
  | some rows =>
    match rows.find? c.value with
    | none => notFound (.constraint c.erase)
    | some row => .ok row

/-- The constraint has to be live before anything else is looked at. -/
def readConstraint (s : Store) {t : ConstraintType} (a : ConstraintAttribute)
    (c : ConstraintIndex t) : Except ProtocolError (a.valueType t).Carrier :=
  match s.constraintRecords.find? c.erase with
  | none => notFound (.constraint c.erase)
  | some record =>
    match a with
    | .name => .ok record.name
    | .primalStart => present (.constraint .primalStart) record.primalStart
    | .dualStart => present (.constraint .dualStart) record.dualStart
    | .basisStatus => present (.constraint .basisStatus) record.basisStatus
    | .primal r => s.readResult (.constraint (.primal r)) r (·.constraintPrimal.find? c.erase)
    | .dual r => s.readResult (.constraint (.dual r)) r (·.constraintDual.find? c.erase)
    | .function => (s.row .function c).map (·.function)
    | .set => (s.row .set c).map (·.set)

def readIndexed (s : Store) :
    {k : IndexKind} → (a : IndexedAttribute k) → k.Index → Except ProtocolError a.Value
  | .var, a, x => s.readVariable a x
  | .constraint _, a, c => s.readConstraint a c

/-- The primal values of several variables at once. The result is looked for only if there are
variables, and then before any of them. -/
def readPrimals (s : Store) (r : Nat) (xs : List VariableIndex) :
    Except ProtocolError (List Binary64) := do
  if xs.isEmpty then return []
  let result ← s.result r
  xs.mapM fun x =>
    if s.variableRecords.contains x then present (.var (.primal r)) (result.variablePrimal.find? x)
    else notFound (.var x)

/-- What has the name and matches the target. -/
def indexNamed (s : Store) (target : NameTarget) (name : String) :
    Except ProtocolError AnyIndex :=
  match found with
  | some index => .ok index
  | none => .error (.nameNotFound target name kind)
where
  found : Option AnyIndex :=
    match target with
    | .var => (s.variableNames.find? name).map .var
    | .anyConstraint => (s.constraintNames.find? name).map .constraint
    | .constraint t =>
      ((s.constraintNames.find? name).filter (fun c => decide (c.type = t))).map .constraint

end SolverProtocol.Store
