import SolverProtocol.Store.Basic

/-! What a write to a store comes to as a whole: a changed store, or the reason for which there is
none. The same writes are made in place in `SolverProtocol.Store.Change`. -/

namespace SolverProtocol.Store

open Number

/-- The largest number of results that a store keeps. -/
def maxResultCount : Nat := 1024

def writeParameter (s : Store) : (p : SolverParameter) → p.valueType.Carrier → Store
  | .silent, v => { s with parameters := { s.parameters with silent := v } }
  | .timeLimit, v => { s with parameters := { s.parameters with timeLimit := v } }
  | .numberOfThreads, v => { s with parameters := { s.parameters with numberOfThreads := v } }
  | .raw name, v => { s with parameters := { s.parameters with
      raw := s.parameters.raw.insert name v } }

/-- Changes one result, which has to exist. -/
def updateResult (s : Store) (r : Nat) (change : ResultRecord → ResultRecord) :
    Except ProtocolError Store := do
  let _ ← s.result r
  return { s with results := s.results.modify (r - 1) change }

/-- The results up to the new count survive, and new ones are empty. -/
def resize (s : Store) (count : Nat) : Store :=
  { s with
    results := s.results.take count ++ List.replicate (count - s.results.length) {} }

def writeProperty (s : Store) :
    (a : InstanceAttribute) → a.valueType.Carrier → Except ProtocolError Store
  | .name, v => .ok { s with name := v }
  | .objectiveSense, v => .ok { s with sense := v }
  | .terminationStatus, v => statistics { s.statistics with terminationStatus := some v }
  | .objectiveBound, v => statistics { s.statistics with objectiveBound := some v }
  | .relativeGap, v => statistics { s.statistics with relativeGap := some v }
  | .solveTime, v => statistics { s.statistics with solveTime := some v }
  | .simplexIterations, v => statistics { s.statistics with simplexIterations := some v }
  | .barrierIterations, v => statistics { s.statistics with barrierIterations := some v }
  | .nodeCount, v => statistics { s.statistics with nodeCount := some v }
  | .resultCount, (count : Nat) =>
    if count ≤ maxResultCount then .ok (s.resize count)
    else .error (.invalidValue (.global (.property .resultCount))
      s!"at most {maxResultCount} results can be stored" kind)
  | .objectiveValue r, v => s.updateResult r fun result => { result with objectiveValue := some v }
  | .primalStatus r, v => s.updateResult r fun result => { result with primalStatus := some v }
  | .dualStatus r, v => s.updateResult r fun result => { result with dualStatus := some v }
  | .objectiveFunction f, g => .ok { s with objective := ⟨f, f.toCanonical g⟩ }
  | .numberOfVariables, _ => readOnly .numberOfVariables
  | .listOfVariableIndices, _ => readOnly .listOfVariableIndices
  | .listOfConstraints, _ => readOnly .listOfConstraints
  | .listOfConstraintIndices t, _ => readOnly (.listOfConstraintIndices t)
  | .numberOfConstraints t, _ => readOnly (.numberOfConstraints t)
  | .rawSolver, _ => readOnly .rawSolver
where
  statistics (record : StatisticsRecord) : Except ProtocolError Store :=
    .ok { s with statistics := record }
  readOnly (a : InstanceAttribute) : Except ProtocolError Store :=
    unsupported (.global (.property a))

def writeGlobal (s : Store) : (a : GlobalAttribute) → a.Value → Except ProtocolError Store
  | .parameter p, v => .ok (s.writeParameter p v)
  | .property a, v => s.writeProperty a v

/-- The name belongs to something else than `key`. -/
def nameTaken {κ : Type} [DecidableEq κ] (names : OrderedMap String κ) (key : κ) (name : String) :
    Bool :=
  (names.find? name).any fun holder => decide (holder ≠ key)

/-- The names after `key` has given up the name `previous` for another one. -/
def reassignName {κ : Type} (names : OrderedMap String κ) (key : κ) (previous name : String) :
    OrderedMap String κ :=
  if name = "" then releaseName names previous else (releaseName names previous).insert name key

def setVariableRecord (s : Store) (x : VariableIndex) (record : VariableRecord) : Store :=
  { s with variableRecords := s.variableRecords.insert x record }

def setConstraintRecord (s : Store) (c : AnyConstraintIndex) (record : ConstraintRecord) : Store :=
  { s with constraintRecords := s.constraintRecords.insert c record }

/-- The variable has to be live before anything else is looked at. -/
def writeVariable (s : Store) (a : VariableAttribute) (x : VariableIndex)
    (v : a.valueType.Carrier) : Except ProtocolError Store :=
  match s.variableRecords.find? x with
  | none => notFound (.var x)
  | some record =>
    match a, v with
    | .name, name =>
      if nameTaken s.variableNames x name then .error (.duplicateName .var name)
      else .ok { s.setVariableRecord x { record with name } with
        variableNames := reassignName s.variableNames x record.name name }
    | .primalStart, v => .ok (s.setVariableRecord x { record with primalStart := some v })
    | .basisStatus, v => .ok (s.setVariableRecord x { record with basisStatus := some v })
    | .primal r, v => s.updateResult r fun result =>
        { result with variablePrimal := result.variablePrimal.insert x v }

/-- Changes the function or the set of a constraint. -/
def updateRow (s : Store) (a : ConstraintAttribute) {t : ConstraintType} (c : ConstraintIndex t)
    (change : ConstraintRow t → ConstraintRow t) : Except ProtocolError Store :=
  match s.table? t with
  | none => unsupported (.constraint a)
  | some rows =>
    match rows.find? c.value with
    | none => notFound (.constraint c.erase)
    | some row =>
      .ok { s with tables := s.tables.insert t ⟨t, rows.insert c.value (change row)⟩ }

/-- The constraint has to be live before anything else is looked at. -/
def writeConstraint (s : Store) {t : ConstraintType} (a : ConstraintAttribute)
    (c : ConstraintIndex t) (v : (a.valueType t).Carrier) : Except ProtocolError Store :=
  match s.constraintRecords.find? c.erase with
  | none => notFound (.constraint c.erase)
  | some record =>
    match a, v with
    | .name, name =>
      if nameTaken s.constraintNames c.erase name then .error (.duplicateName .anyConstraint name)
      else .ok { s.setConstraintRecord c.erase { record with name } with
        constraintNames := reassignName s.constraintNames c.erase record.name name }
    | .primalStart, v => .ok (s.setConstraintRecord c.erase { record with primalStart := some v })
    | .dualStart, v => .ok (s.setConstraintRecord c.erase { record with dualStart := some v })
    | .basisStatus, v => .ok (s.setConstraintRecord c.erase { record with basisStatus := some v })
    | .primal r, v => s.updateResult r fun result =>
        { result with constraintPrimal := result.constraintPrimal.insert c.erase v }
    | .dual r, v => s.updateResult r fun result =>
        { result with constraintDual := result.constraintDual.insert c.erase v }
    | .function, f => s.updateRow .function c fun row => { row with function := f }
    | .set, set => s.updateRow .set c fun row => { row with set }

def writeIndexed (s : Store) :
    {k : IndexKind} → (a : IndexedAttribute k) → k.Index → a.Value → Except ProtocolError Store
  | .var, a, x, v => s.writeVariable a x v
  | .constraint _, a, c, v => s.writeConstraint a c v

/-- The primal values of several variables at once. The variables are checked in turn, and then the
result. -/
def writePrimals (s : Store) (r : Nat) (xs : List VariableIndex) (values : List Binary64) :
    Except ProtocolError Store :=
  match xs.find? fun x => !s.variableRecords.contains x with
  | some missing => notFound (.var missing)
  | none => s.updateResult r fun result =>
      { result with variablePrimal := result.variablePrimal.insertAll (xs.zip values) }

end SolverProtocol.Store
