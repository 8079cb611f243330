import SolverProtocol.Store.Write

/-! Changes made to a store in place, step by step. An error ends a change but undoes nothing, so
the checks of a change have to come before its first step. -/

namespace SolverProtocol.Store

open Number

/-- One of the maps in which a store finds things by their names. -/
structure NameMap (κ : Type) where
  names : Store → OrderedMap String κ
  put : Store → OrderedMap String κ → Store
  put_names : ∀ s, put s (names s) = s

def NameMap.ofVariables : NameMap VariableIndex where
  names := variableNames
  put s names := { s with variableNames := names }
  put_names _ := rfl

def NameMap.ofConstraints : NameMap AnyConstraintIndex where
  names := constraintNames
  put s names := { s with constraintNames := names }
  put_names _ := rfl

/-- A change in place; the store that it leaves behind counts also when it fails. -/
abbrev Change (α : Type) : Type := ExceptT ProtocolError (StateM Store) α

namespace Change

/-- How a change of a store ends, with the store that it leaves behind. -/
def outcome {α : Type} (change : Change α) (s : Store) : Except ProtocolError α × Store :=
  StateT.run (ExceptT.run change) s

/-- The record of a variable, which has to be live. -/
def variableRecord (x : VariableIndex) : Change VariableRecord := do
  match (← get).variableRecords.find? x with
  | some record => return record
  | none => throw (.indexNotFound (.var x) kind)

/-- The record of a constraint, which has to be live. -/
def constraintRecord (c : AnyConstraintIndex) : Change ConstraintRecord := do
  match (← get).constraintRecords.find? c with
  | some record => return record
  | none => throw (.indexNotFound (.constraint c) kind)

/-- Changes one result, which has to exist. -/
def onResult (r : Nat) (change : ResultRecord → ResultRecord) : Change Unit := do
  match (← get).result r with
  | .ok _ => modify fun s => { s with results := s.results.modify (r - 1) change }
  | .error e => throw e

/-- Changes the function or the set of a constraint. -/
def onRow (a : ConstraintAttribute) {t : ConstraintType} (c : ConstraintIndex t)
    (change : ConstraintRow t → ConstraintRow t) : Change Unit := do
  match (← get).table? t with
  | none => throw (.unsupportedAccess (.constraint a) kind)
  | some rows =>
    match rows.find? c.value with
    | none => throw (.indexNotFound (.constraint c.erase) kind)
    | some row =>
      modify fun s => { s with tables := s.tables.insert t ⟨t, rows.insert c.value (change row)⟩ }

/-- What had the name `previous` gives it up. -/
def giveUpName {κ : Type} (map : NameMap κ) (previous : String) : Change Unit :=
  unless previous = "" do
    modify fun s => map.put s ((map.names s).erase previous)

/-- The empty name is not kept, so that nothing is found under it. -/
def takeName {κ : Type} (map : NameMap κ) (key : κ) (name : String) : Change Unit :=
  unless name = "" do
    modify fun s => map.put s ((map.names s).insert name key)

/-- Refuses a name that another variable has. -/
def renameVariable (x : VariableIndex) (name : String) : Change Unit := do
  if nameTaken (← get).variableNames x name then throw (.duplicateName .var name)
  let record ← variableRecord x
  modify (·.setVariableRecord x { record with name })
  giveUpName .ofVariables record.name
  takeName .ofVariables x name

/-- Refuses a name that another constraint of any type has. -/
def renameConstraint (c : AnyConstraintIndex) (name : String) : Change Unit := do
  if nameTaken (← get).constraintNames c name then throw (.duplicateName .anyConstraint name)
  let record ← constraintRecord c
  modify (·.setConstraintRecord c { record with name })
  giveUpName .ofConstraints record.name
  takeName .ofConstraints c name

def assignProperty : (a : InstanceAttribute) → a.valueType.Carrier → Change Unit
  | .name, v => modify ({ · with name := v })
  | .objectiveSense, v => modify ({ · with sense := v })
  | .terminationStatus, v => onStatistics ({ · with terminationStatus := some v })
  | .objectiveBound, v => onStatistics ({ · with objectiveBound := some v })
  | .relativeGap, v => onStatistics ({ · with relativeGap := some v })
  | .solveTime, v => onStatistics ({ · with solveTime := some v })
  | .simplexIterations, v => onStatistics ({ · with simplexIterations := some v })
  | .barrierIterations, v => onStatistics ({ · with barrierIterations := some v })
  | .nodeCount, v => onStatistics ({ · with nodeCount := some v })
  | .resultCount, (count : Nat) => do
    if maxResultCount < count then
      throw (.invalidValue (.global (.property .resultCount))
        s!"at most {maxResultCount} results can be stored" kind)
    modify (·.resize count)
  | .objectiveValue r, v => onResult r ({ · with objectiveValue := some v })
  | .primalStatus r, v => onResult r ({ · with primalStatus := some v })
  | .dualStatus r, v => onResult r ({ · with dualStatus := some v })
  | .objectiveFunction f, g => modify ({ · with objective := ⟨f, f.toCanonical g⟩ })
  | .numberOfVariables, _ => readOnly .numberOfVariables
  | .listOfVariableIndices, _ => readOnly .listOfVariableIndices
  | .listOfConstraints, _ => readOnly .listOfConstraints
  | .listOfConstraintIndices t, _ => readOnly (.listOfConstraintIndices t)
  | .numberOfConstraints t, _ => readOnly (.numberOfConstraints t)
  | .rawSolver, _ => readOnly .rawSolver
where
  onStatistics (change : StatisticsRecord → StatisticsRecord) : Change Unit :=
    modify fun s => { s with statistics := change s.statistics }
  readOnly (a : InstanceAttribute) : Change Unit :=
    throw (.unsupportedAccess (.global (.property a)) kind)

def assign : (a : GlobalAttribute) → a.Value → Change Unit
  | .parameter p, v => modify (·.writeParameter p v)
  | .property a, v => assignProperty a v

/-- The variable has to be live before anything else is looked at. -/
def assignVariable (a : VariableAttribute) (x : VariableIndex) (v : a.valueType.Carrier) :
    Change Unit := do
  let record ← variableRecord x
  match a, v with
  | .name, name => renameVariable x name
  | .primalStart, v => modify (·.setVariableRecord x { record with primalStart := some v })
  | .basisStatus, v => modify (·.setVariableRecord x { record with basisStatus := some v })
  | .primal r, v => onResult r fun result =>
      { result with variablePrimal := result.variablePrimal.insert x v }

/-- The constraint has to be live before anything else is looked at. -/
def assignConstraint {t : ConstraintType} (a : ConstraintAttribute) (c : ConstraintIndex t)
    (v : (a.valueType t).Carrier) : Change Unit := do
  let record ← constraintRecord c.erase
  match a, v with
  | .name, name => renameConstraint c.erase name
  | .primalStart, v => modify (·.setConstraintRecord c.erase { record with primalStart := some v })
  | .dualStart, v => modify (·.setConstraintRecord c.erase { record with dualStart := some v })
  | .basisStatus, v => modify (·.setConstraintRecord c.erase { record with basisStatus := some v })
  | .primal r, v => onResult r fun result =>
      { result with constraintPrimal := result.constraintPrimal.insert c.erase v }
  | .dual r, v => onResult r fun result =>
      { result with constraintDual := result.constraintDual.insert c.erase v }
  | .function, f => onRow .function c fun row => { row with function := f }
  | .set, set => onRow .set c fun row => { row with set }

def assignAt : {k : IndexKind} → (a : IndexedAttribute k) → k.Index → a.Value → Change Unit
  | .var, a, x, v => assignVariable a x v
  | .constraint _, a, c, v => assignConstraint a c v

/-- The primal values of several variables at once. The variables are checked in turn, and then the
result. -/
def assignPrimals (r : Nat) (xs : List VariableIndex) (values : List Binary64) :
    Change Unit := do
  let s ← get
  match xs.find? fun x => !s.variableRecords.contains x with
  | some missing => throw (.indexNotFound (.var missing) kind)
  | none => onResult r fun result =>
      { result with variablePrimal := result.variablePrimal.insertAll (xs.zip values) }

def deleteVariable (x : VariableIndex) : Change Unit := do
  let record ← variableRecord x
  modify fun s => { s with variableRecords := s.variableRecords.erase x }
  giveUpName .ofVariables record.name
  modify fun s => { s with
    results := s.results.map fun result =>
      { result with variablePrimal := result.variablePrimal.erase x } }

def deleteConstraint {t : ConstraintType} (c : ConstraintIndex t) : Change Unit := do
  let record ← constraintRecord c.erase
  modify fun s => { s with constraintRecords := s.constraintRecords.erase c.erase }
  if let some table := (← get).tables.find? t then
    modify fun s => { s with tables := s.tables.insert t (table.erase c.value) }
  giveUpName .ofConstraints record.name
  modify fun s => { s with
    results := s.results.map fun result =>
      { result with
        constraintPrimal := result.constraintPrimal.erase c.erase
        constraintDual := result.constraintDual.erase c.erase } }

end Change

end SolverProtocol.Store
