import SolverProtocol.Backend.Basic

namespace SolverProtocol

open Number

/-- What is known of a variable; the name is empty while it has none. -/
structure VariableRecord where
  name : String := ""
  primalStart : Option Binary64 := none
  basisStatus : Option BasisStatus := none

/-- What is known of a constraint beside its function and set. -/
structure ConstraintRecord where
  name : String := ""
  primalStart : Option Binary64 := none
  dualStart : Option Binary64 := none
  basisStatus : Option BasisStatus := none

/-- One primal and dual result of a solve. -/
structure ResultRecord where
  objectiveValue : Option Binary64 := none
  primalStatus : Option ResultStatus := none
  dualStatus : Option ResultStatus := none
  variablePrimal : OrderedMap VariableIndex Binary64 := .empty
  constraintPrimal : OrderedMap AnyConstraintIndex Binary64 := .empty
  constraintDual : OrderedMap AnyConstraintIndex Binary64 := .empty

structure ParameterRecord where
  silent : Bool := false
  timeLimit : Option Binary64 := none
  numberOfThreads : Option Nat := none
  raw : OrderedMap String Json := .empty

/-- What a solve reports apart from its results. -/
structure StatisticsRecord where
  terminationStatus : Option TerminationStatus := none
  objectiveBound : Option Binary64 := none
  relativeGap : Option Binary64 := none
  solveTime : Option Binary64 := none
  simplexIterations : Option Nat := none
  barrierIterations : Option Nat := none
  nodeCount : Option Nat := none

/-- The objective in canonical form, with the type it was written as. -/
structure ObjectiveRecord where
  source : FunctionType := .affine .real
  function : Canonical := ⟨[], [], .zero⟩

/-- The function and the set of a constraint. -/
structure ConstraintRow (t : ConstraintType) where
  function : t.function.Carrier
  set : t.set.Carrier

/-- The constraints of one type by the raw values of their indices. -/
abbrev ConstraintTable (t : ConstraintType) : Type :=
  OrderedMap Nat (ConstraintRow t)

/-- A table together with the type of its constraints. -/
structure AnyTable where
  type : ConstraintType
  rows : ConstraintTable type

namespace AnyTable

def empty (t : ConstraintType) : AnyTable := ⟨t, .empty⟩

/-- The table as one of constraints of type `t`, if it is one. -/
def as? (table : AnyTable) (t : ConstraintType) : Option (ConstraintTable t) :=
  if same : table.type = t then some (same ▸ table.rows) else none

theorem as?_eq_some_iff {table : AnyTable} {t : ConstraintType} {rows : ConstraintTable t} :
    table.as? t = some rows ↔ table = ⟨t, rows⟩ := by
  rcases table with ⟨u, kept⟩
  by_cases same : u = t
  · subst same; simp [as?]
  · simp [as?, same]

def indices (table : AnyTable) : List AnyConstraintIndex :=
  table.rows.keys.map fun value => ⟨table.type, value⟩

def erase (table : AnyTable) (value : Nat) : AnyTable :=
  ⟨table.type, table.rows.erase value⟩

theorem isEmpty_indices (table : AnyTable) : table.indices.isEmpty = table.rows.isEmpty := by
  simp [indices, OrderedMap.keys, OrderedMap.isEmpty]

theorem indices_erase (table : AnyTable) (value : Nat) :
    (table.erase value).indices =
      table.indices.filter fun c => decide (c ≠ ⟨table.type, value⟩) := by
  simp [indices, erase, OrderedMap.keys_erase, List.filter_map, Function.comp_def]

end AnyTable

/-- What is kept in memory; nothing is ever solved, and results are written like other values. The
raw values of constraint indices are counted over all types together. The table of a type
stays when its last constraint is deleted. -/
structure Store where
  name : String := ""
  sense : OptimizationSense := .feasibility
  objective : ObjectiveRecord := {}
  parameters : ParameterRecord := {}
  nextVariable : Nat := 1
  nextConstraint : Nat := 1
  variableRecords : OrderedMap VariableIndex VariableRecord := .empty
  tables : OrderedMap ConstraintType AnyTable := .empty
  constraintRecords : OrderedMap AnyConstraintIndex ConstraintRecord := .empty
  variableNames : OrderedMap String VariableIndex := .empty
  constraintNames : OrderedMap String AnyConstraintIndex := .empty
  statistics : StatisticsRecord := {}
  results : List ResultRecord := []

namespace Store

/-- The kind of instance that errors name. -/
def kind : String := "MockInstance"

/-- No variables, no constraints, no results and a zero objective. -/
def empty : Store := {}

def isLive (s : Store) : AnyIndex → Bool
  | .var x => s.variableRecords.contains x
  | .constraint c => s.constraintRecords.contains c

/-- The table kept under a type, if it holds constraints of that type. -/
def table? (s : Store) (t : ConstraintType) : Option (ConstraintTable t) :=
  (s.tables.find? t).bind (·.as? t)

theorem table?_eq_some_iff {s : Store} {t : ConstraintType} {rows : ConstraintTable t} :
    s.table? t = some rows ↔ s.tables.find? t = some ⟨t, rows⟩ := by
  simp [table?, Option.bind_eq_some_iff, AnyTable.as?_eq_some_iff]

def notFound {α : Type} (index : AnyIndex) : Except ProtocolError α :=
  .error (.indexNotFound index kind)

def unsupported {α : Type} (a : Attribute) : Except ProtocolError α :=
  .error (.unsupportedAccess a kind)

def addVariable (s : Store) : VariableIndex × Store :=
  (⟨s.nextVariable⟩,
    { s with
      nextVariable := s.nextVariable + 1
      variableRecords := s.variableRecords.insert ⟨s.nextVariable⟩ {} })

def addVariables (s : Store) : Nat → List VariableIndex × Store
  | 0 => ([], s)
  | count + 1 =>
    let (x, s) := s.addVariable
    let (xs, s) := addVariables s count
    (x :: xs, s)

/-- The table under the type of the constraint is made if there is none, and has to be one of that
type; `none` if it is not. -/
def addConstraint? (s : Store) (t : ConstraintType) (row : ConstraintRow t) :
    Option (ConstraintIndex t × Store) := do
  let rows ← ((s.tables.find? t).getD (.empty t)).as? t
  return (⟨s.nextConstraint⟩,
    { s with
      nextConstraint := s.nextConstraint + 1
      tables := s.tables.insert t ⟨t, rows.insert s.nextConstraint row⟩
      constraintRecords := s.constraintRecords.insert ⟨t, s.nextConstraint⟩ {} })

/-- A store in which `addConstraint?` gives `none` cannot be reached; the store would stay. -/
def addConstraint (s : Store) (t : ConstraintType) (row : ConstraintRow t) :
    ConstraintIndex t × Store :=
  (s.addConstraint? t row).getD (⟨s.nextConstraint⟩, s)

/-- The names after something that had the name `previous` has lost it. -/
def releaseName {κ : Type} (names : OrderedMap String κ) (previous : String) :
    OrderedMap String κ :=
  if previous = "" then names else names.erase previous

/-- Forgets a variable with its name and its values. Functions that mention it stay. -/
def deleteVariable (s : Store) (x : VariableIndex) : Except ProtocolError Store :=
  match s.variableRecords.find? x with
  | none => notFound (.var x)
  | some record => .ok { s with
      variableRecords := s.variableRecords.erase x
      variableNames := releaseName s.variableNames record.name
      results := s.results.map fun result =>
        { result with variablePrimal := result.variablePrimal.erase x } }

/-- Forgets a constraint with its function, its set, its name and its values. -/
def deleteConstraint (s : Store) {t : ConstraintType} (c : ConstraintIndex t) :
    Except ProtocolError Store :=
  match s.constraintRecords.find? c.erase with
  | none => notFound (.constraint c.erase)
  | some record => .ok { s with
      constraintRecords := s.constraintRecords.erase c.erase
      tables :=
        match s.tables.find? t with
        | none => s.tables
        | some table => s.tables.insert t (table.erase c.value)
      constraintNames := releaseName s.constraintNames record.name
      results := s.results.map fun result =>
        { result with
          constraintPrimal := result.constraintPrimal.erase c.erase
          constraintDual := result.constraintDual.erase c.erase } }

def result? (s : Store) : Nat → Option ResultRecord
  | 0 => none
  | position + 1 => s.results[position]?

def result (s : Store) (r : Nat) : Except ProtocolError ResultRecord :=
  match s.result? r with
  | some result => .ok result
  | none => .error (.invalidResultIndex r s.results.length)

def hasResult (s : Store) (r : Nat) : Bool :=
  (s.result? r).isSome

end Store

end SolverProtocol
