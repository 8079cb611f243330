import SolverProtocol.Store.Change

/-! Every change in place is all or nothing: it comes to what the store is written to at once, or it
fails and leaves the store as it was. -/

namespace SolverProtocol.Store

open Number

/-- The store after a change, or the error and the store as it was. -/
def settleChange (s : Store) : Except ProtocolError Store → Outcome Store
  | .ok s => (.ok (), s)
  | .error e => (.error e, s)

theorem settleChange_ok {s after : Store} {written : Except ProtocolError Store}
    (done : settleChange s written = (.ok (), after)) : written = .ok after := by
  cases written with
  | error e => cases done
  | ok stored => cases done; rfl

theorem settleChange_error {s after : Store} {written : Except ProtocolError Store}
    {e : ProtocolError} (failed : settleChange s written = (.error e, after)) :
    after = s ∧ written = .error e := by
  cases written with
  | ok stored => cases failed
  | error refusal => cases failed; exact ⟨rfl, rfl⟩

namespace Change

variable {α β : Type} (s : Store)

@[simp]
theorem outcome_pure (value : α) : outcome (pure value) s = (.ok value, s) := rfl

@[simp]
theorem outcome_throw (e : ProtocolError) : outcome (throw e : Change α) s = (.error e, s) := rfl

@[simp]
theorem outcome_get : outcome get s = (.ok s, s) := rfl

@[simp]
theorem outcome_modify (step : Store → Store) : outcome (modify step) s = (.ok (), step s) := rfl

/-- The second part of a change starts from the store that the first leaves behind. -/
theorem outcome_bind (change : Change α) (next : α → Change β) :
    outcome (change >>= next) s =
      match outcome change s with
      | (.ok value, after) => outcome (next value) after
      | (.error e, after) => (.error e, after) := by
  change _ = match (StateT.run (ExceptT.run change) s : Except ProtocolError α × Store) with
    | (.ok value, after) => outcome (next value) after
    | (.error e, after) => (.error e, after)
  simp only [outcome, ExceptT.run_bind, StateT.run_bind]
  rcases StateT.run (ExceptT.run change) s with ⟨_ | _, _⟩ <;> rfl

theorem outcome_variableRecord (x : VariableIndex) :
    outcome (variableRecord x) s =
      match s.variableRecords.find? x with
      | some record => (.ok record, s)
      | none => (notFound (.var x), s) := by
  simp only [variableRecord, outcome_bind, outcome_get]
  cases s.variableRecords.find? x <;> rfl

theorem outcome_constraintRecord (c : AnyConstraintIndex) :
    outcome (constraintRecord c) s =
      match s.constraintRecords.find? c with
      | some record => (.ok record, s)
      | none => (notFound (.constraint c), s) := by
  simp only [constraintRecord, outcome_bind, outcome_get]
  cases s.constraintRecords.find? c <;> rfl

theorem outcome_onResult (r : Nat) (change : ResultRecord → ResultRecord) :
    outcome (onResult r change) s = settleChange s (s.updateResult r change) := by
  simp only [onResult, outcome_bind, outcome_get, updateResult]
  cases s.result r <;> rfl

theorem outcome_onRow (a : ConstraintAttribute) {t : ConstraintType} (c : ConstraintIndex t)
    (change : ConstraintRow t → ConstraintRow t) :
    outcome (onRow a c change) s = settleChange s (s.updateRow a c change) := by
  simp only [onRow, outcome_bind, outcome_get, updateRow]
  cases s.table? t with
  | none => rfl
  | some rows =>
    dsimp only
    cases rows.find? c.value <;> rfl

@[simp]
theorem outcome_giveUpName {κ : Type} (map : NameMap κ) (previous : String) :
    outcome (giveUpName map previous) s =
      (.ok (), map.put s (releaseName (map.names s) previous)) := by
  by_cases unnamed : previous = "" <;> simp [giveUpName, releaseName, unnamed, map.put_names]

@[simp]
theorem outcome_takeName {κ : Type} (map : NameMap κ) (key : κ) (name : String) :
    outcome (takeName map key name) s = (.ok (), map.put s
      (if name = "" then map.names s else (map.names s).insert name key)) := by
  by_cases unnamed : name = "" <;> simp [takeName, unnamed, map.put_names]

private theorem outcome_renameVariable {x : VariableIndex} {record : VariableRecord}
    (found : s.variableRecords.find? x = some record) (name : String) :
    outcome (renameVariable x name) s = settleChange s (s.writeVariable .name x name) := by
  by_cases taken : nameTaken s.variableNames x name = true
  · simp [renameVariable, writeVariable, outcome_bind, found, taken, settleChange]
  · simp [renameVariable, writeVariable, outcome_bind, outcome_variableRecord, found, taken,
      settleChange, reassignName, setVariableRecord, NameMap.ofVariables]

private theorem outcome_renameConstraint {t : ConstraintType} {c : ConstraintIndex t}
    {record : ConstraintRecord} (found : s.constraintRecords.find? c.erase = some record)
    (name : String) :
    outcome (renameConstraint c.erase name) s =
      settleChange s (s.writeConstraint .name c name) := by
  by_cases taken : nameTaken s.constraintNames c.erase name = true
  · simp [renameConstraint, writeConstraint, outcome_bind, found, taken, settleChange]
  · simp [renameConstraint, writeConstraint, outcome_bind, outcome_constraintRecord, found, taken,
      settleChange, reassignName, setConstraintRecord, NameMap.ofConstraints]

private theorem outcome_resultCount (count : Nat) :
    outcome (assignProperty .resultCount count) s =
      settleChange s (s.writeProperty .resultCount count) := by
  by_cases few : count ≤ maxResultCount
  · have within : ¬maxResultCount < count := Nat.not_lt.mpr few
    simp [assignProperty, writeProperty, within, few, settleChange]
  · have beyond : maxResultCount < count := Nat.lt_of_not_le few
    simp [assignProperty, writeProperty, beyond, few, settleChange]

private theorem outcome_assignProperty (a : InstanceAttribute) (v : a.valueType.Carrier) :
    outcome (assignProperty a v) s = settleChange s (s.writeProperty a v) := by
  cases a with
  | objectiveValue r | primalStatus r | dualStatus r => exact outcome_onResult s r _
  | resultCount => exact outcome_resultCount s v
  | _ => rfl

theorem outcome_assign (a : GlobalAttribute) (v : a.Value) :
    outcome (assign a v) s = settleChange s (s.writeGlobal a v) := by
  cases a with
  | parameter p => rfl
  | property a => exact outcome_assignProperty s a v

theorem outcome_assignVariable (a : VariableAttribute) (x : VariableIndex)
    (v : a.valueType.Carrier) :
    outcome (assignVariable a x v) s = settleChange s (s.writeVariable a x v) := by
  simp only [assignVariable, outcome_bind, outcome_variableRecord]
  cases found : s.variableRecords.find? x with
  | none => simp [writeVariable, found, notFound, settleChange]
  | some record =>
    cases a with
    | name => exact outcome_renameVariable s found v
    | primalStart | basisStatus => simp [writeVariable, found, settleChange]
    | primal r => simpa [writeVariable, found] using outcome_onResult s r _

theorem outcome_assignConstraint {t : ConstraintType} (a : ConstraintAttribute)
    (c : ConstraintIndex t) (v : (a.valueType t).Carrier) :
    outcome (assignConstraint a c v) s = settleChange s (s.writeConstraint a c v) := by
  simp only [assignConstraint, outcome_bind, outcome_constraintRecord]
  cases found : s.constraintRecords.find? c.erase with
  | none => simp [writeConstraint, found, notFound, settleChange]
  | some record =>
    cases a with
    | name => exact outcome_renameConstraint s found v
    | primalStart | dualStart | basisStatus => simp [writeConstraint, found, settleChange]
    | primal r | dual r => simpa [writeConstraint, found] using outcome_onResult s r _
    | function | set => simpa [writeConstraint, found] using outcome_onRow s _ c _

theorem outcome_assignAt {k : IndexKind} (a : IndexedAttribute k) (index : k.Index) (v : a.Value) :
    outcome (assignAt a index v) s = settleChange s (s.writeIndexed a index v) := by
  cases k with
  | var => exact outcome_assignVariable s a index v
  | constraint t => exact outcome_assignConstraint s a index v

theorem outcome_assignPrimals (r : Nat) (xs : List VariableIndex) (values : List Binary64) :
    outcome (assignPrimals r xs values) s = settleChange s (s.writePrimals r xs values) := by
  simp only [assignPrimals, writePrimals, outcome_bind, outcome_get]
  cases xs.find? fun x => !s.variableRecords.contains x with
  | some missing => rfl
  | none => exact outcome_onResult s r _

theorem outcome_deleteVariable (x : VariableIndex) :
    outcome (deleteVariable x) s = settleChange s (s.deleteVariable x) := by
  simp only [deleteVariable, Store.deleteVariable, outcome_bind, outcome_variableRecord]
  cases s.variableRecords.find? x with
  | none => rfl
  | some record => simp [settleChange, NameMap.ofVariables]

theorem outcome_deleteConstraint {t : ConstraintType} (c : ConstraintIndex t) :
    outcome (deleteConstraint c) s = settleChange s (s.deleteConstraint c) := by
  simp only [deleteConstraint, Store.deleteConstraint, outcome_bind, outcome_constraintRecord]
  cases s.constraintRecords.find? c.erase with
  | none => rfl
  | some record =>
    cases table : s.tables.find? t <;>
      simp [outcome_bind, table, settleChange, NameMap.ofConstraints]

end Change

end SolverProtocol.Store
