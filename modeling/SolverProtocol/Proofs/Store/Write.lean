import Mathlib.Logic.Relation
import SolverProtocol.Proofs.Store.Run

/-! Storing a value changes a store in one of eight ways, whatever the attribute. A call stores one
value or several in turn, or leaves the store as it is. -/

namespace SolverProtocol

open Number Relation

/-- The result with values of variables stored in turn. -/
def ResultRecord.storePrimals (pairs : List (VariableIndex × Binary64)) (result : ResultRecord) :
    ResultRecord :=
  { result with variablePrimal := result.variablePrimal.insertAll pairs }

namespace Store

/-- A result has values only for what is live. -/
structure LiveValues (s : Store) (result : ResultRecord) : Prop where
  variablePrimal : ∀ x ∈ result.variablePrimal.keys, x ∈ s.variableRecords.keys
  constraintPrimal : ∀ c ∈ result.constraintPrimal.keys, c ∈ s.constraintRecords.keys
  constraintDual : ∀ c ∈ result.constraintDual.keys, c ∈ s.constraintRecords.keys

/-- What storing one value does to a store. -/
inductive Write (s : Store) : Store → Prop where
  | settings (name : String) (sense : OptimizationSense) (objective : ObjectiveRecord)
      (parameters : ParameterRecord) (statistics : StatisticsRecord) :
      Write s { s with name, sense, objective, parameters, statistics }
  | resize {count : Nat} (few : count ≤ maxResultCount) : Write s (s.resize count)
  | result (position : Nat) {change : ResultRecord → ResultRecord}
      (kept : ∀ result, s.LiveValues result → s.LiveValues (change result)) :
      Write s { s with results := s.results.modify position change }
  | variableRecord {x : VariableIndex} {record changed : VariableRecord}
      (found : s.variableRecords.find? x = some record) (sameName : changed.name = record.name) :
      Write s (s.setVariableRecord x changed)
  | variableName {x : VariableIndex} {record : VariableRecord} {name : String}
      (found : s.variableRecords.find? x = some record)
      (free : nameTaken s.variableNames x name = false) :
      Write s { s.setVariableRecord x { record with name } with
        variableNames := reassignName s.variableNames x record.name name }
  | constraintRecord {c : AnyConstraintIndex} {record changed : ConstraintRecord}
      (found : s.constraintRecords.find? c = some record)
      (sameName : changed.name = record.name) :
      Write s (s.setConstraintRecord c changed)
  | constraintName {c : AnyConstraintIndex} {record : ConstraintRecord} {name : String}
      (found : s.constraintRecords.find? c = some record)
      (free : nameTaken s.constraintNames c name = false) :
      Write s { s.setConstraintRecord c { record with name } with
        constraintNames := reassignName s.constraintNames c record.name name }
  | row {t : ConstraintType} {rows : ConstraintTable t} {value : Nat} {old : ConstraintRow t}
      (table : s.table? t = some rows) (found : rows.find? value = some old)
      (changed : ConstraintRow t) :
      Write s { s with tables := s.tables.insert t ⟨t, rows.insert value changed⟩ }

variable {s after : Store}

/-- The store with one of its results changed. -/
def changeResult (s : Store) (r : Nat) (change : ResultRecord → ResultRecord) : Store :=
  { s with results := s.results.modify (r - 1) change }

theorem updateResult_ok {r : Nat} {change : ResultRecord → ResultRecord}
    (written : s.updateResult r change = .ok after) :
    ∃ old, s.result? r = some old ∧ after = s.changeResult r change := by
  unfold updateResult result at written
  cases found : s.result? r with
  | none => simp [found, bind, Except.bind] at written
  | some old =>
    simp only [found, bind, Except.bind, pure, Except.pure, Except.ok.injEq] at written
    exact ⟨old, rfl, written.symm⟩

theorem writePrimals_ok {r : Nat} {xs : List VariableIndex} {values : List Binary64}
    (written : s.writePrimals r xs values = .ok after) :
    after = s.changeResult r (ResultRecord.storePrimals (xs.zip values)) := by
  unfold writePrimals at written
  split at written
  · cases written
  · obtain ⟨old, -, same⟩ := updateResult_ok written
    exact same

private theorem updateResult_write {r : Nat} {change : ResultRecord → ResultRecord}
    (kept : ∀ result, s.LiveValues result → s.LiveValues (change result))
    (written : s.updateResult r change = .ok after) : Write s after := by
  obtain ⟨old, -, rfl⟩ := updateResult_ok written
  exact .result (r - 1) kept

theorem length_resize (s : Store) (count : Nat) : (s.resize count).results.length = count := by
  simp only [resize, List.length_append, List.length_take, List.length_replicate]
  omega

/-- The store with the function or the set of one constraint changed. -/
def changeRow (s : Store) {t : ConstraintType} (rows : ConstraintTable t) (c : ConstraintIndex t)
    (row : ConstraintRow t) : Store :=
  { s with tables := s.tables.insert t ⟨t, rows.insert c.value row⟩ }

theorem updateRow_ok {a : ConstraintAttribute} {t : ConstraintType} {c : ConstraintIndex t}
    {change : ConstraintRow t → ConstraintRow t} (written : s.updateRow a c change = .ok after) :
    ∃ rows row, s.table? t = some rows ∧ rows.find? c.value = some row ∧
      after = s.changeRow rows c (change row) := by
  unfold updateRow at written
  cases table : s.table? t with
  | none => simp [table, unsupported] at written
  | some rows =>
    cases found : rows.find? c.value with
    | none => simp [table, found, notFound] at written
    | some row =>
      simp only [table, found, Except.ok.injEq] at written
      exact ⟨rows, row, rfl, found, written.symm⟩

private theorem updateRow_write {a : ConstraintAttribute} {t : ConstraintType}
    {c : ConstraintIndex t}
    {change : ConstraintRow t → ConstraintRow t} (written : s.updateRow a c change = .ok after) :
    Write s after := by
  obtain ⟨rows, row, table, found, rfl⟩ := updateRow_ok written
  exact .row table found (change row)

private theorem writeParameter_write (p : SolverParameter) (v : p.valueType.Carrier) :
    Write s (s.writeParameter p v) := by
  cases p <;> exact .settings s.name s.sense s.objective _ s.statistics

private theorem writeProperty_write {a : InstanceAttribute} {v : a.valueType.Carrier}
    (written : s.writeProperty a v = .ok after) : Write s after := by
  cases a with
  | name | objectiveSense | objectiveFunction =>
    cases written
    exact .settings _ _ _ s.parameters s.statistics
  | terminationStatus | objectiveBound | relativeGap | solveTime | simplexIterations
  | barrierIterations | nodeCount =>
    cases written
    exact .settings s.name s.sense s.objective s.parameters _
  | objectiveValue r | primalStatus r | dualStatus r =>
    refine updateResult_write ?_ written
    exact fun _ live => ⟨live.variablePrimal, live.constraintPrimal, live.constraintDual⟩
  | resultCount =>
    simp only [writeProperty] at written
    split at written
    · cases written
      exact .resize ‹_›
    · cases written
  | numberOfVariables | listOfVariableIndices | listOfConstraints | listOfConstraintIndices
  | numberOfConstraints | rawSolver => cases written

theorem writeGlobal_write {a : GlobalAttribute} {v : a.Value}
    (written : s.writeGlobal a v = .ok after) : Write s after := by
  cases a with
  | parameter p =>
    cases written
    exact writeParameter_write p v
  | property a => exact writeProperty_write written

theorem writeVariable_write {a : VariableAttribute} {x : VariableIndex}
    {v : a.valueType.Carrier} (written : s.writeVariable a x v = .ok after) : Write s after := by
  unfold writeVariable at written
  cases found : s.variableRecords.find? x with
  | none => simp [found, notFound] at written
  | some record =>
    simp only [found] at written
    cases a with
    | name =>
      dsimp only at written
      split at written
      · cases written
      · rename_i free
        cases written
        exact .variableName found (Bool.eq_false_iff.mpr free)
    | primalStart | basisStatus =>
      cases written
      exact .variableRecord found rfl
    | primal r =>
      have known := OrderedMap.mem_keys_of_find? found
      refine updateResult_write ?_ written
      exact fun _ live =>
        { live with variablePrimal := OrderedMap.forall_mem_keys_insert live.variablePrimal known }

theorem writeConstraint_write {t : ConstraintType} {a : ConstraintAttribute}
    {c : ConstraintIndex t} {v : (a.valueType t).Carrier}
    (written : s.writeConstraint a c v = .ok after) : Write s after := by
  unfold writeConstraint at written
  cases found : s.constraintRecords.find? c.erase with
  | none => simp [found, notFound] at written
  | some record =>
    have known := OrderedMap.mem_keys_of_find? found
    simp only [found] at written
    cases a with
    | name =>
      dsimp only at written
      split at written
      · cases written
      · rename_i free
        cases written
        exact .constraintName found (Bool.eq_false_iff.mpr free)
    | primalStart | dualStart | basisStatus =>
      cases written
      exact .constraintRecord found rfl
    | primal r =>
      refine updateResult_write ?_ written
      exact fun _ live => { live with
        constraintPrimal := OrderedMap.forall_mem_keys_insert live.constraintPrimal known }
    | dual r =>
      refine updateResult_write ?_ written
      exact fun _ live =>
        { live with constraintDual := OrderedMap.forall_mem_keys_insert live.constraintDual known }
    | function | set => exact updateRow_write written

theorem writeIndexed_write {k : IndexKind} {a : IndexedAttribute k} {index : k.Index}
    {v : a.Value} (written : s.writeIndexed a index v = .ok after) : Write s after := by
  cases k with
  | var => exact writeVariable_write written
  | constraint t => exact writeConstraint_write written

private theorem writePrimals_write {r : Nat} {xs : List VariableIndex} {values : List Binary64}
    (written : s.writePrimals r xs values = .ok after) : Write s after := by
  unfold writePrimals at written
  cases missing : xs.find? fun x => !s.variableRecords.contains x with
  | some x => simp [missing, notFound] at written
  | none =>
    have known : ∀ x ∈ xs, x ∈ s.variableRecords.keys := by
      simpa using missing
    simp only [missing] at written
    refine updateResult_write ?_ written
    refine fun _ live => { live with variablePrimal := ?_ }
    intro x member
    rcases OrderedMap.mem_keys_insertAll.mp member with old | added
    · exact live.variablePrimal x old
    · obtain ⟨pair, paired, rfl⟩ := List.mem_map.mp added
      exact known pair.1 (List.of_mem_zip paired).1

/-- Any number of values stored in turn. -/
abbrev Writes : Store → Store → Prop := ReflTransGen Write

variable (tolerance : Binary64)

theorem set_writes (a : GlobalAttribute) (v : a.Value) :
    Writes s ((backend tolerance).set s a v).2 := by
  rw [set_eq]
  exact settleChange_preserves .refl fun _ written => .single (writeGlobal_write written)

theorem setAt_writes {k : IndexKind} (a : IndexedAttribute k) (index : k.Index) (v : a.Value) :
    Writes s ((backend tolerance).setAt s a index v).2 := by
  rw [setAt_eq]
  exact settleChange_preserves .refl fun _ written => .single (writeIndexed_write written)

theorem setMany_writes {k : IndexKind} (a : IndexedAttribute k) (indices : List k.Index)
    (values : List a.Value) : Writes s ((backend tolerance).setMany s a indices values).2 := by
  refine setMany_preserves tolerance ?_ ?_ .refl indices values
  · exact fun _ _ _ _ writes written => writes.tail (writeIndexed_write written)
  · exact fun _ _ _ _ _ writes written => writes.tail (writePrimals_write written)

/-- What an operation may do to a store, by what it is and what it returns. -/
inductive Effect (s : Store) : Operation → Returned → Store → Prop where
  | addVariable : Effect s .addVariable (.ok [.var s.addVariable.1]) s.addVariable.2
  | addVariables (count : Nat) :
      Effect s (.addVariables count) (.ok ((s.addVariables count).1.map .var))
        (s.addVariables count).2
  | addConstraint (t : ConstraintType) (row : ConstraintRow t) :
      Effect s (.addConstraint t row) (.ok [.constraint (s.addConstraint t row).1.erase])
        (s.addConstraint t row).2
  | deleteVariable {x : VariableIndex} {after : Store} (deleted : s.deleteVariable x = .ok after) :
      Effect s (.deleteVariable x) (.ok []) after
  | deleteConstraint {t : ConstraintType} {c : ConstraintIndex t} {after : Store}
      (deleted : s.deleteConstraint c = .ok after) : Effect s (.deleteConstraint c) (.ok []) after
  | store {op : Operation} {returned : Returned} {after : Store} (writes : Writes s after)
      (addsNone : handedOut returned = []) (deletesNone : op.deletes returned = []) :
      Effect s op returned after

theorem perform_effect (s : Store) (op : Operation) :
    Effect s op (s.perform tolerance op).1 (s.perform tolerance op).2 := by
  cases op with
  | addVariable => exact .addVariable
  | addVariables count => exact .addVariables count
  | addConstraint t row => exact .addConstraint t row
  | deleteVariable x =>
    simp only [perform, Change.outcome_deleteVariable]
    cases deleted : s.deleteVariable x with
    | error e => exact .store .refl rfl rfl
    | ok after => exact .deleteVariable deleted
  | deleteConstraint c =>
    simp only [perform, Change.outcome_deleteConstraint]
    cases deleted : s.deleteConstraint c with
    | error e => exact .store .refl rfl rfl
    | ok after => exact .deleteConstraint deleted
  | set a v =>
    refine .store ?_ (handedOut_handsOutNone _) rfl
    simpa only [perform, handsOutNone_snd] using set_writes tolerance a v
  | setAt a index v =>
    refine .store ?_ (handedOut_handsOutNone _) rfl
    simpa only [perform, handsOutNone_snd] using setAt_writes tolerance a index v
  | setMany a indices values =>
    refine .store ?_ (handedOut_handsOutNone _) rfl
    simpa only [perform, handsOutNone_snd] using setMany_writes tolerance a indices values

end Store

end SolverProtocol
