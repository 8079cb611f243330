import SolverProtocol.Proofs.Store.Place

namespace SolverProtocol.Store

open Number

variable {s after : Store}

/-- Two stores keep the same values apart from those kept at places. -/
structure SameSettings (s after : Store) : Prop where
  name : after.name = s.name
  sense : after.sense = s.sense
  objective : after.objective = s.objective
  parameters : after.parameters = s.parameters
  statistics : after.statistics = s.statistics
  summaries : after.results.map ResultRecord.summary = s.results.map ResultRecord.summary

/-- The same names stand for the same things. -/
structure SameNames (s after : Store) : Prop where
  ofVariables : after.variableNames = s.variableNames
  ofConstraints : after.constraintNames = s.constraintNames

/-- The value is kept at the place, and everything else is kept as it was. -/
structure Stores (s : Store) (p : Place) (v : p.attr.Value) (after : Store) : Prop where
  own : after.kept? p = some v
  others : ∀ q, q ≠ p → after.kept? q = s.kept? q
  settings : SameSettings s after
  names : ¬p.attr.toAttribute.IsName → SameNames s after

/-- What is kept at places is a matter of four parts of a store. -/
structure SamePlaces (s after : Store) : Prop where
  variableRecords : after.variableRecords = s.variableRecords
  constraintRecords : after.constraintRecords = s.constraintRecords
  tables : after.tables = s.tables
  results : after.results = s.results

private theorem SamePlaces.keptForVariable (same : SamePlaces s after) (a : VariableAttribute)
    (x : VariableIndex) : after.keptForVariable x a = s.keptForVariable x a := by
  cases a <;> simp only [Store.keptForVariable, result?, same.variableRecords, same.results]

private theorem SamePlaces.keptForConstraint (same : SamePlaces s after) {t : ConstraintType}
    (a : ConstraintAttribute) (c : ConstraintIndex t) :
    after.keptForConstraint c a = s.keptForConstraint c a := by
  cases a <;>
    simp only [Store.keptForConstraint, row?, table?, result?, same.constraintRecords, same.tables,
      same.results]

private theorem keptForVariable_setVariableRecord {x y : VariableIndex} {a : VariableAttribute}
    {record changed : VariableRecord} (found : s.variableRecords.find? x = some record)
    (agree : y = x → changed.value? a = record.value? a) :
    (s.setVariableRecord x changed).keptForVariable y a = s.keptForVariable y a := by
  by_cases here : y = x
  · subst here
    have same := agree rfl
    cases a <;> simp [keptForVariable, setVariableRecord, result?, found, same]
  · have apart : x ≠ y := fun same => here same.symm
    cases a <;> simp [keptForVariable, setVariableRecord, result?, OrderedMap.find?_insert, apart]

private theorem keptForConstraint_setConstraintRecord {c : AnyConstraintIndex} {t : ConstraintType}
    {d : ConstraintIndex t} {a : ConstraintAttribute} {record changed : ConstraintRecord}
    (found : s.constraintRecords.find? c = some record)
    (agree : d.erase = c → changed.value? t a = record.value? t a) :
    (s.setConstraintRecord c changed).keptForConstraint d a = s.keptForConstraint d a := by
  by_cases here : d.erase = c
  · subst here
    have same := agree rfl
    cases a <;> simp [keptForConstraint, setConstraintRecord, result?, row?, table?, found, same]
  · have apart : c ≠ d.erase := fun same => here same.symm
    cases a <;>
      simp [keptForConstraint, setConstraintRecord, result?, row?, table?, OrderedMap.find?_insert,
        apart]

theorem result?_changeResult {r : Nat} {old : ResultRecord} (found : s.result? r = some old)
    (change : ResultRecord → ResultRecord) (q : Nat) :
    (s.changeResult r change).result? q = if q = r then some (change old) else s.result? q := by
  unfold result? changeResult at *
  cases r with
  | zero => cases found
  | succ position =>
    cases q with
    | zero => simp
    | succ other =>
      by_cases same : other = position
      · subst same; simp [found]
      · have apart : position ≠ other := fun h => same h.symm
        simp [same, apart]

/-- A changed result is read as the old one wherever the change agrees with it. -/
theorem bind_result?_changeResult {r : Nat} {old : ResultRecord} (found : s.result? r = some old)
    {change : ResultRecord → ResultRecord} {α : Type} {value : ResultRecord → Option α} {q : Nat}
    (agree : q = r → value (change old) = value old) :
    ((s.changeResult r change).result? q).bind value = (s.result? q).bind value := by
  rw [result?_changeResult found]
  by_cases same : q = r
  · rw [if_pos same, same, found]
    exact agree same
  · rw [if_neg same]

theorem bind_result?_changeResult_self {r : Nat} {old : ResultRecord}
    (found : s.result? r = some old) {change : ResultRecord → ResultRecord} {α : Type}
    {value : ResultRecord → Option α} {v : α} (own : value (change old) = some v) :
    ((s.changeResult r change).result? r).bind value = some v := by
  rw [result?_changeResult found, if_pos rfl]
  exact own

private theorem sameSettings_changeResult {change : ResultRecord → ResultRecord}
    (kept : ∀ result, (change result).summary = result.summary) (r : Nat) :
    SameSettings s (s.changeResult r change) := by
  refine ⟨rfl, rfl, rfl, rfl, rfl, List.ext_getElem? fun other => ?_⟩
  simp only [changeResult, List.getElem?_map, List.getElem?_modify]
  by_cases same : r - 1 = other <;> simp [same, Function.comp_def, kept]

private theorem row?_changeRow {t u : ConstraintType} {rows : ConstraintTable t}
    {c : ConstraintIndex t}
    (table : s.table? t = some rows) (changed : ConstraintRow t) {d : ConstraintIndex u}
    (elsewhere : d.erase ≠ c.erase) :
    (s.changeRow rows c changed).row? d = s.row? d := by
  unfold row? changeRow
  by_cases same : t = u
  · subst same
    have apart : c.value ≠ d.value := fun h => elsewhere (by simp [ConstraintIndex.erase, h])
    rw [table]
    simp [table?, AnyTable.as?, OrderedMap.find?_insert, apart]
  · simp [table?, OrderedMap.find?_insert, same]

private theorem row?_changeRow_self {t : ConstraintType} (rows : ConstraintTable t)
    (c : ConstraintIndex t)
    (changed : ConstraintRow t) : (s.changeRow rows c changed).row? c = some changed := by
  simp [row?, changeRow, table?, AnyTable.as?]

theorem keptForVariable_changeResult {r : Nat} {old : ResultRecord} (found : s.result? r = some old)
    {change : ResultRecord → ResultRecord} {x : VariableIndex} {a : VariableAttribute}
    (agree : a = .primal r → (change old).variablePrimal.find? x = old.variablePrimal.find? x) :
    (s.changeResult r change).keptForVariable x a = s.keptForVariable x a := by
  cases a with
  | name | primalStart | basisStatus => rfl
  | primal q =>
    refine bind_result?_changeResult found fun same => ?_
    exact agree (congrArg _ same)

theorem keptForConstraint_changeResult {r : Nat} {old : ResultRecord}
    (found : s.result? r = some old) {change : ResultRecord → ResultRecord} {t : ConstraintType}
    {c : ConstraintIndex t} {a : ConstraintAttribute}
    (primal : a = .primal r →
      (change old).constraintPrimal.find? c.erase = old.constraintPrimal.find? c.erase)
    (dual : a = .dual r →
      (change old).constraintDual.find? c.erase = old.constraintDual.find? c.erase) :
    (s.changeResult r change).keptForConstraint c a = s.keptForConstraint c a := by
  cases a with
  | name | primalStart | dualStart | basisStatus | function | set => rfl
  | primal q =>
    refine bind_result?_changeResult found fun same => ?_
    exact primal (congrArg _ same)
  | dual q =>
    refine bind_result?_changeResult found fun same => ?_
    exact dual (congrArg _ same)

private theorem others_of_variable {a : VariableAttribute} {x : VariableIndex}
    (ofVariables : ∀ b y, (y = x → b ≠ a) → after.keptForVariable y b = s.keptForVariable y b)
    (ofConstraints : ∀ t b (c : ConstraintIndex t),
      after.keptForConstraint c b = s.keptForConstraint c b) :
    ∀ q, q ≠ ⟨.var, a, x⟩ → after.kept? q = s.kept? q := by
  rintro ⟨_ | t, b, y⟩ other
  · refine ofVariables b y ?_
    rintro rfl rfl
    exact other rfl
  · exact ofConstraints t b y

private theorem others_of_constraint {t : ConstraintType} {a : ConstraintAttribute}
    {c : ConstraintIndex t} (ofVariables : ∀ b x, after.keptForVariable x b = s.keptForVariable x b)
    (ofConstraints : ∀ u b (d : ConstraintIndex u), (d.erase = c.erase → b ≠ a) →
      after.keptForConstraint d b = s.keptForConstraint d b) :
    ∀ q, q ≠ ⟨.constraint t, a, c⟩ → after.kept? q = s.kept? q := by
  rintro ⟨_ | u, b, d⟩ other
  · exact ofVariables b d
  · refine ofConstraints u b d ?_
    rintro here rfl
    exact other (Place.constraint_eq b here)

theorem SamePlaces.kept? (same : SamePlaces s after) (p : Place) : after.kept? p = s.kept? p := by
  rcases p with ⟨_ | t, a, index⟩
  · exact same.keptForVariable a index
  · exact same.keptForConstraint a index

theorem SameSettings.trans {middle : Store} (first : SameSettings s middle)
    (second : SameSettings middle after) : SameSettings s after where
  name := second.name.trans first.name
  sense := second.sense.trans first.sense
  objective := second.objective.trans first.objective
  parameters := second.parameters.trans first.parameters
  statistics := second.statistics.trans first.statistics
  summaries := second.summaries.trans first.summaries

theorem Stores.of_samePlaces {p : Place} {v : p.attr.Value} {final : Store}
    (stores : Stores s p v after) (named : p.attr.toAttribute.IsName)
    (same : SamePlaces after final) (settings : SameSettings after final) :
    Stores s p v final where
  own := (same.kept? p).trans stores.own
  others q other := (same.kept? q).trans (stores.others q other)
  settings := stores.settings.trans settings
  names unnamed := absurd named unnamed

private theorem stores_variableRecord {x : VariableIndex} {record changed : VariableRecord}
    (found : s.variableRecords.find? x = some record) {a : VariableAttribute}
    {v : a.valueType.Carrier} (own : changed.value? a = some v)
    (others : ∀ b, b ≠ a → changed.value? b = record.value? b) :
    Stores s ⟨.var, a, x⟩ v (s.setVariableRecord x changed) := by
  refine ⟨?_, others_of_variable ?_ ?_, ⟨rfl, rfl, rfl, rfl, rfl, rfl⟩, fun _ => ⟨rfl, rfl⟩⟩
  · change (s.setVariableRecord x changed).keptForVariable x a = some v
    cases a with
    | primal r => cases own
    | name | primalStart | basisStatus =>
      simp only [keptForVariable, setVariableRecord, OrderedMap.find?_insert_self]
      exact own
  · intro b y differ
    exact keptForVariable_setVariableRecord found fun here => others b (differ here)
  · intro t b c
    cases b <;> rfl

private theorem stores_constraintRecord {t : ConstraintType} {c : ConstraintIndex t}
    {record changed : ConstraintRecord} (found : s.constraintRecords.find? c.erase = some record)
    {a : ConstraintAttribute} {v : (a.valueType t).Carrier} (own : changed.value? t a = some v)
    (others : ∀ u b, b ≠ a → changed.value? u b = record.value? u b) :
    Stores s ⟨.constraint t, a, c⟩ v (s.setConstraintRecord c.erase changed) := by
  refine ⟨?_, others_of_constraint ?_ ?_, ⟨rfl, rfl, rfl, rfl, rfl, rfl⟩, fun _ => ⟨rfl, rfl⟩⟩
  · change (s.setConstraintRecord c.erase changed).keptForConstraint c a = some v
    cases a with
    | primal | dual | function | set => cases own
    | name | primalStart | dualStart | basisStatus =>
      simp only [keptForConstraint, setConstraintRecord, OrderedMap.find?_insert_self]
      exact own
  · intro b x
    cases b <;> rfl
  · intro u b d differ
    exact keptForConstraint_setConstraintRecord found fun here => others u b (differ here)

/-- A changed result stores a value if its maps agree with the old ones at every other place. -/
private theorem stores_result {r : Nat} {old : ResultRecord} (found : s.result? r = some old)
    {change : ResultRecord → ResultRecord} {p : Place} {v : p.attr.Value}
    (own : (s.changeResult r change).kept? p = some v)
    (ofVariables : ∀ x, (⟨.var, .primal r, x⟩ : Place) ≠ p →
      (change old).variablePrimal.find? x = old.variablePrimal.find? x)
    (primal : ∀ t (c : ConstraintIndex t), (⟨.constraint t, .primal r, c⟩ : Place) ≠ p →
      (change old).constraintPrimal.find? c.erase = old.constraintPrimal.find? c.erase)
    (dual : ∀ t (c : ConstraintIndex t), (⟨.constraint t, .dual r, c⟩ : Place) ≠ p →
      (change old).constraintDual.find? c.erase = old.constraintDual.find? c.erase)
    (summary : ∀ result, (change result).summary = result.summary) :
    Stores s p v (s.changeResult r change) := by
  refine ⟨own, ?_, sameSettings_changeResult summary _, fun _ => ⟨rfl, rfl⟩⟩
  rintro ⟨_ | t, a, index⟩ other
  · refine keptForVariable_changeResult found ?_
    rintro rfl
    exact ofVariables index other
  · refine keptForConstraint_changeResult found ?_ ?_
    · rintro rfl
      exact primal t index other
    · rintro rfl
      exact dual t index other

private theorem stores_variablePrimal {r : Nat} {old : ResultRecord}
    (found : s.result? r = some old) (x : VariableIndex) (v : Binary64) :
    Stores s ⟨.var, .primal r, x⟩ v (s.changeResult r fun result =>
      { result with variablePrimal := result.variablePrimal.insert x v }) := by
  refine stores_result found ?_ ?_ (fun _ _ _ => rfl) (fun _ _ _ => rfl) fun _ => rfl
  · exact bind_result?_changeResult_self found (OrderedMap.find?_insert_self ..)
  · exact fun y other => OrderedMap.find?_insert_of_ne _ _ fun same => other (same ▸ rfl)

private theorem stores_constraintPrimal {r : Nat} {old : ResultRecord}
    (found : s.result? r = some old) {t : ConstraintType} (c : ConstraintIndex t) (v : Binary64) :
    Stores s ⟨.constraint t, .primal r, c⟩ v (s.changeResult r fun result =>
      { result with constraintPrimal := result.constraintPrimal.insert c.erase v }) := by
  refine stores_result found ?_ (fun _ _ => rfl) ?_ (fun _ _ _ => rfl) fun _ => rfl
  · exact bind_result?_changeResult_self found (OrderedMap.find?_insert_self ..)
  · exact fun u d other => OrderedMap.find?_insert_of_ne _ _ fun same =>
      other (Place.constraint_eq _ same.symm)

private theorem stores_constraintDual {r : Nat} {old : ResultRecord}
    (found : s.result? r = some old) {t : ConstraintType} (c : ConstraintIndex t) (v : Binary64) :
    Stores s ⟨.constraint t, .dual r, c⟩ v (s.changeResult r fun result =>
      { result with constraintDual := result.constraintDual.insert c.erase v }) := by
  refine stores_result found ?_ (fun _ _ => rfl) (fun _ _ _ => rfl) ?_ fun _ => rfl
  · exact bind_result?_changeResult_self found (OrderedMap.find?_insert_self ..)
  · exact fun u d other => OrderedMap.find?_insert_of_ne _ _ fun same =>
      other (Place.constraint_eq _ same.symm)

private theorem stores_row {t : ConstraintType} {c : ConstraintIndex t} {rows : ConstraintTable t}
    {row changed : ConstraintRow t} (table : s.table? t = some rows)
    (found : rows.find? c.value = some row) {a : ConstraintAttribute} {v : (a.valueType t).Carrier}
    (own : changed.value? a = some v) (others : ∀ b, b ≠ a → changed.value? b = row.value? b) :
    Stores s ⟨.constraint t, a, c⟩ v (s.changeRow rows c changed) := by
  have known : s.row? c = some row := by simp [row?, table, found]
  refine ⟨?_, others_of_constraint ?_ ?_, ⟨rfl, rfl, rfl, rfl, rfl, rfl⟩, fun _ => ⟨rfl, rfl⟩⟩
  · change Store.keptForConstraint _ c a = some v
    cases a with
    | function | set =>
      simp only [keptForConstraint, row?_changeRow_self]
      exact own
    | _ => cases own
  · intro b x
    cases b <;> rfl
  · intro u b d differ
    by_cases here : d.erase = c.erase
    · obtain rfl : u = t := congrArg AnyConstraintIndex.type here
      obtain rfl : d = c := ConstraintIndex.erase_injective here
      have agree := others b (differ rfl)
      cases b with
      | function | set =>
        simp only [keptForConstraint, row?_changeRow_self, known]
        exact agree
      | _ => rfl
    · cases b with
      | function | set => simp only [keptForConstraint, row?_changeRow table changed here]
      | _ => rfl

theorem writeVariable_stores {a : VariableAttribute} {x : VariableIndex} {v : a.valueType.Carrier}
    (written : s.writeVariable a x v = .ok after) : Stores s ⟨.var, a, x⟩ v after := by
  unfold writeVariable at written
  cases found : s.variableRecords.find? x with
  | none => simp [found, notFound] at written
  | some record =>
    simp only [found] at written
    cases a with
    | name =>
      dsimp only at written
      split at written
      · cases written
      · cases written
        have stores : Stores s ⟨.var, .name, x⟩ v
            (s.setVariableRecord x { record with name := v }) :=
          stores_variableRecord found rfl fun b differ => by cases b <;> trivial
        exact stores.of_samePlaces (.inl rfl) ⟨rfl, rfl, rfl, rfl⟩ ⟨rfl, rfl, rfl, rfl, rfl, rfl⟩
    | primalStart | basisStatus =>
      cases written
      exact stores_variableRecord found rfl fun b differ => by cases b <;> trivial
    | primal r =>
      obtain ⟨old, known, rfl⟩ := updateResult_ok written
      exact stores_variablePrimal known x v

theorem writeConstraint_stores {t : ConstraintType} {a : ConstraintAttribute}
    {c : ConstraintIndex t} {v : (a.valueType t).Carrier}
    (written : s.writeConstraint a c v = .ok after) : Stores s ⟨.constraint t, a, c⟩ v after := by
  unfold writeConstraint at written
  cases found : s.constraintRecords.find? c.erase with
  | none => simp [found, notFound] at written
  | some record =>
    simp only [found] at written
    cases a with
    | name =>
      dsimp only at written
      split at written
      · cases written
      · cases written
        have stores : Stores s ⟨.constraint t, .name, c⟩ v
            (s.setConstraintRecord c.erase { record with name := v }) :=
          stores_constraintRecord found rfl fun u b differ => by cases b <;> trivial
        exact stores.of_samePlaces (.inr rfl) ⟨rfl, rfl, rfl, rfl⟩ ⟨rfl, rfl, rfl, rfl, rfl, rfl⟩
    | primalStart | dualStart | basisStatus =>
      cases written
      exact stores_constraintRecord found rfl fun u b differ => by cases b <;> trivial
    | primal r =>
      obtain ⟨old, known, rfl⟩ := updateResult_ok written
      exact stores_constraintPrimal known c v
    | dual r =>
      obtain ⟨old, known, rfl⟩ := updateResult_ok written
      exact stores_constraintDual known c v
    | function | set =>
      obtain ⟨rows, row, table, known, rfl⟩ := updateRow_ok written
      exact stores_row table known rfl fun b differ => by cases b <;> trivial

/-- An accepted write stores the value at its place. -/
theorem writeIndexed_stores {p : Place} {v : p.attr.Value}
    (written : s.writeIndexed p.attr p.index v = .ok after) : Stores s p v after := by
  rcases p with ⟨_ | t, a, index⟩
  · exact writeVariable_stores written
  · exact writeConstraint_stores written

end SolverProtocol.Store
