import SolverProtocol.Proofs.Store.Write

namespace SolverProtocol.Store

variable {s after : Store}

/-- Under each type stands a table of constraints of that type. -/
def TablesTyped (tables : OrderedMap ConstraintType AnyTable) : Prop :=
  ∀ t table, tables.find? t = some table → table.type = t

theorem TablesTyped.insert {tables : OrderedMap ConstraintType AnyTable}
    (typed : TablesTyped tables) (table : AnyTable) :
    TablesTyped (tables.insert table.type table) := by
  intro t found present
  rw [OrderedMap.find?_insert] at present
  split at present
  · rename_i same
    exact Option.some.inj present ▸ same
  · exact typed t found present

theorem TablesTyped.table? (typed : TablesTyped s.tables) {t : ConstraintType} {table : AnyTable}
    (found : s.tables.find? t = some table) :
    ∃ rows, table = ⟨t, rows⟩ ∧ s.table? t = some rows := by
  have same := typed t table found
  subst same
  exact ⟨table.rows, rfl, table?_eq_some_iff.mpr found⟩

/-- A typed store has a table for a constraint to come: the one under its type, or a new one. -/
theorem TablesTyped.ready (typed : TablesTyped s.tables) (t : ConstraintType) :
    ∃ rows : ConstraintTable t, ((s.tables.find? t).getD (.empty t)).as? t = some rows ∧
      rows.keys.map (fun value => ⟨t, value⟩) = s.indicesUnder t := by
  cases found : s.tables.find? t with
  | none => exact ⟨.empty, AnyTable.as?_eq_some_iff.mpr rfl, by simp [indicesUnder, found]⟩
  | some table =>
    obtain ⟨rows, rfl, -⟩ := typed.table? found
    exact ⟨rows, AnyTable.as?_eq_some_iff.mpr rfl, by simp [indicesUnder, found, AnyTable.indices]⟩

theorem TablesTyped.addConstraint? (typed : TablesTyped s.tables) (t : ConstraintType)
    (row : ConstraintRow t) : ∃ rows : ConstraintTable t,
      rows.keys.map (fun value => ⟨t, value⟩) = s.indicesUnder t ∧
      s.addConstraint? t row = some (⟨s.nextConstraint⟩, { s with
        nextConstraint := s.nextConstraint + 1
        tables := s.tables.insert t ⟨t, rows.insert s.nextConstraint row⟩
        constraintRecords := s.constraintRecords.insert ⟨t, s.nextConstraint⟩ {} }) := by
  obtain ⟨rows, found, same⟩ := typed.ready t
  exact ⟨rows, same, by simp [Store.addConstraint?, found]⟩

/-- The indices listed under each type when the table under one of them is replaced. -/
theorem indicesUnder_insert (tables : OrderedMap ConstraintType AnyTable) (table : AnyTable)
    (same : s.tables = tables.insert table.type table) (t : ConstraintType) :
    s.indicesUnder t =
      if table.type = t then table.indices
      else ((tables.find? t).map AnyTable.indices).getD [] := by
  simp only [indicesUnder, same, OrderedMap.find?_insert]
  split <;> rfl

private theorem TablesTyped.type_eq (typed : TablesTyped s.tables) {t : ConstraintType}
    {c : AnyConstraintIndex} (listed : c ∈ s.indicesUnder t) : c.type = t := by
  cases found : s.tables.find? t with
  | none => simp [indicesUnder, found] at listed
  | some table =>
    simp only [indicesUnder, found, Option.map_some, Option.getD_some, AnyTable.indices] at listed
    obtain ⟨value, -, rfl⟩ := List.mem_map.mp listed
    exact typed t table found

/-- A row erased from one table is gone from what is listed under every type. -/
theorem TablesTyped.indicesUnder_erase (typed : TablesTyped s.tables) {t : ConstraintType}
    {table : AnyTable} (found : s.tables.find? t = some table) (value : Nat)
    (same : after.tables = s.tables.insert t (table.erase value)) (u : ConstraintType) :
    after.indicesUnder u = (s.indicesUnder u).filter fun c => decide (c ≠ ⟨t, value⟩) := by
  have ofType := typed t table found
  subst ofType
  rw [indicesUnder_insert s.tables (table.erase value) same]
  split
  · rename_i here
    have own : table.type = u := here
    subst own
    simp only [indicesUnder, found, Option.map_some, Option.getD_some]
    exact AnyTable.indices_erase table value
  · rename_i elsewhere
    symm
    apply List.filter_eq_self.mpr
    intro c listed
    apply decide_eq_true
    rintro rfl
    exact elsewhere (typed.type_eq listed)

/-- The same variables and constraints are listed in the same order, and the same indices are to be
handed out next. -/
structure SameListings (s after : Store) : Prop where
  nextVariable : after.nextVariable = s.nextVariable
  nextConstraint : after.nextConstraint = s.nextConstraint
  ofVariables : after.variableRecords.keys = s.variableRecords.keys
  ofConstraints : after.constraintRecords.keys = s.constraintRecords.keys
  types : after.tables.keys = s.tables.keys
  indices : ∀ t, after.indicesUnder t = s.indicesUnder t

theorem SameListings.refl (s : Store) : SameListings s s :=
  ⟨rfl, rfl, rfl, rfl, rfl, fun _ => rfl⟩

theorem SameListings.trans {middle : Store} (first : SameListings s middle)
    (second : SameListings middle after) : SameListings s after where
  nextVariable := second.nextVariable.trans first.nextVariable
  nextConstraint := second.nextConstraint.trans first.nextConstraint
  ofVariables := second.ofVariables.trans first.ofVariables
  ofConstraints := second.ofConstraints.trans first.ofConstraints
  types := second.types.trans first.types
  indices t := (second.indices t).trans (first.indices t)

theorem Write.sameListings (write : Write s after) : SameListings s after := by
  cases write with
  | settings | resize | result => exact ⟨rfl, rfl, rfl, rfl, rfl, fun _ => rfl⟩
  | variableRecord found | variableName found =>
    refine ⟨rfl, rfl, ?_, rfl, rfl, fun _ => rfl⟩
    exact OrderedMap.keys_insert_of_mem _ (OrderedMap.mem_keys_of_find? found)
  | constraintRecord found | constraintName found =>
    refine ⟨rfl, rfl, rfl, ?_, rfl, fun _ => rfl⟩
    exact OrderedMap.keys_insert_of_mem _ (OrderedMap.mem_keys_of_find? found)
  | @row t rows value old table found changed =>
    have present := table?_eq_some_iff.mp table
    refine ⟨rfl, rfl, rfl, rfl, ?_, ?_⟩
    · exact OrderedMap.keys_insert_of_mem _ (OrderedMap.mem_keys_of_find? present)
    · intro u
      rw [indicesUnder_insert s.tables ⟨t, rows.insert value changed⟩ rfl]
      split
      · rename_i same
        subst same
        have kept := OrderedMap.keys_insert_of_mem changed (OrderedMap.mem_keys_of_find? found)
        simp [AnyTable.indices, kept, indicesUnder, present]
      · rfl

theorem Writes.sameListings (writes : Writes s after) : SameListings s after := by
  induction writes with
  | refl => exact .refl s
  | tail _ write ih => exact ih.trans write.sameListings

theorem Write.tablesTyped (write : Write s after) (typed : TablesTyped s.tables) :
    TablesTyped after.tables := by
  cases write with
  | row table found changed => exact typed.insert ⟨_, _⟩
  | _ => exact typed

end SolverProtocol.Store
