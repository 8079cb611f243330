import SolverProtocol.Proofs.Store.Frame

/-! Stores that are the same apart from one index: nothing that is kept, listed or live differs
elsewhere. Adding the index, storing values at it and deleting it lead to such stores. -/

namespace SolverProtocol

open Number

/-- The attribute lists or counts what has indices of the kind. -/
def GlobalAttribute.Lists (k : IndexKind) : GlobalAttribute → Prop
  | .property .numberOfVariables | .property .listOfVariableIndices => k = .var
  | .property .listOfConstraints => ∃ t, k = .constraint t
  | .property (.numberOfConstraints t) | .property (.listOfConstraintIndices t) =>
    k = .constraint t
  | _ => False

namespace Store

/-- The stores are the same apart from what belongs to the index, and list everything else in the
same order. A table may be new if it is of the type of the index. -/
structure SameApart (i : AnyIndex) (s after : Store) : Prop where
  settings : SameSettings s after
  kept : ∀ p : Place, p.target ≠ i → after.kept? p = s.kept? p
  ofVariables : (after.variableRecords.keys.filter fun x => decide (.var x ≠ i)) =
    s.variableRecords.keys.filter fun x => decide (.var x ≠ i)
  ofConstraints : (after.constraintRecords.keys.filter fun c => decide (.constraint c ≠ i)) =
    s.constraintRecords.keys.filter fun c => decide (.constraint c ≠ i)
  tables : s.tables.keys <+: after.tables.keys
  newTables : ∀ t ∈ after.tables.keys, t ∈ s.tables.keys ∨ i.kind = .constraint t

variable {s middle after : Store} {i : AnyIndex}

namespace SameApart

theorem refl (i : AnyIndex) (s : Store) : SameApart i s s :=
  ⟨⟨rfl, rfl, rfl, rfl, rfl, rfl⟩, fun _ _ => rfl, rfl, rfl, List.prefix_refl _, fun _ => .inl⟩

theorem trans (first : SameApart i s middle) (second : SameApart i middle after) :
    SameApart i s after where
  settings := first.settings.trans second.settings
  kept p other := (second.kept p other).trans (first.kept p other)
  ofVariables := second.ofVariables.trans first.ofVariables
  ofConstraints := second.ofConstraints.trans first.ofConstraints
  tables := first.tables.trans second.tables
  newTables t member := by
    rcases second.newTables t member with old | own
    · exact first.newTables t old
    · exact .inr own

theorem isLive (same : SameApart i s after) {j : AnyIndex} (other : j ≠ i) :
    after.isLive j = s.isLive j := by
  rw [Bool.eq_iff_iff]
  cases j with
  | var x =>
    have listed : x ∈ _ ↔ x ∈ _ := iff_of_eq (congrArg (x ∈ ·) same.ofVariables)
    simpa [List.mem_filter, other, Store.isLive] using listed
  | constraint c =>
    have listed : c ∈ _ ↔ c ∈ _ := iff_of_eq (congrArg (c ∈ ·) same.ofConstraints)
    simpa [List.mem_filter, other, Store.isLive] using listed

end SameApart

theorem Invariant.addVariable_sameApart (valid : s.Invariant) :
    SameApart (.var s.addVariable.1) s s.addVariable.2 := by
  refine ⟨⟨rfl, rfl, rfl, rfl, rfl, rfl⟩, ?_, ?_, rfl, List.prefix_refl _, fun _ => .inl⟩
  · rintro ⟨_ | t, a, index⟩ other
    · have apart : (⟨s.nextVariable⟩ : VariableIndex) ≠ index := fun same => other (same ▸ rfl)
      cases a with
      | primal r => rfl
      | name | primalStart | basisStatus =>
        exact congrArg (Option.bind · _) (OrderedMap.find?_insert_of_ne _ _ apart)
    · cases a <;> rfl
  · simp [Store.addVariable, OrderedMap.keys_insert_of_not_mem _ valid.nextVariable_fresh,
      List.filter_append]

/-- The table that a new constraint comes into has the rows that were kept under its type. -/
private theorem find?_ready {t : ConstraintType} {rows : ConstraintTable t}
    (ready : ((s.tables.find? t).getD (.empty t)).as? t = some rows) (value : Nat) :
    rows.find? value = (s.table? t).bind (·.find? value) := by
  rw [AnyTable.as?_eq_some_iff] at ready
  cases found : s.tables.find? t with
  | none =>
    rw [found] at ready
    cases ready
    simp [table?, found]
  | some table =>
    rw [found] at ready
    cases ready
    rw [table?_eq_some_iff.mpr found]
    rfl

theorem Invariant.addConstraint_sameApart (valid : s.Invariant) (t : ConstraintType)
    (row : ConstraintRow t) :
    SameApart (.constraint (s.addConstraint t row).1.erase) s (s.addConstraint t row).2 := by
  obtain ⟨rows, ready, -⟩ := valid.typed.ready t
  have added : s.addConstraint? t row = some (⟨s.nextConstraint⟩, { s with
      nextConstraint := s.nextConstraint + 1
      tables := s.tables.insert t ⟨t, rows.insert s.nextConstraint row⟩
      constraintRecords := s.constraintRecords.insert ⟨t, s.nextConstraint⟩ {} }) := by
    simp [Store.addConstraint?, ready]
  simp only [Store.addConstraint, added, Option.getD_some]
  refine ⟨⟨rfl, rfl, rfl, rfl, rfl, rfl⟩, ?_, rfl, ?_, ?_, ?_⟩
  · rintro ⟨_ | u, a, index⟩ other
    · cases a <;> rfl
    · have apart : (⟨t, s.nextConstraint⟩ : AnyConstraintIndex) ≠ index.erase :=
        fun same => other (congrArg AnyIndex.constraint same.symm)
      cases a with
      | primal r | dual r => rfl
      | name | primalStart | dualStart | basisStatus =>
        exact congrArg (Option.bind · _) (OrderedMap.find?_insert_of_ne _ _ apart)
      | function | set =>
        refine congrArg (Option.bind · _) ?_
        by_cases same : t = u
        · subst same
          have differ : s.nextConstraint ≠ index.value :=
            fun same => apart (by simp [ConstraintIndex.erase, same])
          simp only [row?, ← find?_ready ready]
          simp [table?, AnyTable.as?, OrderedMap.find?_insert_of_ne _ _ differ]
        · simp [row?, table?, OrderedMap.find?_insert_of_ne _ _ same]
  · rw [OrderedMap.keys_insert_of_not_mem _ (valid.nextConstraint_fresh t), List.filter_append]
    simp [ConstraintIndex.erase]
  · rw [OrderedMap.keys_insert]
    split
    · exact List.prefix_refl _
    · exact List.prefix_append ..
  · intro u member
    rcases OrderedMap.mem_keys_insert.mp member with old | new
    · exact .inl old
    · exact .inr (congrArg IndexKind.constraint new.symm)

theorem writeIndexed_sameApart {p : Place} {v : p.attr.Value}
    (written : s.writeIndexed p.attr p.index v = .ok after) : SameApart p.target s after := by
  have listings := (writeIndexed_write written).sameListings
  have stores := writeIndexed_stores written
  refine ⟨stores.settings, fun q other => stores.others q ?_, by rw [listings.ofVariables],
    by rw [listings.ofConstraints], listings.types ▸ List.prefix_refl _,
    fun t member => .inl (listings.types ▸ member)⟩
  rintro rfl
  exact other rfl

theorem setAt_sameApart (tolerance : Binary64) (s : Store) {k : IndexKind}
    (a : IndexedAttribute k) (index : k.Index) (v : a.Value) :
    SameApart (k.erase index) s ((backend tolerance).setAt s a index v).2 := by
  rw [setAt_eq]
  exact settleChange_preserves (.refl _ s) fun _ => writeIndexed_sameApart (p := ⟨k, a, index⟩)

private theorem result?_map {change : ResultRecord → ResultRecord}
    (results : after.results = s.results.map change) (r : Nat) :
    after.result? r = (s.result? r).map change := by
  cases r with
  | zero => rfl
  | succ position => simp [result?, results]

/-- What a change of all results agrees about is kept. -/
private theorem bind_result?_map {change : ResultRecord → ResultRecord}
    (results : after.results = s.results.map change) {α : Type} {value : ResultRecord → Option α}
    (agree : ∀ result, value (change result) = value result) (r : Nat) :
    (after.result? r).bind value = (s.result? r).bind value := by
  rw [result?_map results]
  cases s.result? r with
  | none => rfl
  | some result => exact agree result

theorem deleteVariable_sameApart {x : VariableIndex} (deleted : s.deleteVariable x = .ok after) :
    SameApart (.var x) s after := by
  obtain ⟨record, -, same⟩ := deleteVariable_ok deleted
  have results : after.results = s.results.map _ := congrArg Store.results same
  subst same
  refine ⟨⟨rfl, rfl, rfl, rfl, rfl, ?_⟩, ?_, ?_, rfl, List.prefix_refl _, fun _ => .inl⟩
  · rw [results, List.map_map]
    rfl
  · rintro ⟨_ | t, a, index⟩ other
    · have apart : x ≠ index := fun same => other (congrArg AnyIndex.var same.symm)
      cases a with
      | primal r =>
        refine bind_result?_map results (fun result => ?_) r
        exact (OrderedMap.find?_erase ..).trans (if_neg apart)
      | name | primalStart | basisStatus =>
        exact congrArg (Option.bind · _) ((OrderedMap.find?_erase ..).trans (if_neg apart))
    · cases a with
      | primal r | dual r => exact bind_result?_map results (fun _ => rfl) r
      | name | primalStart | dualStart | basisStatus | function | set => rfl
  · simp [OrderedMap.keys_erase, List.filter_filter]

theorem Invariant.deleteConstraint_sameApart (valid : s.Invariant) {t : ConstraintType}
    {c : ConstraintIndex t} (deleted : s.deleteConstraint c = .ok after) :
    SameApart (.constraint c.erase) s after := by
  obtain ⟨record, found, same⟩ := deleteConstraint_ok deleted
  obtain ⟨rows, row, kept, -⟩ := valid.stored (OrderedMap.mem_keys_of_find? found)
  have table := table?_eq_some_iff.mp kept
  rw [table] at same
  have results : after.results = s.results.map _ := congrArg Store.results same
  subst same
  have keys : (s.tables.insert t (AnyTable.erase ⟨t, rows⟩ c.value)).keys = s.tables.keys :=
    OrderedMap.keys_insert_of_mem _ (OrderedMap.mem_keys_of_find? table)
  refine ⟨⟨rfl, rfl, rfl, rfl, rfl, ?_⟩, ?_, rfl, ?_, keys ▸ List.prefix_refl _,
    fun u member => .inl (keys ▸ member)⟩
  · rw [results, List.map_map]
    rfl
  · rintro ⟨_ | u, a, index⟩ other
    · cases a with
      | primal r => exact bind_result?_map results (fun _ => rfl) r
      | name | primalStart | basisStatus => rfl
    · have apart : c.erase ≠ index.erase :=
        fun same => other (congrArg AnyIndex.constraint same.symm)
      cases a with
      | primal r | dual r =>
        refine bind_result?_map results (fun result => ?_) r
        exact (OrderedMap.find?_erase ..).trans (if_neg apart)
      | name | primalStart | dualStart | basisStatus =>
        exact congrArg (Option.bind · _) ((OrderedMap.find?_erase ..).trans (if_neg apart))
      | function | set =>
        refine congrArg (Option.bind · _) ?_
        by_cases same : t = u
        · subst same
          have differ : c.value ≠ index.value :=
            fun same => apart (by simp [ConstraintIndex.erase, same])
          simp [row?, table?, table, AnyTable.as?, AnyTable.erase, OrderedMap.find?_erase, differ]
        · simp [row?, table?, OrderedMap.find?_insert_of_ne _ _ same]
  · simp [OrderedMap.keys_erase, List.filter_filter]

namespace SameApart

theorem readIndexed (same : SameApart i s after) (valid : s.Invariant)
    (validAfter : after.Invariant) {p : Place} (other : p.target ≠ i) :
    after.readIndexed p.attr p.index = s.readIndexed p.attr p.index := by
  rw [validAfter.readIndexed_eq, valid.readIndexed_eq,
    refusal?_congr (same.isLive other) same.settings.length_results, same.kept p other]

/-- A new table has no part in what is listed, as long as the same constraints are live. -/
theorem constraintTypes (same : SameApart i s after) (valid : s.Invariant)
    (validAfter : after.Invariant)
    (live : after.constraintRecords.keys = s.constraintRecords.keys) :
    after.constraintTypes = s.constraintTypes := by
  obtain ⟨more, grown⟩ := same.tables
  rw [valid.constraintTypes_eq, validAfter.constraintTypes_eq, live, ← grown, List.filter_append]
  -- a type that is listed has a live constraint, and this one had its table before
  refine List.append_right_eq_self.mpr (List.filter_eq_nil_iff.mpr fun t new listed => ?_)
  obtain ⟨c, member, ofType⟩ := List.any_eq_true.mp listed
  obtain ⟨rows, row, table, -⟩ := valid.stored (c := (⟨c.value⟩ : ConstraintIndex c.type)) member
  have old : t ∈ s.tables.keys := by
    rw [← of_decide_eq_true ofType]
    exact OrderedMap.mem_keys_of_find? (table?_eq_some_iff.mp table)
  have distinct : (s.tables.keys ++ more).Nodup := grown ▸ after.tables.nodup_keys
  exact (List.nodup_append.mp distinct).2.2 t old t new rfl

/-- What is listed of variables differs only where a variable with the index is live. -/
theorem keys_variables (same : SameApart i s after)
    (missing : ∀ x, .var x = i → s.isLive i = false ∧ after.isLive i = false) :
    after.variableRecords.keys = s.variableRecords.keys := by
  have others {t : Store} (missing : ∀ x, .var x = i → t.isLive i = false) :
      (t.variableRecords.keys.filter fun x => decide (.var x ≠ i)) = t.variableRecords.keys := by
    refine List.filter_eq_self.mpr fun x member => decide_eq_true fun own => ?_
    have live : t.isLive i = true := own ▸ OrderedMap.contains_iff.mpr member
    exact Bool.false_ne_true ((missing x own).symm.trans live)
  rw [← others fun x own => (missing x own).2, same.ofVariables,
    others fun x own => (missing x own).1]

theorem keys_constraints (same : SameApart i s after)
    (missing : ∀ c, .constraint c = i → s.isLive i = false ∧ after.isLive i = false) :
    after.constraintRecords.keys = s.constraintRecords.keys := by
  have others {t : Store} (missing : ∀ c, .constraint c = i → t.isLive i = false) :
      (t.constraintRecords.keys.filter fun c => decide (.constraint c ≠ i)) =
        t.constraintRecords.keys := by
    refine List.filter_eq_self.mpr fun c member => decide_eq_true fun own => ?_
    have live : t.isLive i = true := own ▸ OrderedMap.contains_iff.mpr member
    exact Bool.false_ne_true ((missing c own).symm.trans live)
  rw [← others fun c own => (missing c own).2, same.ofConstraints,
    others fun c own => (missing c own).1]

theorem indicesUnder (same : SameApart i s after) (valid : s.Invariant)
    (validAfter : after.Invariant) {t : ConstraintType} (other : i.kind ≠ .constraint t) :
    after.indicesUnder t = s.indicesUnder t := by
  have ofType (keys : List AnyConstraintIndex) : (keys.filter fun c => decide (c.type = t)) =
      (keys.filter fun c => decide (.constraint c ≠ i)).filter fun c => decide (c.type = t) := by
    rw [List.filter_filter]
    refine List.filter_congr fun c _ => ?_
    have apart : c.type = t → AnyIndex.constraint c ≠ i := by
      rintro rfl rfl
      exact other rfl
    by_cases same : c.type = t <;> simp [same, apart]
  rw [validAfter.listed t, valid.listed t, ofType, same.ofConstraints, ← ofType]

/-- Only listings of the kind of the index may differ. -/
theorem readGlobal (same : SameApart i s after) (valid : s.Invariant)
    (validAfter : after.Invariant) {tolerance : Binary64} {a : GlobalAttribute}
    (unlisted : ¬a.Lists i.kind) :
    after.readGlobal tolerance a = s.readGlobal tolerance a := by
  cases a with
  | parameter p => exact same.settings.readParameter p
  | property a =>
    refine same.settings.readProperty_of_listed ?_ ?_ ?_
    · intro listing
      refine same.keys_variables ?_
      rintro x rfl
      rcases listing with rfl | rfl <;> exact absurd rfl unlisted
    · rintro rfl
      refine same.constraintTypes valid validAfter (same.keys_constraints ?_)
      rintro c rfl
      exact absurd ⟨c.type, rfl⟩ unlisted
    · rintro t (rfl | rfl) <;> exact same.indicesUnder valid validAfter unlisted

end SameApart

/-- The name of what has the index, if something has it. -/
def nameAt? (s : Store) : AnyIndex → Option String
  | .var x => nameOf? s.variableRecords VariableRecord.name x
  | .constraint c => nameOf? s.constraintRecords ConstraintRecord.name c

theorem SameApart.nameAt? (same : SameApart i s after) {j : AnyIndex} (other : j ≠ i) :
    after.nameAt? j = s.nameAt? j := by
  cases j with
  | var x =>
    have kept : after.keptForVariable x .name = s.keptForVariable x .name :=
      same.kept ⟨.var, .name, x⟩ other
    simp only [Store.nameAt?, nameOf?, Option.map_eq_bind]
    exact kept
  | constraint c =>
    have kept : after.keptForConstraint (t := c.type) ⟨c.value⟩ .name =
        s.keptForConstraint (t := c.type) ⟨c.value⟩ .name :=
      same.kept ⟨.constraint c.type, .name, ⟨c.value⟩⟩ other
    simp only [Store.nameAt?, nameOf?, Option.map_eq_bind]
    exact kept

/-- The name is empty, or it is not that of what has the index. -/
def NotNamed (s : Store) (i : AnyIndex) (n : String) : Prop :=
  n = "" ∨ s.nameAt? i ≠ some n

theorem SameApart.find?_variableNames (same : SameApart i s after) (valid : s.Invariant)
    (validAfter : after.Invariant) {n : String} (before : s.NotNamed i n)
    (later : after.NotNamed i n) : after.variableNames.find? n = s.variableNames.find? n := by
  refine Option.ext fun x => ?_
  rw [valid.named.ofVariables n x, validAfter.named.ofVariables n x]
  refine and_congr_right fun named => ?_
  by_cases own : .var x = i
  · subst own
    exact iff_of_false (later.resolve_left named) (before.resolve_left named)
  · exact iff_of_eq (congrArg (· = some n) (same.nameAt? own))

theorem SameApart.find?_constraintNames (same : SameApart i s after) (valid : s.Invariant)
    (validAfter : after.Invariant) {n : String} (before : s.NotNamed i n)
    (later : after.NotNamed i n) :
    after.constraintNames.find? n = s.constraintNames.find? n := by
  refine Option.ext fun c => ?_
  rw [valid.named.ofConstraints n c, validAfter.named.ofConstraints n c]
  refine and_congr_right fun named => ?_
  by_cases own : .constraint c = i
  · subst own
    exact iff_of_false (later.resolve_left named) (before.resolve_left named)
  · exact iff_of_eq (congrArg (· = some n) (same.nameAt? own))

end Store

end SolverProtocol
