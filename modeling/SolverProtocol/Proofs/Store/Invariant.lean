import SolverProtocol.Proofs.Store.Listing
import SolverProtocol.Proofs.Store.Naming

namespace SolverProtocol.Store

open Number

/-- Raw values of one kind of index, handed out in increasing order from 1; `next` comes next. -/
structure Ascending (values : List Nat) (next : Nat) : Prop where
  ordered : values.Pairwise (· < ·)
  positive : ∀ value ∈ values, 0 < value
  below : ∀ value ∈ values, value < next
  started : 0 < next

theorem Ascending.push {values : List Nat} {next : Nat} (valid : Ascending values next) :
    Ascending (values ++ [next]) (next + 1) where
  ordered := List.pairwise_append.mpr
    ⟨valid.ordered, List.pairwise_singleton .., fun value member _ last =>
      List.mem_singleton.mp last ▸ valid.below value member⟩
  positive value member := by
    rcases List.mem_append.mp member with old | new
    · exact valid.positive value old
    · exact List.mem_singleton.mp new ▸ valid.started
  below value member := by
    rcases List.mem_append.mp member with old | new
    · exact Nat.lt_succ_of_lt (valid.below value old)
    · exact List.mem_singleton.mp new ▸ Nat.lt_succ_self next
  started := Nat.succ_pos next

theorem Ascending.sublist {values fewer : List Nat} {next : Nat} (valid : Ascending values next)
    (kept : fewer.Sublist values) : Ascending fewer next where
  ordered := valid.ordered.sublist kept
  positive value member := valid.positive value (kept.subset member)
  below value member := valid.below value (kept.subset member)
  started := valid.started

/-- What holds of every store that a run can reach. -/
structure Invariant (s : Store) : Prop where
  typed : TablesTyped s.tables
  /-- The table under a type lists the live constraints of that type, in their order. -/
  listed : ∀ t, s.indicesUnder t = s.constraintRecords.keys.filter fun c => decide (c.type = t)
  live : ∀ result ∈ s.results, s.LiveValues result
  few : s.results.length ≤ maxResultCount
  ofVariables : Ascending (s.variableRecords.keys.map (·.value)) s.nextVariable
  ofConstraints : Ascending (s.constraintRecords.keys.map (·.value)) s.nextConstraint
  named : s.Named

variable {s after : Store}

theorem Invariant.empty : Invariant .empty where
  typed t table found := by simp [Store.empty] at found
  listed t := by simp [Store.empty, indicesUnder]
  live result member := by simp [Store.empty] at member
  few := Nat.zero_le _
  ofVariables := ⟨.nil, by simp [Store.empty], by simp [Store.empty], Nat.one_pos⟩
  ofConstraints := ⟨.nil, by simp [Store.empty], by simp [Store.empty], Nat.one_pos⟩
  named :=
    ⟨fun name x => by simp [Store.empty, nameOf?], fun name c => by simp [Store.empty, nameOf?]⟩

theorem Invariant.nextVariable_fresh (valid : s.Invariant) :
    ⟨s.nextVariable⟩ ∉ s.variableRecords.keys := fun member =>
  Nat.lt_irrefl _ (valid.ofVariables.below _ (List.mem_map.mpr ⟨_, member, rfl⟩))

theorem Invariant.nextConstraint_fresh (valid : s.Invariant) (t : ConstraintType) :
    ⟨t, s.nextConstraint⟩ ∉ s.constraintRecords.keys := fun member =>
  Nat.lt_irrefl _ (valid.ofConstraints.below _ (List.mem_map.mpr ⟨_, member, rfl⟩))

/-- A live constraint has a function and a set. -/
theorem Invariant.stored (valid : s.Invariant) {t : ConstraintType} {c : ConstraintIndex t}
    (live : c.erase ∈ s.constraintRecords.keys) :
    ∃ rows row, s.table? t = some rows ∧ rows.find? c.value = some row := by
  have member : c.erase ∈ s.indicesUnder t := by
    rw [valid.listed t]
    exact List.mem_filter.mpr ⟨live, decide_eq_true rfl⟩
  cases found : s.tables.find? t with
  | none => simp [indicesUnder, found] at member
  | some table =>
    obtain ⟨rows, rfl, kept⟩ := valid.typed.table? found
    have known : c.value ∈ rows.keys := by
      simpa [indicesUnder, found, AnyTable.indices, ConstraintIndex.erase] using member
    obtain ⟨row, present⟩ := OrderedMap.mem_keys_iff.mp known
    exact ⟨rows, row, kept, present⟩

theorem Invariant.row (valid : s.Invariant) (a : ConstraintAttribute) {t : ConstraintType}
    {c : ConstraintIndex t} (live : c.erase ∈ s.constraintRecords.keys) :
    ∃ row, s.row a c = .ok row := by
  obtain ⟨rows, row, table, found⟩ := valid.stored live
  exact ⟨row, by simp [Store.row, table, found]⟩

private theorem LiveValues.mono {result : ResultRecord} (live : s.LiveValues result)
    (ofVariables : ∀ x ∈ s.variableRecords.keys, x ∈ after.variableRecords.keys)
    (ofConstraints : ∀ c ∈ s.constraintRecords.keys, c ∈ after.constraintRecords.keys) :
    after.LiveValues result where
  variablePrimal x member := ofVariables x (live.variablePrimal x member)
  constraintPrimal c member := ofConstraints c (live.constraintPrimal c member)
  constraintDual c member := ofConstraints c (live.constraintDual c member)

theorem Invariant.addVariable (valid : s.Invariant) : s.addVariable.2.Invariant := by
  have fresh := valid.nextVariable_fresh
  refine ⟨valid.typed, valid.listed, ?_, valid.few, ?_, valid.ofConstraints, ?_,
    valid.named.ofConstraints⟩
  · intro result member
    refine (valid.live result member).mono ?_ fun _ => id
    exact fun x known => OrderedMap.mem_keys_insert.mpr (.inl known)
  · simpa [Store.addVariable, OrderedMap.keys_insert_of_not_mem _ fresh] using
      valid.ofVariables.push
  · have unnamed : nameOf? s.variableRecords VariableRecord.name ⟨s.nextVariable⟩ = none := by
      simp [nameOf?, OrderedMap.find?_eq_none_iff.mpr fresh]
    simpa [Store.addVariable, nameOf?_insert] using valid.named.ofVariables.unnamed unnamed

theorem Invariant.addVariables (valid : s.Invariant) (count : Nat) :
    (s.addVariables count).2.Invariant := by
  induction count generalizing s with
  | zero => exact valid
  | succ count ih => exact ih valid.addVariable

theorem Invariant.addConstraint (valid : s.Invariant) (t : ConstraintType)
    (row : ConstraintRow t) : (s.addConstraint t row).2.Invariant := by
  have fresh := valid.nextConstraint_fresh t
  obtain ⟨rows, same, added⟩ := valid.typed.addConstraint? t row
  have freshRow : s.nextConstraint ∉ rows.keys := by
    intro member
    have listed : ⟨t, s.nextConstraint⟩ ∈ s.indicesUnder t := by
      rw [← same]
      exact List.mem_map_of_mem member
    rw [valid.listed t] at listed
    exact fresh (List.mem_filter.mp listed).1
  simp only [Store.addConstraint, added, Option.getD_some]
  refine ⟨valid.typed.insert ⟨t, _⟩, ?_, ?_, valid.few, valid.ofVariables, ?_,
    valid.named.ofVariables, ?_⟩
  · intro u
    rw [indicesUnder_insert s.tables ⟨t, rows.insert s.nextConstraint row⟩ rfl]
    simp only [OrderedMap.keys_insert_of_not_mem _ fresh, List.filter_append]
    split
    · rename_i here
      subst here
      simp [AnyTable.indices, OrderedMap.keys_insert_of_not_mem _ freshRow, same, valid.listed]
    · rename_i elsewhere
      simpa [elsewhere, indicesUnder] using valid.listed u
  · intro result member
    refine (valid.live result member).mono (fun _ => id) ?_
    exact fun c known => OrderedMap.mem_keys_insert.mpr (.inl known)
  · simpa [OrderedMap.keys_insert_of_not_mem _ fresh] using valid.ofConstraints.push
  · have unnamed :
        nameOf? s.constraintRecords ConstraintRecord.name ⟨t, s.nextConstraint⟩ = none := by
      simp [nameOf?, OrderedMap.find?_eq_none_iff.mpr fresh]
    simpa [nameOf?_insert] using valid.named.ofConstraints.unnamed unnamed

theorem deleteVariable_ok {x : VariableIndex} (deleted : s.deleteVariable x = .ok after) :
    ∃ record, s.variableRecords.find? x = some record ∧ after = { s with
      variableRecords := s.variableRecords.erase x
      variableNames := releaseName s.variableNames record.name
      results := s.results.map fun result =>
        { result with variablePrimal := result.variablePrimal.erase x } } := by
  unfold deleteVariable at deleted
  cases found : s.variableRecords.find? x with
  | none => simp [found, notFound] at deleted
  | some record =>
    simp only [found, Except.ok.injEq] at deleted
    exact ⟨record, rfl, deleted.symm⟩

theorem Invariant.deleteVariable (valid : s.Invariant) {x : VariableIndex}
    (deleted : s.deleteVariable x = .ok after) : after.Invariant := by
  obtain ⟨record, found, rfl⟩ := deleteVariable_ok deleted
  refine ⟨valid.typed, valid.listed, ?_, by simpa using valid.few, ?_, valid.ofConstraints, ?_,
    valid.named.ofConstraints⟩
  · intro result member
    obtain ⟨old, kept, rfl⟩ := List.mem_map.mp member
    have live := valid.live old kept
    exact ⟨OrderedMap.mem_keys_erase_mono live.variablePrimal x, live.constraintPrimal,
      live.constraintDual⟩
  · refine valid.ofVariables.sublist ?_
    simpa only [OrderedMap.keys_erase] using List.filter_sublist.map _
  · simpa only [nameOf?_erase] using valid.named.ofVariables.release (nameOf?_of_find? found)

theorem deleteConstraint_ok {t : ConstraintType} {c : ConstraintIndex t}
    (deleted : s.deleteConstraint c = .ok after) :
    ∃ record, s.constraintRecords.find? c.erase = some record ∧ after = { s with
      constraintRecords := s.constraintRecords.erase c.erase
      tables :=
        match s.tables.find? t with
        | none => s.tables
        | some table => s.tables.insert t (table.erase c.value)
      constraintNames := releaseName s.constraintNames record.name
      results := s.results.map fun result =>
        { result with
          constraintPrimal := result.constraintPrimal.erase c.erase
          constraintDual := result.constraintDual.erase c.erase } } := by
  unfold deleteConstraint at deleted
  cases found : s.constraintRecords.find? c.erase with
  | none => simp [found, notFound] at deleted
  | some record =>
    simp only [found, Except.ok.injEq] at deleted
    exact ⟨record, rfl, deleted.symm⟩

theorem Invariant.deleteConstraint (valid : s.Invariant) {t : ConstraintType}
    {c : ConstraintIndex t} (deleted : s.deleteConstraint c = .ok after) : after.Invariant := by
  obtain ⟨record, found, rfl⟩ := deleteConstraint_ok deleted
  obtain ⟨rows, row, kept, -⟩ := valid.stored (OrderedMap.mem_keys_of_find? found)
  have table := table?_eq_some_iff.mp kept
  simp only [table]
  refine ⟨valid.typed.insert ⟨t, _⟩, ?_, ?_, by simpa using valid.few, valid.ofVariables, ?_,
    valid.named.ofVariables, ?_⟩
  · intro u
    rw [valid.typed.indicesUnder_erase table c.value rfl, valid.listed u, OrderedMap.keys_erase,
      List.filter_filter, List.filter_filter]
    exact List.filter_congr fun d _ => Bool.and_comm ..
  · intro result member
    obtain ⟨old, present, rfl⟩ := List.mem_map.mp member
    have live := valid.live old present
    exact ⟨live.variablePrimal, OrderedMap.mem_keys_erase_mono live.constraintPrimal c.erase,
      OrderedMap.mem_keys_erase_mono live.constraintDual c.erase⟩
  · refine valid.ofConstraints.sublist ?_
    simpa only [OrderedMap.keys_erase] using List.filter_sublist.map _
  · simpa only [nameOf?_erase] using valid.named.ofConstraints.release (nameOf?_of_find? found)

private theorem SameListings.liveValues (same : SameListings s after) {result : ResultRecord}
    (live : s.LiveValues result) : after.LiveValues result :=
  live.mono (fun _ known => same.ofVariables ▸ known) fun _ known => same.ofConstraints ▸ known

private theorem Write.liveValues (write : Write s after)
    (live : ∀ result ∈ s.results, s.LiveValues result) :
    ∀ result ∈ after.results, after.LiveValues result := by
  intro result member
  -- what was live stays live, so that only new and changed results are left to look at
  refine write.sameListings.liveValues ?_
  cases write with
  | resize few =>
    rcases List.mem_append.mp member with old | new
    · exact live result (List.mem_of_mem_take old)
    · obtain ⟨-, rfl⟩ := List.mem_replicate.mp new
      exact ⟨by simp, by simp, by simp⟩
  | result position kept =>
    obtain ⟨place, found⟩ := List.mem_iff_getElem?.mp member
    rw [List.getElem?_modify, Option.map_eq_map, Option.map_eq_some_iff] at found
    obtain ⟨old, known, rfl⟩ := found
    have before := live old (List.mem_of_getElem? known)
    split
    · exact kept old before
    · exact before
  | _ => exact live result member

private theorem Write.few (write : Write s after) (few : s.results.length ≤ maxResultCount) :
    after.results.length ≤ maxResultCount := by
  cases write with
  | @resize count within => rwa [length_resize]
  | result => rwa [List.length_modify]
  | _ => exact few

theorem Write.invariant (write : Write s after) (valid : s.Invariant) : after.Invariant := by
  have same := write.sameListings
  refine ⟨write.tablesTyped valid.typed, ?_, write.liveValues valid.live, write.few valid.few, ?_,
    ?_, write.named valid.named⟩
  · intro t
    rw [same.indices t, same.ofConstraints, valid.listed t]
  · rw [same.ofVariables, same.nextVariable]
    exact valid.ofVariables
  · rw [same.ofConstraints, same.nextConstraint]
    exact valid.ofConstraints

theorem Writes.invariant (writes : Writes s after) (valid : s.Invariant) : after.Invariant := by
  induction writes with
  | refl => exact valid
  | tail _ write ih => exact write.invariant ih

variable {op : Operation} {returned : Returned}

theorem Effect.invariant (effect : Effect s op returned after) (valid : s.Invariant) :
    after.Invariant := by
  cases effect with
  | addVariable => exact valid.addVariable
  | addVariables count => exact valid.addVariables count
  | addConstraint t row => exact valid.addConstraint t row
  | deleteVariable deleted => exact valid.deleteVariable deleted
  | deleteConstraint deleted => exact valid.deleteConstraint deleted
  | store writes => exact writes.invariant valid

theorem Invariant.run (valid : s.Invariant) (tolerance : Binary64) (ops : List Operation) :
    (Store.run tolerance s ops).Invariant :=
  run_preserves (fun _ op => (perform_effect tolerance _ op).invariant) valid ops

theorem Reachable.invariant (reachable : s.Reachable) : s.Invariant := by
  obtain ⟨tolerance, ops, -, rfl⟩ := reachable
  exact Invariant.empty.run tolerance ops

private theorem addVariables_counters (count : Nat) (s : Store) :
    (s.addVariables count).2.nextVariable = s.nextVariable + count ∧
      (s.addVariables count).2.nextConstraint = s.nextConstraint := by
  induction count generalizing s with
  | zero => exact ⟨rfl, rfl⟩
  | succ count ih =>
    obtain ⟨ofVariables, ofConstraints⟩ := ih s.addVariable.2
    refine ⟨ofVariables.trans ?_, ofConstraints⟩
    simp only [Store.addVariable]
    omega

private theorem addConstraint_counters (s : Store) (t : ConstraintType) (row : ConstraintRow t) :
    (s.addConstraint t row).2.nextVariable = s.nextVariable ∧
      (s.addConstraint t row).2.nextConstraint ≤ s.nextConstraint + 1 := by
  simp only [Store.addConstraint, Store.addConstraint?]
  cases ((s.tables.find? t).getD (.empty t)).as? t with
  | none => exact ⟨rfl, Nat.le_succ _⟩
  | some rows => exact ⟨rfl, Nat.le_refl _⟩

/-- Neither counter advances by more than what an operation adds. -/
theorem Effect.counters (effect : Effect s op returned after) :
    after.nextVariable ≤ s.nextVariable + op.variablesAdded ∧
      after.nextConstraint ≤ s.nextConstraint + op.constraintsAdded := by
  cases effect with
  | addVariable => exact ⟨Nat.le_refl _, Nat.le_refl _⟩
  | addVariables count =>
    obtain ⟨ofVariables, ofConstraints⟩ := addVariables_counters count s
    exact ⟨Nat.le_of_eq ofVariables, Nat.le_of_eq ofConstraints⟩
  | addConstraint t row =>
    obtain ⟨ofVariables, ofConstraints⟩ := addConstraint_counters s t row
    exact ⟨Nat.le_of_eq ofVariables, ofConstraints⟩
  | deleteVariable deleted =>
    obtain ⟨record, -, rfl⟩ := deleteVariable_ok deleted
    exact ⟨Nat.le_refl _, Nat.le_refl _⟩
  | deleteConstraint deleted =>
    obtain ⟨record, -, rfl⟩ := deleteConstraint_ok deleted
    exact ⟨Nat.le_refl _, Nat.le_refl _⟩
  | store writes =>
    have same := writes.sameListings
    rw [same.nextVariable, same.nextConstraint]
    exact ⟨Nat.le_add_right .., Nat.le_add_right ..⟩

theorem run_counters (tolerance : Binary64) (ops : List Operation) (s : Store) :
    (Store.run tolerance s ops).nextVariable ≤ s.nextVariable + variablesAdded ops ∧
      (Store.run tolerance s ops).nextConstraint ≤ s.nextConstraint + constraintsAdded ops := by
  induction ops generalizing s with
  | nil => exact ⟨Nat.le_refl _, Nat.le_refl _⟩
  | cons op ops ih =>
    have first := (perform_effect tolerance s op).counters
    have rest := ih (s.perform tolerance op).2
    simp only [Store.run, variablesAdded, constraintsAdded, List.map_cons, List.sum_cons] at rest ⊢
    omega

theorem Reachable.counters (reachable : s.Reachable) :
    s.nextVariable < 2 ^ 64 ∧ s.nextConstraint < 2 ^ 64 := by
  obtain ⟨tolerance, ops, within, rfl⟩ := reachable
  obtain ⟨ofVariables, ofConstraints⟩ := run_counters tolerance ops .empty
  have first : Store.empty.nextVariable = 1 ∧ Store.empty.nextConstraint = 1 := ⟨rfl, rfl⟩
  have := within.ofVariables
  have := within.ofConstraints
  omega

/-- Besides the invariant: a table for a further constraint is always of the right type, every live
constraint has its function and its set, and the counters fit into 64 bits. -/
theorem reachable_consistent (reachable : s.Reachable) :
    s.Invariant ∧
      (∀ t row, (s.addConstraint? t row).isSome) ∧
      (∀ t (c : ConstraintIndex t), s.isLive (.constraint c.erase) →
        ∃ function set, s.readConstraint .function c = .ok function ∧
          s.readConstraint .set c = .ok set) ∧
      s.nextVariable < 2 ^ 64 ∧ s.nextConstraint < 2 ^ 64 := by
  have valid := reachable.invariant
  refine ⟨valid, ?_, ?_, reachable.counters⟩
  · intro t row
    obtain ⟨rows, -, added⟩ := valid.typed.addConstraint? t row
    exact Option.isSome_of_mem added
  · intro t c live
    have known : c.erase ∈ s.constraintRecords.keys := OrderedMap.contains_iff.mp live
    obtain ⟨record, found⟩ := OrderedMap.mem_keys_iff.mp known
    obtain ⟨forFunction, functionRow⟩ := valid.row .function known
    obtain ⟨forSet, setRow⟩ := valid.row .set known
    refine ⟨forFunction.function, forSet.set, ?_, ?_⟩
    · simp [readConstraint, found, functionRow, Except.map]
    · simp [readConstraint, found, setRow, Except.map]

theorem shortRun_consistent :
    (Store.run .zero empty shortRun).Reachable ∧
      (Store.run .zero empty shortRun).isLive (.constraint ⟨upperBound, 3⟩) ∧
      ∃ function set,
        (Store.run .zero empty shortRun).readConstraint .function
          (⟨3⟩ : ConstraintIndex upperBound) = .ok function ∧
        (Store.run .zero empty shortRun).readConstraint .set
          (⟨3⟩ : ConstraintIndex upperBound) = .ok set := by
  obtain ⟨-, -, stored, -, -⟩ := reachable_consistent shortRun_reachable
  have live : (Store.run .zero empty shortRun).isLive (.constraint ⟨upperBound, 3⟩) := by decide
  exact ⟨shortRun_reachable, live, stored upperBound ⟨3⟩ live⟩

end SolverProtocol.Store
