import Mathlib.Data.List.Basic
import SolverProtocol.Proofs.Attribute.Indices
import SolverProtocol.Proofs.Store.Invariant

namespace SolverProtocol

namespace AnyIndex

def asVariable? : AnyIndex → Option VariableIndex
  | .var x => some x
  | .constraint _ => none

def asConstraint? : AnyIndex → Option AnyConstraintIndex
  | .var _ => none
  | .constraint c => some c

theorem asVariable?_eq_some_iff {i : AnyIndex} {x : VariableIndex} :
    i.asVariable? = some x ↔ i = .var x := by
  cases i <;> simp [asVariable?]

theorem asConstraint?_eq_some_iff {i : AnyIndex} {c : AnyConstraintIndex} :
    i.asConstraint? = some c ↔ i = .constraint c := by
  cases i <;> simp [asConstraint?]

def constraintType? : AnyIndex → Option ConstraintType
  | .var _ => none
  | .constraint c => some c.type

def rawValue : AnyIndex → Nat
  | .var x => x.value
  | .constraint c => c.value

/-- Two indices of one kind differ; those of constraints differ in their raw values, whatever the
types. -/
def Apart : AnyIndex → AnyIndex → Prop
  | .var x, .var y => x ≠ y
  | .constraint c, .constraint d => c.value ≠ d.value
  | _, _ => True

end AnyIndex

namespace Store

open Number

/-- The indices handed out in a run, in their order, and those deleted. -/
structure History where
  issued : List AnyIndex := []
  deleted : List AnyIndex := []

namespace History

/-- What has been handed out and not been deleted, in the order of the additions. -/
def present (history : History) : List AnyIndex :=
  history.issued.filter fun i => decide (i ∉ history.deleted)

/-- The types of the constraints added so far, by the first of each. -/
def types (history : History) : List ConstraintType :=
  (history.issued.filterMap AnyIndex.constraintType?).eraseDups

/-- The history after one more call. -/
def extend (history : History) (op : Operation) (returned : Returned) : History where
  issued := history.issued ++ handedOut returned
  deleted := history.deleted ++ op.deletes returned

/-- The history after a run that starts from a store. -/
def record (history : History) (tolerance : Binary64) (s : Store) : List Operation → History
  | [] => history
  | op :: ops =>
    (history.extend op (s.perform tolerance op).1).record tolerance (s.perform tolerance op).2 ops

variable {history : History}

private theorem deleted_record {i : AnyIndex} (deleted : i ∈ history.deleted) (tolerance : Binary64)
    (s : Store) (ops : List Operation) : i ∈ (history.record tolerance s ops).deleted := by
  induction ops generalizing history s with
  | nil => exact deleted
  | cons op ops ih => exact ih (List.mem_append_left _ deleted) (s.perform tolerance op).2

private theorem present_issue {i : AnyIndex} (fresh : i ∉ history.deleted) :
    present { history with issued := history.issued ++ [i] } = history.present ++ [i] := by
  simp [present, fresh]

private theorem present_delete (history : History) (i : AnyIndex) :
    present { history with deleted := history.deleted ++ [i] } =
      history.present.filter fun j => decide (j ≠ i) := by
  simp only [present, List.filter_filter]
  refine List.filter_congr fun j _ => ?_
  simp [not_or, Bool.and_comm]

/-- What is left of one kind when an index of any kind goes. -/
private theorem filterMap_delete {κ : Type} {select : AnyIndex → Option κ} {wrap : κ → AnyIndex}
    (selects : ∀ {j key}, select j = some key ↔ j = wrap key) (i : AnyIndex)
    (indices : List AnyIndex) :
    (indices.filter fun j => decide (j ≠ i)).filterMap select =
      (indices.filterMap select).filter fun key => decide (wrap key ≠ i) := by
  rw [List.filterMap_filter, List.filter_filterMap]
  refine List.filterMap_congr fun j _ => ?_
  cases selected : select j with
  | none => simp
  | some key =>
    rw [selects.mp selected, Option.filter_some]

private theorem types_issue_var (x : VariableIndex) :
    types { history with issued := history.issued ++ [.var x] } = history.types := by
  have none : [AnyIndex.var x].filterMap AnyIndex.constraintType? = [] := rfl
  simp [types, none]

private theorem eraseDups_concat {α : Type} [DecidableEq α] (items : List α) (last : α) :
    (items ++ [last]).eraseDups =
      if last ∈ items.eraseDups then items.eraseDups else items.eraseDups ++ [last] := by
  by_cases known : last ∈ items
  · simp [List.eraseDups_append, List.cons_removeAll, known]
  · simp [List.eraseDups_append, List.cons_removeAll, List.eraseDups_cons, known]

private theorem types_issue_constraint (c : AnyConstraintIndex) :
    types { history with issued := history.issued ++ [.constraint c] } =
      if c.type ∈ history.types then history.types else history.types ++ [c.type] := by
  have one : [AnyIndex.constraint c].filterMap AnyIndex.constraintType? = [c.type] := rfl
  rw [types, types, List.filterMap_append, one, eraseDups_concat]

end History

/-- The raw value of the index has been used. -/
def counted (s : Store) : AnyIndex → Prop
  | .var x => x.value < s.nextVariable
  | .constraint c => c.value < s.nextConstraint

theorem SameListings.counted {s after : Store} (same : SameListings s after) {i : AnyIndex}
    (counted : s.counted i) : after.counted i := by
  cases i with
  | var x => exact Nat.lt_of_lt_of_eq counted same.nextVariable.symm
  | constraint c => exact Nat.lt_of_lt_of_eq counted same.nextConstraint.symm

theorem Invariant.counted_of_live {s : Store} (valid : s.Invariant) {i : AnyIndex}
    (live : s.isLive i = true) : s.counted i := by
  cases i with
  | var x =>
    have known := OrderedMap.contains_iff.mp live
    exact valid.ofVariables.below _ (List.mem_map_of_mem known)
  | constraint c =>
    have known := OrderedMap.contains_iff.mp live
    exact valid.ofConstraints.below _ (List.mem_map_of_mem known)

/-- The maps of a store hold what a history leaves. -/
structure Reflects (history : History) (s : Store) : Prop where
  valid : s.Invariant
  apart : history.issued.Pairwise AnyIndex.Apart
  counted : ∀ i ∈ history.issued, s.counted i
  known : ∀ i ∈ history.deleted, i ∈ history.issued
  ofVariables : s.variableRecords.keys = history.present.filterMap AnyIndex.asVariable?
  ofConstraints : s.constraintRecords.keys = history.present.filterMap AnyIndex.asConstraint?
  types : s.tables.keys = history.types

variable {s after : Store} {history : History} {op : Operation} {returned : Returned}

theorem Reflects.empty : Reflects {} .empty where
  valid := .empty
  apart := .nil
  counted i member := by cases member
  known i member := by cases member
  ofVariables := rfl
  ofConstraints := rfl
  types := rfl

private theorem Reflects.fresh (reflects : Reflects history s) {i : AnyIndex} (new : ¬s.counted i) :
    i ∉ history.deleted := fun deleted =>
  new (reflects.counted i (reflects.known i deleted))

theorem Reflects.mem_variables_iff (reflects : Reflects history s) {x : VariableIndex} :
    x ∈ s.variableRecords.keys ↔ .var x ∈ history.present := by
  simp [reflects.ofVariables, List.mem_filterMap, AnyIndex.asVariable?_eq_some_iff]

theorem Reflects.mem_constraints_iff (reflects : Reflects history s) {c : AnyConstraintIndex} :
    c ∈ s.constraintRecords.keys ↔ .constraint c ∈ history.present := by
  simp [reflects.ofConstraints, List.mem_filterMap, AnyIndex.asConstraint?_eq_some_iff]

/-- A store follows an addition if it counts on and appends the new index. -/
theorem Reflects.issue (reflects : Reflects history s) {i : AnyIndex} (valid : after.Invariant)
    (new : ¬s.counted i) (apart : ∀ j, s.counted j → j.Apart i)
    (counts : ∀ j, s.counted j → after.counted j) (last : after.counted i)
    (ofVariables : after.variableRecords.keys =
      s.variableRecords.keys ++ [i].filterMap AnyIndex.asVariable?)
    (ofConstraints : after.constraintRecords.keys =
      s.constraintRecords.keys ++ [i].filterMap AnyIndex.asConstraint?)
    (types : after.tables.keys = { history with issued := history.issued ++ [i] }.types) :
    Reflects { history with issued := history.issued ++ [i] } after := by
  have present := History.present_issue (reflects.fresh new)
  refine ⟨valid, ?_, ?_, ?_, ?_, ?_, types⟩
  · refine List.pairwise_append.mpr ⟨reflects.apart, List.pairwise_singleton .., ?_⟩
    intro j member other same
    rw [List.mem_singleton.mp same]
    exact apart j (reflects.counted j member)
  · intro j member
    rcases List.mem_append.mp member with old | same
    · exact counts j (reflects.counted j old)
    · rw [List.mem_singleton.mp same]
      exact last
  · intro j deleted
    exact List.mem_append_left _ (reflects.known j deleted)
  · rw [present, List.filterMap_append, ← reflects.ofVariables, ofVariables]
  · rw [present, List.filterMap_append, ← reflects.ofConstraints, ofConstraints]

theorem Reflects.addVariable (reflects : Reflects history s) :
    Reflects { history with issued := history.issued ++ [.var s.addVariable.1] }
      s.addVariable.2 := by
  have new : ¬s.counted (.var s.addVariable.1) := Nat.lt_irrefl _
  apply reflects.issue reflects.valid.addVariable new
  case apart =>
    rintro (x | c) below
    · rintro rfl
      exact new below
    · trivial
  case counts =>
    rintro (x | c) below
    · exact Nat.lt_succ_of_lt below
    · exact below
  case last => exact Nat.lt_succ_self _
  case ofVariables =>
    exact OrderedMap.keys_insert_of_not_mem _ reflects.valid.nextVariable_fresh
  case ofConstraints => exact (List.append_nil _).symm
  case types =>
    rw [History.types_issue_var]
    exact reflects.types

theorem Reflects.addVariables (reflects : Reflects history s) (count : Nat) :
    Reflects { history with issued := history.issued ++ (s.addVariables count).1.map .var }
      (s.addVariables count).2 := by
  induction count generalizing s history with
  | zero => simpa [Store.addVariables] using reflects
  | succ count ih => simpa [Store.addVariables] using ih reflects.addVariable

theorem Reflects.addConstraint (reflects : Reflects history s) (t : ConstraintType)
    (row : ConstraintRow t) :
    Reflects
      { history with issued := history.issued ++ [.constraint (s.addConstraint t row).1.erase] }
      (s.addConstraint t row).2 := by
  obtain ⟨rows, -, added⟩ := reflects.valid.typed.addConstraint? t row
  have valid := reflects.valid.addConstraint t row
  simp only [Store.addConstraint, added, Option.getD_some, ConstraintIndex.erase] at valid ⊢
  have new : ¬s.counted (.constraint ⟨t, s.nextConstraint⟩) := Nat.lt_irrefl _
  apply reflects.issue valid new
  case apart =>
    rintro (x | c) below
    · trivial
    · exact Nat.ne_of_lt below
  case counts =>
    rintro (x | c) below
    · exact below
    · exact Nat.lt_succ_of_lt below
  case last => exact Nat.lt_succ_self _
  case ofVariables => exact (List.append_nil _).symm
  case ofConstraints =>
    exact OrderedMap.keys_insert_of_not_mem _ (reflects.valid.nextConstraint_fresh t)
  case types =>
    rw [History.types_issue_constraint, ← reflects.types]
    exact OrderedMap.keys_insert ..

/-- A store follows a deletion if it goes on without the index and keeps its tables. -/
theorem Reflects.delete (reflects : Reflects history s) {i : AnyIndex} (valid : after.Invariant)
    (live : i ∈ history.present) (counts : ∀ j, s.counted j → after.counted j)
    (ofVariables : after.variableRecords.keys =
      s.variableRecords.keys.filter fun x => decide (.var x ≠ i))
    (ofConstraints : after.constraintRecords.keys =
      s.constraintRecords.keys.filter fun c => decide (.constraint c ≠ i))
    (types : after.tables.keys = s.tables.keys) :
    Reflects { history with deleted := history.deleted ++ [i] } after := by
  have present := history.present_delete i
  refine ⟨valid, reflects.apart, ?_, ?_, ?_, ?_, types.trans reflects.types⟩
  · intro j member
    exact counts j (reflects.counted j member)
  · intro j member
    rcases List.mem_append.mp member with old | same
    · exact reflects.known j old
    · rw [List.mem_singleton.mp same]
      exact (List.mem_filter.mp live).1
  · rw [present, History.filterMap_delete AnyIndex.asVariable?_eq_some_iff, ← reflects.ofVariables,
      ofVariables]
  · rw [present, History.filterMap_delete AnyIndex.asConstraint?_eq_some_iff,
      ← reflects.ofConstraints, ofConstraints]

theorem Reflects.deleteVariable (reflects : Reflects history s) {x : VariableIndex}
    (deleted : s.deleteVariable x = .ok after) :
    Reflects { history with deleted := history.deleted ++ [.var x] } after := by
  have valid := reflects.valid.deleteVariable deleted
  obtain ⟨record, found, rfl⟩ := deleteVariable_ok deleted
  have live := reflects.mem_variables_iff.mp (OrderedMap.mem_keys_of_find? found)
  apply reflects.delete valid live
  case counts =>
    rintro (y | c) below <;> exact below
  case ofVariables => simp [OrderedMap.keys_erase]
  case ofConstraints => simp
  case types => rfl

theorem Reflects.deleteConstraint (reflects : Reflects history s) {t : ConstraintType}
    {c : ConstraintIndex t} (deleted : s.deleteConstraint c = .ok after) :
    Reflects { history with deleted := history.deleted ++ [.constraint c.erase] } after := by
  have valid := reflects.valid.deleteConstraint deleted
  obtain ⟨record, found, rfl⟩ := deleteConstraint_ok deleted
  have live := reflects.mem_constraints_iff.mp (OrderedMap.mem_keys_of_find? found)
  apply reflects.delete valid live
  case counts =>
    rintro (x | d) below <;> exact below
  case ofVariables => simp
  case ofConstraints => simp [OrderedMap.keys_erase]
  case types =>
    cases table : s.tables.find? t with
    | none => rfl
    | some rows => exact OrderedMap.keys_insert_of_mem _ (OrderedMap.mem_keys_of_find? table)

theorem Reflects.writes (reflects : Reflects history s) (writes : Writes s after) :
    Reflects history after := by
  have same := writes.sameListings
  refine ⟨writes.invariant reflects.valid, reflects.apart, ?_, reflects.known, ?_, ?_, ?_⟩
  · exact fun i member => same.counted (reflects.counted i member)
  · rw [same.ofVariables, reflects.ofVariables]
  · rw [same.ofConstraints, reflects.ofConstraints]
  · rw [same.types, reflects.types]

theorem Effect.reflects (effect : Effect s op returned after) (reflects : Reflects history s) :
    Reflects (history.extend op returned) after := by
  cases effect with
  | addVariable => simpa [History.extend, handedOut, Operation.deletes] using reflects.addVariable
  | addVariables count =>
    simpa [History.extend, handedOut, Operation.deletes] using reflects.addVariables count
  | addConstraint t row =>
    simpa [History.extend, handedOut, Operation.deletes] using reflects.addConstraint t row
  | deleteVariable deleted =>
    simpa [History.extend, handedOut, Operation.deletes] using reflects.deleteVariable deleted
  | deleteConstraint deleted =>
    simpa [History.extend, handedOut, Operation.deletes] using reflects.deleteConstraint deleted
  | store writes addsNone deletesNone =>
    simpa [History.extend, addsNone, deletesNone] using reflects.writes writes

theorem Reflects.run (reflects : Reflects history s) (tolerance : Binary64)
    (ops : List Operation) :
    Reflects (history.record tolerance s ops) (Store.run tolerance s ops) := by
  induction ops generalizing history s with
  | nil => exact reflects
  | cons op ops ih => exact ih ((perform_effect tolerance s op).reflects reflects)

theorem Reachable.reflects (reachable : s.Reachable) : ∃ history, Reflects history s := by
  obtain ⟨tolerance, ops, -, rfl⟩ := reachable
  exact ⟨_, Reflects.empty.run tolerance ops⟩

/-- A type is listed while there is a constraint of it. -/
theorem Invariant.constraintTypes_eq (valid : s.Invariant) :
    s.constraintTypes = s.tables.keys.filter fun t =>
      s.constraintRecords.keys.any fun c => decide (c.type = t) := by
  have typed : ∀ entry ∈ s.tables.entries, entry.2.type = entry.1 := fun entry member =>
    valid.typed entry.1 entry.2 (OrderedMap.find?_eq_some_iff.mpr member)
  have nonempty : ∀ entry ∈ s.tables.entries, (!entry.2.rows.isEmpty) =
      s.constraintRecords.keys.any fun c => decide (c.type = entry.1) := by
    intro entry member
    have listed := valid.listed entry.1
    simp only [indicesUnder, OrderedMap.find?_eq_some_iff.mpr member, Option.map_some,
      Option.getD_some] at listed
    -- a table has rows if it lists something, and it lists the live constraints of its type
    rw [← AnyTable.isEmpty_indices, listed, Bool.eq_iff_iff]
    simp
  have kept : s.constraintTypes = (s.tables.entries.filter fun entry =>
      s.constraintRecords.keys.any fun c => decide (c.type = entry.1)).map Prod.fst := by
    rw [constraintTypes, List.filter_congr nonempty]
    exact List.map_congr_left fun entry member => typed entry (List.mem_filter.mp member).1
  change s.constraintTypes = (s.tables.entries.map Prod.fst).filter _
  rw [kept, List.filter_map]
  rfl

/-- What a store answers about its listings is what the history says. -/
structure ListingsMatch (B : Backend Store) (history : History) (s : Store) : Prop where
  live : ∀ i, s.isLive i = true ↔ i ∈ history.present
  listOfVariableIndices : (B.get s (.property .listOfVariableIndices)).1 =
    .ok (history.present.filterMap AnyIndex.asVariable?)
  numberOfVariables : (B.get s (.property .numberOfVariables)).1 =
    .ok (history.present.filterMap AnyIndex.asVariable?).length
  listOfConstraintIndices : ∀ t, (B.get s (.property (.listOfConstraintIndices t))).1 =
    .ok ((history.present.filterMap AnyIndex.asConstraint?).filterMap (·.as? t))
  numberOfConstraints : ∀ t, (B.get s (.property (.numberOfConstraints t))).1 =
    .ok ((history.present.filterMap AnyIndex.asConstraint?).filterMap (·.as? t)).length
  /-- The types of what is present, in the order in which each was first added. -/
  listOfConstraints : (B.get s (.property .listOfConstraints)).1 =
    .ok (history.types.filter fun t =>
      (history.present.filterMap AnyIndex.asConstraint?).any fun c => decide (c.type = t))

theorem Reflects.listingsMatch (reflects : Reflects history s) (tolerance : Binary64) :
    ListingsMatch (backend tolerance) history s := by
  have valid := reflects.valid
  constructor
  case live =>
    rintro (x | c)
    · rw [isLive, OrderedMap.contains_iff, reflects.mem_variables_iff]
    · rw [isLive, OrderedMap.contains_iff, reflects.mem_constraints_iff]
  case listOfVariableIndices =>
    rw [get_eq, ← reflects.ofVariables]
    rfl
  case numberOfVariables =>
    rw [get_eq, ← reflects.ofVariables, OrderedMap.length_keys]
    rfl
  case listOfConstraintIndices =>
    intro t
    rw [get_eq, ← reflects.ofConstraints, ← filterMap_as?_ofType, ← valid.listed t]
    rfl
  case numberOfConstraints =>
    intro t
    rw [get_eq, ← reflects.ofConstraints, ← filterMap_as?_ofType, ← valid.listed t,
      length_filterMap_as?]
    rfl
  case listOfConstraints =>
    rw [get_eq, ← reflects.ofConstraints, ← reflects.types, ← valid.constraintTypes_eq]
    rfl

/-- What has been deleted never comes back. -/
theorem Reflects.gone (reflects : Reflects history s) {i : AnyIndex}
    (deleted : i ∈ history.deleted) (tolerance : Binary64) (more : List Operation) :
    (Store.run tolerance s more).isLive i = false := by
  have live := ((reflects.run tolerance more).listingsMatch tolerance).live i
  rw [Bool.eq_false_iff, ne_eq, live]
  intro present
  have kept := of_decide_eq_true (List.mem_filter.mp present).2
  exact kept (History.deleted_record deleted tolerance s more)

private theorem History.extend_idle {tolerance : Binary64}
    (idle : op.addsOrDeletes = false ∨ ∃ e, (s.perform tolerance op).1 = .error e) :
    history.extend op (s.perform tolerance op).1 = history := by
  have unextended {returned : Returned} (addsNone : handedOut returned = [])
      (deletesNone : op.deletes returned = []) : history.extend op returned = history := by
    simp [History.extend, addsNone, deletesNone]
  rcases idle with storing | ⟨e, failed⟩
  · cases op with
    | set | setAt | setMany => exact unextended (handedOut_handsOutNone _) rfl
    | _ => cases storing
  · rw [failed]
    refine unextended rfl ?_
    cases op <;> rfl

/-- What holds of a store after a run with the history. -/
structure FollowsHistory (tolerance : Binary64) (history : History) (s : Store) : Prop where
  apart : history.issued.Pairwise AnyIndex.Apart
  fits : ∀ i ∈ history.issued, i.rawValue < 2 ^ 64
  listings : ListingsMatch (backend tolerance) history s
  gone : ∀ i ∈ history.deleted, ∀ more, (Store.run tolerance s more).isLive i = false
  /-- Neither storing values nor failing changes what is listed. -/
  idle : ∀ op, (op.addsOrDeletes = false ∨ ∃ e, (s.perform tolerance op).1 = .error e) →
    ListingsMatch (backend tolerance) history (s.perform tolerance op).2
  get : ∀ a, ((backend tolerance).get s a).2 = s
  getAt : ∀ {k : IndexKind} (a : IndexedAttribute k) index,
    ((backend tolerance).getAt s a index).2 = s
  getMany : ∀ {k : IndexKind} (a : IndexedAttribute k) indices,
    ((backend tolerance).getMany s a indices).2 = s

theorem run_follows_history (tolerance : Binary64) (ops : List Operation)
    (within : WithinLimits ops) :
    FollowsHistory tolerance (History.record {} tolerance empty ops)
      (Store.run tolerance empty ops) := by
  -- everything is read off from the simulation, which starts with nothing handed out
  have reflects := Reflects.empty.run tolerance ops
  constructor
  case apart => exact reflects.apart
  case fits =>
    intro i issued
    obtain ⟨ofVariables, ofConstraints⟩ := Reachable.counters ⟨tolerance, ops, within, rfl⟩
    have below := reflects.counted i issued
    cases i with
    | var x => exact Nat.lt_trans below ofVariables
    | constraint c => exact Nat.lt_trans below ofConstraints
  case listings => exact reflects.listingsMatch tolerance
  case gone =>
    intro i deleted more
    exact reflects.gone deleted tolerance more
  case idle =>
    intro op idle
    have stays := (perform_effect tolerance _ op).reflects reflects
    rw [History.extend_idle idle] at stays
    exact stays.listingsMatch tolerance
  case get =>
    intro a
    rw [get_eq]
  case getAt =>
    intro k a index
    rw [getAt_eq]
  case getMany =>
    intro k a indices
    exact getMany_snd tolerance _ a indices

/-- The upper bounds keep their place, though the one that is left came last. -/
theorem shortRun_listing :
    WithinLimits shortRun ∧
      ((backend .zero).get (Store.run .zero empty shortRun) (.property .listOfVariableIndices)).1 =
        .ok [(⟨2⟩ : VariableIndex)] ∧
      ((backend .zero).get (Store.run .zero empty shortRun) (.property .listOfConstraints)).1 =
        .ok [upperBound, lowerBound] := by
  have within : WithinLimits shortRun := ⟨by decide, by decide⟩
  have listings := (run_follows_history .zero shortRun within).listings
  exact ⟨within, listings.listOfVariableIndices, listings.listOfConstraints⟩

end Store

end SolverProtocol
