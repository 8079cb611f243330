import SolverProtocol.Proofs.Store.Apart
import SolverProtocol.Proofs.Store.Bulk
import SolverProtocol.Proofs.Store.Refusal

namespace SolverProtocol.Store

open Number

variable {s after : Store} {tolerance : Binary64} {i : AnyIndex}

/-- Every read, every lookup by name and every predicate gives the same for both stores. -/
structure Indistinguishable (B : Backend Store) (s after : Store) : Prop where
  get : ∀ a, (B.get after a).1 = (B.get s a).1
  getAt : SameReadsAt B s after
  getMany : ∀ k (a : IndexedAttribute k) indices,
    (B.getMany after a indices).1 = (B.getMany s a indices).1
  getInto : ∀ k (a : IndexedAttribute k) output indices,
    (B.getInto after a output indices).1 = (B.getInto s a output indices).1 ∧
      (B.getInto after a output indices).2.1 = (B.getInto s a output indices).2.1
  lookups : SameLookups B s after
  supports : B.supports after = B.supports s
  supportsFor : B.supportsFor after = B.supportsFor s
  canGet : B.canGet after = B.canGet s
  canGetFor : B.canGetFor after = B.canGetFor s
  canSet : B.canSet after = B.canSet s
  canSetFor : B.canSetFor after = B.canSetFor s
  hasNamed : B.hasNamed after = B.hasNamed s

private theorem getInto_congr {B : Backend Store} {k : IndexKind} {a : IndexedAttribute k}
    {indices : List k.Index} (same : (B.getMany after a indices).1 = (B.getMany s a indices).1)
    (output : List a.Value) :
    (B.getInto after a output indices).1 = (B.getInto s a output indices).1 ∧
      (B.getInto after a output indices).2.1 = (B.getInto s a output indices).2.1 := by
  unfold Backend.getInto
  split
  · exact ⟨rfl, rfl⟩
  · rcases found : B.getMany s a indices with ⟨read, last⟩
    rcases foundAfter : B.getMany after a indices with ⟨readAfter, lastAfter⟩
    rw [found, foundAfter] at same
    subst same
    cases readAfter <;> exact ⟨rfl, rfl⟩

private theorem canSet_congr (count : after.results.length = s.results.length) :
    after.canSet = s.canSet := by
  funext a
  rcases a with (p | a) | a | a
  · rfl
  · cases a <;> first | rfl | exact hasResult_congr count _
  · rfl
  · rfl

private theorem canSetFor_congr (count : after.results.length = s.results.length) :
    after.canSetFor = s.canSetFor := by
  funext a k
  rcases a with g | a | a
  · rfl
  · cases k <;> cases a <;> first | rfl | exact hasResult_congr count _
  · cases k <;> cases a <;> first | rfl | exact hasResult_congr count _

private theorem canGet_congr (read : ∀ a, after.readGlobal tolerance a = s.readGlobal tolerance a) :
    after.canGet tolerance = s.canGet tolerance := by
  funext a
  rcases a with g | a | a
  · rw [← isOk_readGlobal, ← isOk_readGlobal, read]
  · rfl
  · rfl

theorem Invariant.canGetFor_congr (valid : s.Invariant) (validAfter : after.Invariant)
    (live : ∀ j, after.isLive j = s.isLive j)
    (read : ∀ p : Place, after.readIndexed p.attr p.index = s.readIndexed p.attr p.index) :
    after.canGetFor = s.canGetFor := by
  have own {k : IndexKind} (a : IndexedAttribute k) :
      after.canGetFor a.toAttribute k = s.canGetFor a.toAttribute k := by
    rw [Bool.eq_iff_iff, validAfter.canGetFor_iff, valid.canGetFor_iff]
    simp only [live, fun index => read ⟨k, a, index⟩]
  funext a k
  rcases a with g | a | a
  · rfl
  · cases k with
    | var => exact own (k := .var) a
    | constraint t => rfl
  · cases k with
    | var => rfl
    | constraint t => exact own (k := .constraint t) a

private theorem hasNamed_congr
    (ofVariables : ∀ n, after.variableNames.find? n = s.variableNames.find? n)
    (ofConstraints : ∀ n, after.constraintNames.find? n = s.constraintNames.find? n) :
    after.hasNamed = s.hasNamed := by
  funext target n
  rw [hasNamed_eq, hasNamed_eq]
  cases target <;> simp only [indexNamed.found, ofVariables, ofConstraints]

private theorem nameAt?_of_missing (missing : s.isLive i = false) : s.nameAt? i = none := by
  cases i with
  | var x =>
    have unknown : s.variableRecords.find? x = none := by
      simpa [isLive, OrderedMap.contains] using missing
    simp [nameAt?, nameOf?, unknown]
  | constraint c =>
    have unknown : s.constraintRecords.find? c = none := by
      simpa [isLive, OrderedMap.contains] using missing
    simp [nameAt?, nameOf?, unknown]

private theorem notNamed_of_missing (missing : s.isLive i = false) (n : String) : s.NotNamed i n :=
  .inr (by simp [nameAt?_of_missing missing])

theorem Invariant.readIndexed_of_missing (valid : s.Invariant) {p : Place}
    (missing : s.isLive p.target = false) :
    s.readIndexed p.attr p.index = .error (.indexNotFound p.target kind) := by
  rw [valid.readIndexed_eq, refusal?_of_missing missing]
  rfl

namespace SameApart

/-- Stores that are the same apart from an index live in neither cannot be told apart. -/
theorem indistinguishable (same : SameApart i s after) (valid : s.Invariant)
    (validAfter : after.Invariant) (missing : s.isLive i = false) (gone : after.isLive i = false)
    (tolerance : Binary64) : Indistinguishable (backend tolerance) s after := by
  have ofVariables := same.keys_variables fun _ _ => ⟨missing, gone⟩
  have ofConstraints := same.keys_constraints fun _ _ => ⟨missing, gone⟩
  have count := same.settings.length_results
  have live (j : AnyIndex) : after.isLive j = s.isLive j := by
    by_cases own : j = i
    · rw [own, missing, gone]
    · exact same.isLive own
  -- at the index itself both stores find nothing
  have readAt (p : Place) : after.readIndexed p.attr p.index = s.readIndexed p.attr p.index := by
    by_cases own : p.target = i
    · rw [valid.readIndexed_of_missing (own ▸ missing),
        validAfter.readIndexed_of_missing (own ▸ gone)]
    · exact same.readIndexed valid validAfter own
  have read (a : GlobalAttribute) :
      after.readGlobal tolerance a = s.readGlobal tolerance a := by
    cases a with
    | parameter p => exact same.settings.readParameter p
    | property a =>
      refine same.settings.readProperty_of_listed (fun _ => ofVariables)
        (fun _ => same.constraintTypes valid validAfter ofConstraints) fun t _ => ?_
      rw [validAfter.listed, valid.listed, ofConstraints]
  have unnamed := notNamed_of_missing missing
  have unnamedAfter := notNamed_of_missing gone
  have variableNames (n : String) :=
    same.find?_variableNames valid validAfter (unnamed n) (unnamedAfter n)
  have constraintNames (n : String) :=
    same.find?_constraintNames valid validAfter (unnamed n) (unnamedAfter n)
  have getMany (k : IndexKind) (a : IndexedAttribute k) (indices : List k.Index) :=
    getMany_congr tolerance count fun index (_ : index ∈ indices) => readAt ⟨k, a, index⟩
  exact {
    get := fun a => by rw [get_eq, get_eq, read]
    getAt := fun p => by rw [getAt_eq, getAt_eq, readAt]
    getMany
    getInto := fun k a output indices => getInto_congr (getMany k a indices) output
    lookups := .of_each fun n => sameLookupsOf tolerance (variableNames n) (constraintNames n)
    supports := rfl
    supportsFor := rfl
    canGet := canGet_congr read
    canGetFor := valid.canGetFor_congr validAfter live readAt
    canSet := canSet_congr count
    canSetFor := canSetFor_congr count
    hasNamed := hasNamed_congr variableNames constraintNames }

end SameApart

/-- The index is as if there had never been anything there. -/
structure LeavesNothing (B : Backend Store) (i : AnyIndex) (s after : Store) : Prop where
  same : Indistinguishable B s after
  gone : ∀ p : Place, p.target = i →
    (B.getAt after p.attr p.index).1 = .error (.indexNotFound i kind)

theorem SameApart.leavesNothing (same : SameApart i s after) (valid : s.Invariant)
    (validAfter : after.Invariant) (missing : s.isLive i = false) (gone : after.isLive i = false)
    (tolerance : Binary64) : LeavesNothing (backend tolerance) i s after := by
  refine ⟨same.indistinguishable valid validAfter missing gone tolerance, ?_⟩
  rintro p rfl
  rw [getAt_eq, validAfter.readIndexed_of_missing gone]

/-- Every read at other indices, and every read of the whole instance except for what lists or
counts the indices of the same kind, gives the same for both stores. -/
structure SameElsewhere (B : Backend Store) (i : AnyIndex) (s after : Store) : Prop where
  get : ∀ a : GlobalAttribute, ¬a.Lists i.kind → (B.get after a).1 = (B.get s a).1
  getAt : ∀ p : Place, p.target ≠ i →
    (B.getAt after p.attr p.index).1 = (B.getAt s p.attr p.index).1
  getMany : ∀ k (a : IndexedAttribute k) indices, (∀ index ∈ indices, k.erase index ≠ i) →
    (B.getMany after a indices).1 = (B.getMany s a indices).1

theorem SameApart.sameElsewhere (same : SameApart i s after) (valid : s.Invariant)
    (validAfter : after.Invariant) (tolerance : Binary64) :
    SameElsewhere (backend tolerance) i s after where
  get a unlisted := by rw [get_eq, get_eq, same.readGlobal valid validAfter unlisted]
  getAt p other := by rw [getAt_eq, getAt_eq, same.readIndexed valid validAfter other]
  getMany k a indices others := by
    refine getMany_congr tolerance same.settings.length_results fun index member => ?_
    exact same.readIndexed (p := ⟨k, a, index⟩) valid validAfter (others index member)

theorem SameApart.sameLookupsOf (same : SameApart i s after) (valid : s.Invariant)
    (validAfter : after.Invariant) {n : String} (before : s.NotNamed i n)
    (later : after.NotNamed i n) (tolerance : Binary64) :
    SameLookupsOf (backend tolerance) n s after :=
  Store.sameLookupsOf tolerance (same.find?_variableNames valid validAfter before later)
    (same.find?_constraintNames valid validAfter before later)

theorem Invariant.newVariable (valid : s.Invariant) : s.isLive (.var s.addVariable.1) = false :=
  variable_missing (OrderedMap.find?_eq_none_iff.mpr valid.nextVariable_fresh)

theorem Invariant.newConstraint (valid : s.Invariant) (t : ConstraintType)
    (row : ConstraintRow t) : s.isLive (.constraint (s.addConstraint t row).1.erase) = false := by
  obtain ⟨rows, -, added⟩ := valid.typed.addConstraint? t row
  simp only [Store.addConstraint, added, Option.getD_some]
  exact constraint_missing (OrderedMap.find?_eq_none_iff.mpr (valid.nextConstraint_fresh t))

private theorem addVariable_live (s : Store) :
    s.addVariable.2.isLive (.var s.addVariable.1) = true := by
  simp [Store.addVariable, isLive, OrderedMap.contains_iff, OrderedMap.mem_keys_insert]

private theorem Invariant.addConstraint_live (valid : s.Invariant) (t : ConstraintType)
    (row : ConstraintRow t) :
    (s.addConstraint t row).2.isLive (.constraint (s.addConstraint t row).1.erase) = true := by
  obtain ⟨rows, -, added⟩ := valid.typed.addConstraint? t row
  simp only [Store.addConstraint, added, Option.getD_some]
  simp [isLive, OrderedMap.contains_iff, OrderedMap.mem_keys_insert, ConstraintIndex.erase]

private theorem Invariant.addConstraint_sameNames (valid : s.Invariant) (t : ConstraintType)
    (row : ConstraintRow t) : SameNames s (s.addConstraint t row).2 := by
  obtain ⟨rows, -, added⟩ := valid.typed.addConstraint? t row
  simp only [Store.addConstraint, added, Option.getD_some]
  exact ⟨rfl, rfl⟩

private theorem deleteVariable_done {x : VariableIndex}
    (done : (Change.deleteVariable x).outcome s = (.ok (), after)) :
    s.deleteVariable x = .ok after :=
  settleChange_ok ((Change.outcome_deleteVariable s x).symm.trans done)

private theorem deleteConstraint_done {t : ConstraintType} {c : ConstraintIndex t}
    (done : (Change.deleteConstraint c).outcome s = (.ok (), after)) :
    s.deleteConstraint c = .ok after :=
  settleChange_ok ((Change.outcome_deleteConstraint s c).symm.trans done)

/-- What is live can be deleted. -/
private theorem deleteVariable_of_live {x : VariableIndex} (live : s.isLive (.var x) = true) :
    ∃ after, (Change.deleteVariable x).outcome s = (.ok (), after) :=
  ⟨_, Prod.ext ((deleteVariable_fst x).trans (if_pos live)) rfl⟩

private theorem deleteConstraint_of_live {t : ConstraintType} {c : ConstraintIndex t}
    (live : s.isLive (.constraint c.erase) = true) :
    ∃ after, (Change.deleteConstraint c).outcome s = (.ok (), after) :=
  ⟨_, Prod.ext ((deleteConstraint_fst c).trans (if_pos live)) rfl⟩

theorem deleteVariable_gone {x : VariableIndex} (deleted : s.deleteVariable x = .ok after) :
    after.isLive (.var x) = false := by
  obtain ⟨record, -, rfl⟩ := deleteVariable_ok deleted
  simp [isLive, OrderedMap.contains, OrderedMap.find?_erase]

theorem deleteConstraint_gone {t : ConstraintType} {c : ConstraintIndex t}
    (deleted : s.deleteConstraint c = .ok after) : after.isLive (.constraint c.erase) = false := by
  obtain ⟨record, -, rfl⟩ := deleteConstraint_ok deleted
  simp [isLive, OrderedMap.contains, OrderedMap.find?_erase]

/-- Values of any attributes stored at one index, in turn. -/
def setsAt {k : IndexKind} (index : k.Index) (writes : List ((a : IndexedAttribute k) × a.Value)) :
    List Operation :=
  writes.map fun write => .setAt write.1 index write.2

variable {k : IndexKind} (index : k.Index) (writes : List ((a : IndexedAttribute k) × a.Value))

theorem setsAt_preserves {P : Store → Prop}
    (step : ∀ s (a : IndexedAttribute k) v, P s → P ((backend tolerance).setAt s a index v).2)
    (start : P s) : P (run tolerance s (setsAt index writes)) := by
  induction writes generalizing s with
  | nil => exact start
  | cons write rest ih =>
    have first := step s write.1 write.2 start
    simpa only [setsAt, List.map_cons, run, perform, handsOutNone_snd] using ih first

theorem setsAt_writes (tolerance : Binary64) (s : Store) :
    Writes s (run tolerance s (setsAt index writes)) :=
  setsAt_preserves index writes (fun _ a v before => before.trans (setAt_writes _ a index v)) .refl

theorem setsAt_sameApart (tolerance : Binary64) (s : Store) :
    SameApart (k.erase index) s (run tolerance s (setsAt index writes)) :=
  setsAt_preserves index writes
    (fun _ a v before => before.trans (setAt_sameApart _ _ a index v)) (.refl _ s)

theorem setsAt_isLive (tolerance : Binary64) (s : Store) (j : AnyIndex) :
    (run tolerance s (setsAt index writes)).isLive j = s.isLive j :=
  (setsAt_writes index writes tolerance s).sameListings.isLive j

/-- Adding and deleting concern what is added or deleted, and nothing else. -/
structure ChangesAreLocal (B : Backend Store) (s : Store) : Prop where
  newVariable : s.isLive (.var s.addVariable.1) = false
  addVariable : SameElsewhere B (.var s.addVariable.1) s s.addVariable.2 ∧
    SameLookups B s s.addVariable.2
  newConstraint : ∀ t row, s.isLive (.constraint (s.addConstraint t row).1.erase) = false
  addConstraint : ∀ t row,
    SameElsewhere B (.constraint (s.addConstraint t row).1.erase) s (s.addConstraint t row).2 ∧
      SameLookups B s (s.addConstraint t row).2
  deleteVariable : ∀ x after, (Change.deleteVariable x).outcome s = (.ok (), after) →
    SameElsewhere B (.var x) s after ∧
      ∀ n, n = "" ∨ nameOfVariable B s x ≠ .ok n → SameLookupsOf B n s after
  deleteConstraint : ∀ t (c : ConstraintIndex t) after,
    (Change.deleteConstraint c).outcome s = (.ok (), after) →
      SameElsewhere B (.constraint c.erase) s after ∧
        ∀ n, n = "" ∨ nameOfConstraint B s c.erase ≠ .ok n → SameLookupsOf B n s after
  /-- A new variable can be deleted again, whatever has been stored for it. -/
  transientVariable : ∀ other writes, ∃ after,
    (Change.deleteVariable s.addVariable.1).outcome
        (run other s.addVariable.2 (setsAt (k := .var) s.addVariable.1 writes)) =
      (.ok (), after) ∧ LeavesNothing B (.var s.addVariable.1) s after
  transientConstraint : ∀ t row other writes, ∃ after,
    (Change.deleteConstraint (s.addConstraint t row).1).outcome
        (run other (s.addConstraint t row).2
          (setsAt (k := .constraint t) (s.addConstraint t row).1 writes)) =
      (.ok (), after) ∧ LeavesNothing B (.constraint (s.addConstraint t row).1.erase) s after

theorem changes_are_local (reachable : s.Reachable) (tolerance : Binary64) :
    ChangesAreLocal (backend tolerance) s := by
  have valid := reachable.invariant
  constructor
  case newVariable => exact valid.newVariable
  case addVariable =>
    refine ⟨valid.addVariable_sameApart.sameElsewhere valid valid.addVariable tolerance, ?_⟩
    have named : SameNames s s.addVariable.2 := ⟨rfl, rfl⟩
    exact named.sameLookups tolerance
  case newConstraint => exact valid.newConstraint
  case addConstraint =>
    intro t row
    have apart := valid.addConstraint_sameApart t row
    refine ⟨apart.sameElsewhere valid (valid.addConstraint t row) tolerance, ?_⟩
    exact (valid.addConstraint_sameNames t row).sameLookups tolerance
  case deleteVariable =>
    intro x after done
    have deleted := deleteVariable_done done
    have apart := deleteVariable_sameApart deleted
    have validAfter := valid.deleteVariable deleted
    refine ⟨apart.sameElsewhere valid validAfter tolerance, fun n unheld => ?_⟩
    have before : s.NotNamed (.var x) n := unheld.imp_right (· ∘ nameOfVariable_eq_ok_iff.mpr)
    have later := notNamed_of_missing (deleteVariable_gone deleted) n
    exact apart.sameLookupsOf valid validAfter before later tolerance
  case deleteConstraint =>
    intro t c after done
    have deleted := deleteConstraint_done done
    have apart := valid.deleteConstraint_sameApart deleted
    have validAfter := valid.deleteConstraint deleted
    refine ⟨apart.sameElsewhere valid validAfter tolerance, fun n unheld => ?_⟩
    have before : s.NotNamed (.constraint c.erase) n :=
      unheld.imp_right (· ∘ nameOfConstraint_eq_ok_iff.mpr)
    have later := notNamed_of_missing (deleteConstraint_gone deleted) n
    exact apart.sameLookupsOf valid validAfter before later tolerance
  case transientVariable =>
    intro other writes
    have added := valid.addVariable_sameApart
    have stored := setsAt_sameApart (k := .var) s.addVariable.1 writes other s.addVariable.2
    have validStored := valid.addVariable.run other (setsAt (k := .var) s.addVariable.1 writes)
    obtain ⟨after, done⟩ := deleteVariable_of_live
      ((setsAt_isLive _ writes other _ _).trans (addVariable_live s))
    have deleted := deleteVariable_done done
    refine ⟨after, done, ?_⟩
    exact ((added.trans stored).trans (deleteVariable_sameApart deleted)).leavesNothing valid
      (validStored.deleteVariable deleted) valid.newVariable (deleteVariable_gone deleted) tolerance
  case transientConstraint =>
    intro t row other writes
    have added := valid.addConstraint_sameApart t row
    have stored := setsAt_sameApart (k := .constraint t) (s.addConstraint t row).1 writes other
      (s.addConstraint t row).2
    have validStored := (valid.addConstraint t row).run other
      (setsAt (k := .constraint t) (s.addConstraint t row).1 writes)
    obtain ⟨after, done⟩ := deleteConstraint_of_live
      ((setsAt_isLive _ writes other _ _).trans (valid.addConstraint_live t row))
    have deleted := deleteConstraint_done done
    refine ⟨after, done, ?_⟩
    have gone := deleteConstraint_gone deleted
    exact ((added.trans stored).trans
      (validStored.deleteConstraint_sameApart deleted)).leavesNothing valid
        (validStored.deleteConstraint deleted) (valid.newConstraint t row) gone tolerance

theorem shortRun_bound_comes_and_goes :
    let s := run .zero empty shortRun
    let c := (s.addConstraint upperBound (atMostZero 2)).1
    s.Reachable ∧ ∃ after,
      (Change.deleteConstraint c).outcome (run .zero (s.addConstraint upperBound (atMostZero 2)).2
          (setsAt (k := .constraint upperBound) c [⟨.name, "bound"⟩, ⟨.dual 1, Binary64.one⟩])) =
        (.ok (), after) ∧
      (backend .zero).constraintByName after "bound" =
        .error (.nameNotFound .anyConstraint "bound" kind) := by
  intro s c
  have changes := changes_are_local shortRun_reachable .zero
  obtain ⟨after, done, leaves⟩ := changes.transientConstraint upperBound (atMostZero 2) .zero
    [⟨.name, "bound"⟩, ⟨.dual 1, Binary64.one⟩]
  have unknown : (backend .zero).constraintByName s "bound" =
      .error (.nameNotFound .anyConstraint "bound" kind) := by
    rw [constraintByName_eq]
    rfl
  exact ⟨shortRun_reachable, after, done, (leaves.same.lookups.constraintByName _).trans unknown⟩

end SolverProtocol.Store
