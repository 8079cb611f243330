import SolverProtocol.Proofs.Store.History
import SolverProtocol.Proofs.Store.Stores

namespace SolverProtocol

open Number

/-- A global attribute that is not derived from other values and from which none is derived: neither
the number of results nor the objective, which is read as a function of any type. -/
def GlobalAttribute.Plain : GlobalAttribute → Prop
  | .property .resultCount | .property (.objectiveFunction _) => False
  | _ => True

/-- The attribute asks for the objective. -/
def GlobalAttribute.IsObjective : GlobalAttribute → Prop
  | .property (.objectiveFunction _) => True
  | _ => False

namespace Store

variable {s after : Store} {tolerance : Binary64}

theorem set_ok {a : GlobalAttribute} {v : a.Value}
    (done : (backend tolerance).set s a v = (.ok (), after)) : s.writeGlobal a v = .ok after :=
  settleChange_ok ((set_eq tolerance s a v).symm.trans done)

theorem setAt_ok {k : IndexKind} {a : IndexedAttribute k} {index : k.Index} {v : a.Value}
    (done : (backend tolerance).setAt s a index v = (.ok (), after)) :
    s.writeIndexed a index v = .ok after :=
  settleChange_ok ((setAt_eq tolerance s a index v).symm.trans done)

theorem SameListings.isLive (same : SameListings s after) (i : AnyIndex) :
    after.isLive i = s.isLive i := by
  cases i with
  | var x => simp only [Store.isLive, OrderedMap.contains_eq, same.ofVariables]
  | constraint c => simp only [Store.isLive, OrderedMap.contains_eq, same.ofConstraints]

theorem SameSettings.length_results (same : SameSettings s after) :
    after.results.length = s.results.length := by
  simpa using congrArg List.length same.summaries

theorem hasResult_congr (count : after.results.length = s.results.length) (r : Nat) :
    after.hasResult r = s.hasResult r := by
  rw [Bool.eq_iff_iff, hasResult_iff, hasResult_iff, count]

theorem refusal?_congr {i : AnyIndex} (live : after.isLive i = s.isLive i)
    (count : after.results.length = s.results.length) (a : Attribute) :
    after.refusal? a i = s.refusal? a i := by
  simp only [refusal?, resultRefusal?, live, hasResult_congr count, count]

/-- What is read at a place is a matter of what is live, the number of results and what is kept. -/
theorem SameListings.readIndexed (same : SameListings s after)
    (count : after.results.length = s.results.length) (valid : s.Invariant)
    (validAfter : after.Invariant) {p : Place} (kept : after.kept? p = s.kept? p) :
    after.readIndexed p.attr p.index = s.readIndexed p.attr p.index := by
  rw [validAfter.readIndexed_eq, valid.readIndexed_eq, refusal?_congr (same.isLive _) count, kept]

private theorem SameSettings.summary (same : SameSettings s after) (r : Nat) :
    (after.result? r).map ResultRecord.summary = (s.result? r).map ResultRecord.summary := by
  cases r with
  | zero => rfl
  | succ position => simpa [result?] using congrArg (·[position]?) same.summaries

theorem SameSettings.readResult (same : SameSettings s after) {α : Type} (a : Attribute) (r : Nat)
    (part : Option Binary64 × Option ResultStatus × Option ResultStatus → Option α) :
    after.readResult a r (fun result => part result.summary) =
      s.readResult a r fun result => part result.summary := by
  have found := congrArg (Option.bind · part) (same.summary r)
  simp only [Option.bind_map] at found
  rw [readResult_eq, readResult_eq, hasResult_congr same.length_results, same.length_results]
  exact congrArg (answered a · _) found

theorem SameSettings.readParameter (settings : SameSettings s after) (p : SolverParameter) :
    after.readParameter p = s.readParameter p := by
  cases p <;> simp only [Store.readParameter, settings.parameters]

/-- What is read of the whole instance is a matter of settings, apart from what is listed. -/
theorem SameSettings.readProperty_of_listed (settings : SameSettings s after)
    {a : InstanceAttribute}
    (ofVariables : a = .numberOfVariables ∨ a = .listOfVariableIndices →
      after.variableRecords.keys = s.variableRecords.keys)
    (types : a = .listOfConstraints → after.constraintTypes = s.constraintTypes)
    (indices : ∀ t, a = .listOfConstraintIndices t ∨ a = .numberOfConstraints t →
      after.indicesUnder t = s.indicesUnder t) :
    after.readProperty tolerance a = s.readProperty tolerance a := by
  cases a with
  | name | objectiveSense | objectiveFunction | terminationStatus | objectiveBound | relativeGap
  | solveTime | simplexIterations | barrierIterations | nodeCount | resultCount =>
    simp only [Store.readProperty, settings.name, settings.sense, settings.objective,
      settings.statistics, settings.length_results] <;> rfl
  | numberOfVariables | listOfVariableIndices =>
    have listed := ofVariables (by simp)
    simp only [Store.readProperty, ← OrderedMap.length_keys, listed]
  | listOfConstraints => simp only [Store.readProperty, types rfl]
  | listOfConstraintIndices t | numberOfConstraints t =>
    have listed := indices t (by simp)
    simp only [Store.readProperty, listed]
  | objectiveValue r => exact settings.readResult _ r (·.1)
  | primalStatus r => exact settings.readResult _ r (·.2.1)
  | dualStatus r => exact settings.readResult _ r (·.2.2)
  | rawSolver => rfl

theorem SameListings.constraintTypes (listings : SameListings s after) (valid : s.Invariant)
    (validAfter : after.Invariant) : after.constraintTypes = s.constraintTypes := by
  rw [valid.constraintTypes_eq, validAfter.constraintTypes_eq, listings.types,
    listings.ofConstraints]

theorem SameSettings.readProperty (settings : SameSettings s after)
    (listings : SameListings s after) (valid : s.Invariant) (validAfter : after.Invariant)
    (a : InstanceAttribute) : after.readProperty tolerance a = s.readProperty tolerance a :=
  settings.readProperty_of_listed (fun _ => listings.ofVariables)
    (fun _ => listings.constraintTypes valid validAfter) fun t _ => listings.indices t

/-- What is read of a global attribute is a matter of settings and listings. -/
theorem SameSettings.readGlobal (settings : SameSettings s after) (listings : SameListings s after)
    (valid : s.Invariant) (validAfter : after.Invariant) (a : GlobalAttribute) :
    after.readGlobal tolerance a = s.readGlobal tolerance a := by
  cases a with
  | parameter p => exact settings.readParameter p
  | property a => exact settings.readProperty listings valid validAfter a

private theorem accepted_eq_ok_iff {refusal : Option ProtocolError} :
    accepted refusal = .ok () ↔ refusal = none := by
  cases refusal <;> simp [accepted]

theorem Invariant.refusal?_of_written (valid : s.Invariant) {p : Place} {v : p.attr.Value}
    (written : s.writeIndexed p.attr p.index v = .ok after) :
    s.refusal? p.attr.toAttribute p.target = none := by
  have fst := valid.writeIndexed_fst p v
  rw [written] at fst
  exact (Option.or_eq_none_iff.mp (accepted_eq_ok_iff.mp fst.symm)).1

theorem Invariant.read_written (valid : s.Invariant) {p : Place} {v : p.attr.Value}
    (written : s.writeIndexed p.attr p.index v = .ok after) :
    after.readIndexed p.attr p.index = .ok v := by
  have write := writeIndexed_write written
  have stores := writeIndexed_stores written
  have refusal := refusal?_congr (write.sameListings.isLive p.target) stores.settings.length_results
  rw [(write.invariant valid).readIndexed_eq, stores.own, refusal,
    valid.refusal?_of_written written]
  rfl

theorem Invariant.read_elsewhere (valid : s.Invariant) {p : Place} {v : p.attr.Value}
    (written : s.writeIndexed p.attr p.index v = .ok after) {q : Place} (other : q ≠ p) :
    after.readIndexed q.attr q.index = s.readIndexed q.attr q.index := by
  have write := writeIndexed_write written
  have stores := writeIndexed_stores written
  exact write.sameListings.readIndexed stores.settings.length_results valid
    (write.invariant valid) (stores.others q other)

private theorem readResult_changeResult {r : Nat} {old : ResultRecord}
    (found : s.result? r = some old)
    {change : ResultRecord → ResultRecord} {α : Type} (a : Attribute) {q : Nat}
    {value : ResultRecord → Option α} (agree : q = r → value (change old) = value old) :
    (s.changeResult r change).readResult a q value = s.readResult a q value := by
  have count : (s.changeResult r change).results.length = s.results.length :=
    List.length_modify ..
  rw [readResult_eq, readResult_eq, hasResult_congr count, count,
    bind_result?_changeResult found agree]

theorem readResult_changeResult_own {r : Nat} {old : ResultRecord}
    (found : s.result? r = some old) {change : ResultRecord → ResultRecord} {α : Type}
    (a : Attribute) {value : ResultRecord → Option α} {v : α}
    (own : value (change old) = some v) :
    (s.changeResult r change).readResult a r value = .ok v := by
  have has : (s.changeResult r change).hasResult r = true := by
    simp [hasResult, result?_changeResult found]
  rw [readResult_eq, bind_result?_changeResult_self found own, if_pos has]
  rfl

private theorem writeParameter_own (p : SolverParameter) (v : p.valueType.Carrier) :
    (s.writeParameter p v).readParameter p = .ok v := by
  cases p with
  | raw name => exact congrArg (present _) (OrderedMap.find?_insert_self ..)
  | silent | timeLimit | numberOfThreads => rfl

private theorem writeParameter_other {p q : SolverParameter} (v : p.valueType.Carrier)
    (other : q ≠ p) :
    (s.writeParameter p v).readParameter q = s.readParameter q := by
  cases p with
  | raw name =>
    cases q with
    | raw different =>
      have apart : name ≠ different := fun same => other (congrArg _ same.symm)
      exact congrArg (present _) (OrderedMap.find?_insert_of_ne _ _ apart)
    | silent | timeLimit | numberOfThreads => rfl
  | silent | timeLimit | numberOfThreads => cases q <;> first | rfl | exact absurd rfl other

private theorem writeProperty_own {a : InstanceAttribute} {v : a.valueType.Carrier}
    (plain : (GlobalAttribute.property a).Plain) (written : s.writeProperty a v = .ok after) :
    after.readProperty tolerance a = .ok v := by
  cases a with
  | objectiveValue r | primalStatus r | dualStatus r =>
    obtain ⟨old, found, rfl⟩ := updateResult_ok written
    exact readResult_changeResult_own found _ rfl
  | resultCount | objectiveFunction => exact absurd plain id
  | _ => cases written <;> rfl

private theorem writeProperty_other {a b : InstanceAttribute} {v : a.valueType.Carrier}
    (plain : (GlobalAttribute.property a).Plain) (written : s.writeProperty a v = .ok after)
    (other : b ≠ a) : after.readProperty tolerance b = s.readProperty tolerance b := by
  cases a with
  | objectiveValue r | primalStatus r | dualStatus r =>
    obtain ⟨old, found, rfl⟩ := updateResult_ok written
    cases b with
    | objectiveValue q | primalStatus q | dualStatus q =>
      refine readResult_changeResult found _ fun same => ?_
      first | rfl | exact absurd (congrArg _ same) other
    | resultCount => simp [readProperty, changeResult]
    | _ => rfl
  | resultCount | objectiveFunction => exact absurd plain id
  | name | objectiveSense | terminationStatus | objectiveBound | relativeGap | solveTime
  | simplexIterations | barrierIterations | nodeCount =>
    cases written
    cases b <;> first | rfl | exact absurd rfl other
  | numberOfVariables | listOfVariableIndices | listOfConstraints | listOfConstraintIndices
  | numberOfConstraints | rawSolver => cases written

theorem writeGlobal_own {a : GlobalAttribute} {v : a.Value} (plain : a.Plain)
    (written : s.writeGlobal a v = .ok after) : after.readGlobal tolerance a = .ok v := by
  cases a with
  | parameter p => cases written; exact writeParameter_own p v
  | property a => exact writeProperty_own plain written

private theorem writeProperty_parameters {a : InstanceAttribute} {v : a.valueType.Carrier}
    (written : s.writeProperty a v = .ok after) : after.parameters = s.parameters := by
  cases a with
  | objectiveValue r | primalStatus r | dualStatus r =>
    obtain ⟨old, -, rfl⟩ := updateResult_ok written
    rfl
  | resultCount =>
    simp only [writeProperty] at written
    split at written <;> cases written; rfl
  | _ => cases written <;> rfl

theorem writeGlobal_other {a b : GlobalAttribute} {v : a.Value} (plain : a.Plain)
    (written : s.writeGlobal a v = .ok after) (other : b ≠ a) :
    after.readGlobal tolerance b = s.readGlobal tolerance b := by
  rcases a with p | a <;> rcases b with q | b
  · cases written
    exact writeParameter_other v fun same => other (congrArg _ same)
  · cases written
    cases p <;> cases b <;> rfl
  · have same := writeProperty_parameters written
    cases q <;> simp only [readGlobal, readParameter, same] <;> rfl
  · exact writeProperty_other plain written fun same => other (congrArg _ same)

/-- Nothing is kept otherwise at a place, and the same names stand for the same things. -/
structure SameIndexed (s after : Store) : Prop where
  kept : ∀ p, after.kept? p = s.kept? p
  count : after.results.length = s.results.length
  names : SameNames s after

private theorem SameIndexed.of_changeResult {r : Nat} {old : ResultRecord}
    (found : s.result? r = some old) {change : ResultRecord → ResultRecord}
    (variablePrimal : (change old).variablePrimal = old.variablePrimal)
    (constraintPrimal : (change old).constraintPrimal = old.constraintPrimal)
    (constraintDual : (change old).constraintDual = old.constraintDual) :
    SameIndexed s (s.changeResult r change) := by
  refine ⟨?_, List.length_modify .., rfl, rfl⟩
  rintro ⟨_ | t, a, index⟩
  · exact keptForVariable_changeResult found fun _ => by rw [variablePrimal]
  · exact keptForConstraint_changeResult found (fun _ => by rw [constraintPrimal])
      fun _ => by rw [constraintDual]

private theorem SameIndexed.of_settings (same : SamePlaces s after) (names : SameNames s after) :
    SameIndexed s after :=
  ⟨same.kept?, congrArg List.length same.results, names⟩

theorem writeGlobal_sameIndexed {a : GlobalAttribute} {v : a.Value}
    (written : s.writeGlobal a v = .ok after) (counted : a ≠ .property .resultCount) :
    SameIndexed s after := by
  cases a with
  | parameter p =>
    cases written
    cases p <;> exact .of_settings ⟨rfl, rfl, rfl, rfl⟩ ⟨rfl, rfl⟩
  | property a =>
    change s.writeProperty a v = .ok after at written
    cases a with
    | objectiveValue r | primalStatus r | dualStatus r =>
      obtain ⟨old, found, rfl⟩ := updateResult_ok written
      exact .of_changeResult found rfl rfl rfl
    | resultCount => exact absurd rfl counted
    | name | objectiveSense | objectiveFunction | terminationStatus | objectiveBound | relativeGap
    | solveTime | simplexIterations | barrierIterations | nodeCount =>
      cases written
      exact .of_settings ⟨rfl, rfl, rfl, rfl⟩ ⟨rfl, rfl⟩
    | numberOfVariables | listOfVariableIndices | listOfConstraints | listOfConstraintIndices
    | numberOfConstraints | rawSolver => cases written

/-- Setting the objective changes what is read of the objective, and nothing else. -/
theorem writeGlobal_objective {f : FunctionType} {g : f.Carrier}
    (written : s.writeGlobal (.property (.objectiveFunction f)) g = .ok after)
    {b : GlobalAttribute} (other : ¬b.IsObjective) :
    after.readGlobal tolerance b = s.readGlobal tolerance b := by
  cases written
  rcases b with q | b
  · cases q <;> rfl
  · cases b <;> first | rfl | exact absurd trivial other

/-- Everything that is read at indices is as it was. -/
def SameReadsAt (B : Backend Store) (s after : Store) : Prop :=
  ∀ q : Place, (B.getAt after q.attr q.index).1 = (B.getAt s q.attr q.index).1

/-- Every lookup by name gives what it gave. -/
structure SameLookups (B : Backend Store) (s after : Store) : Prop where
  indexByName : ∀ k n, B.indexByName after k n = B.indexByName s k n
  constraintByName : ∀ n, B.constraintByName after n = B.constraintByName s n

/-- Every lookup of the name gives what it gave. -/
structure SameLookupsOf (B : Backend Store) (n : String) (s after : Store) : Prop where
  indexByName : ∀ k, B.indexByName after k n = B.indexByName s k n
  constraintByName : B.constraintByName after n = B.constraintByName s n

theorem SameLookups.of_each {B : Backend Store} (each : ∀ n, SameLookupsOf B n s after) :
    SameLookups B s after :=
  ⟨fun k n => (each n).indexByName k, fun n => (each n).constraintByName⟩

/-- What has a name is looked up among the names of variables or among those of constraints. -/
theorem sameLookupsOf (tolerance : Binary64) {n : String}
    (ofVariables : after.variableNames.find? n = s.variableNames.find? n)
    (ofConstraints : after.constraintNames.find? n = s.constraintNames.find? n) :
    SameLookupsOf (backend tolerance) n s after where
  indexByName k := by
    cases k with
    | var => rw [indexByName_var, indexByName_var, ofVariables]
    | constraint t => rw [indexByName_constraint, indexByName_constraint, ofConstraints]
  constraintByName := by rw [constraintByName_eq, constraintByName_eq, ofConstraints]

theorem SameNames.sameLookups (same : SameNames s after) (tolerance : Binary64) :
    SameLookups (backend tolerance) s after :=
  .of_each fun n => sameLookupsOf tolerance (congrArg (·.find? n) same.ofVariables)
    (congrArg (·.find? n) same.ofConstraints)

/-- Writes are read back exactly and change nothing else. -/
structure WritesExactly (B : Backend Store) (s : Store) : Prop where
  getSet : ∀ a v after, a.Plain → B.set s a v = (.ok (), after) → (B.get after a).1 = .ok v
  getOther : ∀ a v after, a.Plain → B.set s a v = (.ok (), after) →
    ∀ b, b ≠ a → (B.get after b).1 = (B.get s b).1
  getAtSet : ∀ a v after, a.Plain → B.set s a v = (.ok (), after) →
    SameReadsAt B s after ∧ SameLookups B s after
  getAtSetAt : ∀ (p : Place) v after, B.setAt s p.attr p.index v = (.ok (), after) →
    (B.getAt after p.attr p.index).1 = .ok v
  getAtOther : ∀ (p : Place) v after, B.setAt s p.attr p.index v = (.ok (), after) →
    ∀ q : Place, q ≠ p → (B.getAt after q.attr q.index).1 = (B.getAt s q.attr q.index).1
  getSetAt : ∀ (p : Place) v after, B.setAt s p.attr p.index v = (.ok (), after) →
    ∀ b, (B.get after b).1 = (B.get s b).1
  lookupSetAt : ∀ (p : Place) v after, B.setAt s p.attr p.index v = (.ok (), after) →
    ¬p.attr.toAttribute.IsName → SameLookups B s after
  /-- An objective is read as a function of any type, so that all of these reads may change. -/
  setObjective : ∀ f (g : f.Carrier) after,
    B.set s (.property (.objectiveFunction f)) g = (.ok (), after) →
      (∀ b : GlobalAttribute, ¬b.IsObjective → (B.get after b).1 = (B.get s b).1) ∧
        SameReadsAt B s after ∧ SameLookups B s after

theorem Invariant.set_sameIndexed (valid : s.Invariant) (tolerance : Binary64) {a : GlobalAttribute}
    {v : a.Value} (written : s.writeGlobal a v = .ok after) (counted : a ≠ .property .resultCount) :
    SameReadsAt (backend tolerance) s after ∧ SameLookups (backend tolerance) s after := by
  have write := writeGlobal_write written
  have same := writeGlobal_sameIndexed written counted
  refine ⟨fun q => ?_, same.names.sameLookups tolerance⟩
  rw [getAt_eq, getAt_eq]
  exact write.sameListings.readIndexed same.count valid (write.invariant valid) (same.kept q)

private theorem counted_of_plain {a : GlobalAttribute} (plain : a.Plain) :
    a ≠ .property .resultCount := by
  rintro rfl
  exact plain

theorem writes_exactly (reachable : s.Reachable) (tolerance : Binary64) :
    WritesExactly (backend tolerance) s := by
  have valid := reachable.invariant
  constructor
  case getSet =>
    intro a v after plain done
    rw [get_eq, writeGlobal_own plain (set_ok done)]
  case getOther =>
    intro a v after plain done b other
    rw [get_eq, get_eq, writeGlobal_other plain (set_ok done) other]
  case getAtSet =>
    intro a v after plain done
    exact valid.set_sameIndexed tolerance (set_ok done) (counted_of_plain plain)
  case getAtSetAt =>
    intro p v after done
    rw [getAt_eq, valid.read_written (setAt_ok done)]
  case getAtOther =>
    intro p v after done q other
    rw [getAt_eq, getAt_eq, valid.read_elsewhere (setAt_ok done) other]
  case getSetAt =>
    intro p v after done b
    have written := setAt_ok done
    have write := writeIndexed_write written
    have settings := (writeIndexed_stores written).settings
    rw [get_eq, get_eq, settings.readGlobal write.sameListings valid (write.invariant valid)]
  case lookupSetAt =>
    intro p v after done unnamed
    exact ((writeIndexed_stores (setAt_ok done)).names unnamed).sameLookups tolerance
  case setObjective =>
    intro f g after done
    have written := set_ok done
    refine ⟨fun b other => ?_, valid.set_sameIndexed tolerance written nofun⟩
    rw [get_eq, get_eq, writeGlobal_objective written other]

theorem shortRun_dualStart :
    (Store.run .zero empty shortRun).Reachable ∧
      ∃ after, (backend .zero).setAt (Store.run .zero empty shortRun) (k := .constraint upperBound)
          .dualStart ⟨3⟩ .zero = (.ok (), after) ∧
        ((backend .zero).getAt after (k := .constraint upperBound) .dualStart ⟨3⟩).1 = .ok .zero ∧
        ((backend .zero).getAt after (k := .constraint upperBound) .primalStart ⟨3⟩).1 =
          .error (.noValue (.constraint .primalStart) kind) := by
  have exactly := writes_exactly shortRun_reachable .zero
  let place (a : ConstraintAttribute) : Place := ⟨.constraint upperBound, a, ⟨3⟩⟩
  refine ⟨shortRun_reachable, _, rfl, ?_, ?_⟩
  · exact exactly.getAtSetAt (place .dualStart) Binary64.zero _ rfl
  · have other : place .primalStart ≠ place .dualStart := nofun
    rw [exactly.getAtOther (place .dualStart) Binary64.zero _ rfl (place .primalStart) other]
    rfl

end Store

end SolverProtocol
