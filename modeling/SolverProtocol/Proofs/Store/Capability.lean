import SolverProtocol.Proofs.Store.Invariant

/-! What the predicates of a store promise about its accesses. A predicate looks at the same data as
the access that it tells about, which is shown attribute by attribute. -/

namespace SolverProtocol.Store

open Number

variable {s : Store} {tolerance : Binary64}

private theorem isOk_present {α : Type} (a : Attribute) (value : Option α) :
    (present a value).isOk = value.isSome := by
  cases value <;> rfl

private theorem isOk_readResult {α : Type} (a : Attribute) (r : Nat)
    (value : ResultRecord → Option α) :
    (s.readResult a r value).isOk = s.resultHas r fun result => (value result).isSome := by
  unfold readResult resultHas result
  cases s.result? r with
  | none => rfl
  | some result => exact isOk_present a (value result)

/-- A result has something for each of several things if there is one that has it for each. -/
private theorem resultHas_all {α : Type} (r : Nat) (condition : ResultRecord → α → Bool)
    {things : List α} (some : things ≠ []) :
    s.resultHas r (fun result => things.all (condition result)) =
      things.all fun thing => s.resultHas r (condition · thing) := by
  unfold resultHas
  cases s.result? r with
  | some result => rfl
  | none =>
    obtain ⟨first, rest, rfl⟩ := List.exists_cons_of_ne_nil some
    rfl

private theorem all_entries_iff {κ ρ : Type} {entries : List (κ × ρ)} {has : κ → ρ → Bool} :
    (!entries.isEmpty && entries.all fun entry => has entry.1 entry.2) = true ↔
      (∃ key record, (key, record) ∈ entries) ∧
        ∀ key record, (key, record) ∈ entries → has key record = true := by
  have some : entries.isEmpty = false ↔ ∃ key record, (key, record) ∈ entries := by
    rw [List.isEmpty_eq_false_iff_exists_mem, Prod.exists]
  rw [Bool.and_eq_true, Bool.not_eq_true', some, List.all_eq_true, Prod.forall]

theorem isOk_convertCanonical (f source : FunctionType) (q : Canonical) :
    (convertCanonical f source tolerance q).isOk = f.represents tolerance q := by
  unfold convertCanonical FunctionType.represents
  cases f.ofCanonical tolerance q <;> rfl

theorem isOk_readParameter (p : SolverParameter) :
    (s.readParameter p).isOk = s.canGet tolerance (.global (.parameter p)) := by
  cases p with
  | raw name => exact isOk_present ..
  | silent | timeLimit | numberOfThreads => rfl

theorem isOk_readProperty (a : InstanceAttribute) :
    (s.readProperty tolerance a).isOk = s.canGetProperty tolerance a := by
  cases a with
  | terminationStatus | objectiveBound | relativeGap | solveTime | simplexIterations
  | barrierIterations | nodeCount => exact isOk_present ..
  | objectiveValue r | primalStatus r | dualStatus r => exact isOk_readResult ..
  | objectiveFunction f => exact isOk_convertCanonical ..
  | _ => rfl

theorem isOk_readGlobal (a : GlobalAttribute) :
    (s.readGlobal tolerance a).isOk = s.canGet tolerance (.global a) := by
  cases a with
  | parameter p => exact isOk_readParameter p
  | property a => exact isOk_readProperty a

/-- There is a value at a variable with this record. -/
def variableHas (s : Store) (a : VariableAttribute) (x : VariableIndex) (record : VariableRecord) :
    Bool :=
  match a with
  | .name => true
  | .primalStart => record.primalStart.isSome
  | .basisStatus => record.basisStatus.isSome
  | .primal r => s.resultHas r (·.variablePrimal.contains x)

theorem isOk_readVariable (a : VariableAttribute) {x : VariableIndex} {record : VariableRecord}
    (found : s.variableRecords.find? x = some record) :
    (s.readVariable a x).isOk = s.variableHas a x record := by
  simp only [readVariable, found]
  cases a with
  | name => rfl
  | primalStart | basisStatus => exact isOk_present ..
  | primal r => exact isOk_readResult ..

private theorem canGetForVariables_eq (a : VariableAttribute) :
    s.canGetForVariables a = (!s.variableRecords.isEmpty &&
      s.variableRecords.entries.all fun entry => s.variableHas a entry.1 entry.2) := by
  unfold canGetForVariables
  cases none : s.variableRecords.isEmpty with
  | true => rfl
  | false =>
    cases a with
    | name => simp [variableHas]
    | primalStart | basisStatus => rfl
    | primal r =>
      have some : s.variableRecords.keys ≠ [] := by
        simpa [OrderedMap.keys, OrderedMap.isEmpty] using none
      dsimp only
      rw [resultHas_all r (fun result => result.variablePrimal.contains) some]
      simp [OrderedMap.keys, List.all_map, variableHas, Function.comp_def]

theorem canGetForVariables_iff (a : VariableAttribute) :
    s.canGetForVariables a = true ↔
      (∃ x, s.isLive (.var x) = true) ∧
        ∀ x, s.isLive (.var x) = true → Succeeds (s.readVariable a x) := by
  rw [canGetForVariables_eq, OrderedMap.isEmpty, all_entries_iff]
  simp only [isLive, OrderedMap.contains_iff, OrderedMap.mem_keys_iff,
    ← OrderedMap.find?_eq_some_iff]
  refine and_congr_right fun _ => forall_congr' fun x => ?_
  constructor
  · rintro each ⟨record, found⟩
    exact isOk_iff.mp ((isOk_readVariable a found).trans (each record found))
  · intro read record found
    exact (isOk_readVariable a found).symm.trans (isOk_iff.mpr (read ⟨record, found⟩))

/-- There is a value at a live constraint with this record. -/
def constraintHas (s : Store) (a : ConstraintAttribute) (c : AnyConstraintIndex)
    (record : ConstraintRecord) : Bool :=
  match a with
  | .name | .function | .set => true
  | .primalStart => record.primalStart.isSome
  | .dualStart => record.dualStart.isSome
  | .basisStatus => record.basisStatus.isSome
  | .primal r => s.resultHas r (·.constraintPrimal.contains c)
  | .dual r => s.resultHas r (·.constraintDual.contains c)

theorem Invariant.isOk_readConstraint (valid : s.Invariant) (a : ConstraintAttribute)
    {t : ConstraintType} {c : ConstraintIndex t} {record : ConstraintRecord}
    (found : s.constraintRecords.find? c.erase = some record) :
    (s.readConstraint a c).isOk = s.constraintHas a c.erase record := by
  have live := OrderedMap.mem_keys_of_find? found
  simp only [readConstraint, found]
  cases a with
  | name => rfl
  | primalStart | dualStart | basisStatus => exact isOk_present ..
  | primal r | dual r => exact isOk_readResult ..
  | function =>
    obtain ⟨row, stored⟩ := valid.row .function live
    rw [stored]
    rfl
  | set =>
    obtain ⟨row, stored⟩ := valid.row .set live
    rw [stored]
    rfl

private theorem canGetForConstraints_eq (t : ConstraintType) (a : ConstraintAttribute) :
    s.canGetForConstraints t a = (!(s.constraintsOf t).isEmpty &&
      (s.constraintsOf t).all fun entry => s.constraintHas a entry.1 entry.2) := by
  simp only [canGetForConstraints]
  cases none : (s.constraintsOf t).isEmpty with
  | true => rfl
  | false =>
    have some : s.constraintsOf t ≠ [] := by simpa using none
    cases a with
    | name | function | set => simp [constraintHas]
    | primalStart | dualStart | basisStatus => rfl
    | primal r =>
      dsimp only
      rw [resultHas_all r (fun result entry => result.constraintPrimal.contains entry.1) some]
      rfl
    | dual r =>
      dsimp only
      rw [resultHas_all r (fun result entry => result.constraintDual.contains entry.1) some]
      rfl

private theorem mem_constraintsOf_iff {t : ConstraintType} {c : AnyConstraintIndex}
    {record : ConstraintRecord} :
    (c, record) ∈ s.constraintsOf t ↔ s.constraintRecords.find? c = some record ∧ c.type = t := by
  rw [constraintsOf, List.mem_filter, decide_eq_true_iff, OrderedMap.find?_eq_some_iff]

theorem Invariant.canGetForConstraints_iff (valid : s.Invariant) (t : ConstraintType)
    (a : ConstraintAttribute) :
    s.canGetForConstraints t a = true ↔
      (∃ c : ConstraintIndex t, s.isLive (.constraint c.erase) = true) ∧
        ∀ c : ConstraintIndex t, s.isLive (.constraint c.erase) = true →
          Succeeds (s.readConstraint a c) := by
  rw [canGetForConstraints_eq, all_entries_iff]
  simp only [isLive, OrderedMap.contains_iff, OrderedMap.mem_keys_iff, mem_constraintsOf_iff]
  constructor
  · rintro ⟨⟨⟨_, value⟩, record, found, rfl⟩, each⟩
    refine ⟨⟨⟨value⟩, record, found⟩, ?_⟩
    rintro c ⟨record, found⟩
    exact isOk_iff.mp ((valid.isOk_readConstraint a found).trans (each _ record ⟨found, rfl⟩))
  · rintro ⟨⟨c, known, present⟩, each⟩
    refine ⟨⟨c.erase, known, present, rfl⟩, ?_⟩
    rintro ⟨_, value⟩ record ⟨found, rfl⟩
    have read := isOk_iff.mpr (each ⟨value⟩ ⟨record, found⟩)
    exact (valid.isOk_readConstraint a (c := ⟨value⟩) found).symm.trans read

theorem Invariant.canGetFor_iff (valid : s.Invariant) {k : IndexKind} (a : IndexedAttribute k) :
    s.canGetFor a.toAttribute k = true ↔
      (∃ index, s.isLive (k.erase index) = true) ∧
        ∀ index, s.isLive (k.erase index) = true → Succeeds (s.readIndexed a index) := by
  cases k with
  | var => exact canGetForVariables_iff a
  | constraint t => exact valid.canGetForConstraints_iff t a

private theorem present_error {α : Type} {a : Attribute} {value : Option α} {e : ProtocolError}
    (missing : present a value = .error e) : e.isUnsupported = false := by
  cases value <;> cases missing
  rfl

private theorem readResult_error {α : Type} {a : Attribute} {r : Nat}
    {value : ResultRecord → Option α}
    {e : ProtocolError} (missing : s.readResult a r value = .error e) :
    e.isUnsupported = false := by
  unfold readResult result at missing
  cases found : s.result? r with
  | none =>
    simp only [found] at missing
    cases missing
    rfl
  | some result =>
    simp only [found] at missing
    exact present_error missing

private theorem convertCanonical_error {f source : FunctionType} {q : Canonical} {e : ProtocolError}
    (impossible : convertCanonical f source tolerance q = .error e) : e.isUnsupported = false := by
  unfold convertCanonical at impossible
  cases converted : f.ofCanonical tolerance q <;> rw [converted] at impossible <;>
    cases impossible
  rfl

/-- A supported attribute fails for want of a value at most. -/
theorem readGlobal_error {a : GlobalAttribute} (supported : supports (.global a) = true)
    {e : ProtocolError} (failed : s.readGlobal tolerance a = .error e) :
    e.isUnsupported = false := by
  rcases a with p | a
  · cases p with
    | raw name => exact present_error failed
    | silent | timeLimit | numberOfThreads => cases failed
  · cases a with
    | terminationStatus | objectiveBound | relativeGap | solveTime | simplexIterations
    | barrierIterations | nodeCount => exact present_error failed
    | objectiveValue r | primalStatus r | dualStatus r => exact readResult_error failed
    | objectiveFunction f => exact convertCanonical_error failed
    | rawSolver => cases supported
    | _ => cases failed

theorem readGlobal_unsupported {a : GlobalAttribute} (missing : supports (.global a) = false) :
    s.readGlobal tolerance a = .error (.unsupportedAccess (.global a) kind) := by
  rcases a with p | a
  · cases missing
  · cases a <;> first | rfl | cases missing

theorem supports_of_canSet {a : GlobalAttribute} (settable : s.canSet (.global a) = true) :
    supports (.global a) = true := by
  rcases a with p | a
  · rfl
  · cases a <;> first | rfl | cases settable

/-- More results are asked for than a store keeps. -/
def exceedsLimit : (a : GlobalAttribute) → a.Value → Bool
  | .property .resultCount, (count : Nat) => decide (maxResultCount < count)
  | _, _ => false

private theorem isOk_updateResult (r : Nat) (change : ResultRecord → ResultRecord) :
    (s.updateResult r change).isOk = s.hasResult r := by
  unfold updateResult result hasResult
  cases s.result? r <;> rfl

theorem succeeds_updateResult {r : Nat} {change : ResultRecord → ResultRecord} :
    Succeeds (s.updateResult r change) ↔ s.hasResult r = true := by
  rw [Succeeds, ← isOk_iff, isOk_updateResult]

theorem isOk_writeGlobal (a : GlobalAttribute) (v : a.Value) :
    (s.writeGlobal a v).isOk = (s.canSet (.global a) && !exceedsLimit a v) := by
  rcases a with p | a
  · rfl
  · cases a with
    | objectiveValue r | primalStatus r | dualStatus r =>
      exact (isOk_updateResult r _).trans (Bool.and_true _).symm
    | resultCount =>
      change Nat at v
      by_cases few : v ≤ maxResultCount
      · simp [writeGlobal, writeProperty, exceedsLimit, canSet, few, Nat.not_lt.mpr few,
          Except.isOk, Except.toBool]
      · simp [writeGlobal, writeProperty, exceedsLimit, canSet, few, Nat.not_le.mp few,
          Except.isOk, Except.toBool]
    | _ => rfl

theorem writeGlobal_exceeding {a : GlobalAttribute} {v : a.Value}
    (many : exceedsLimit a v = true) :
    ∃ reason, s.writeGlobal a v = .error (.invalidValue (.global a) reason kind) := by
  rcases a with p | a
  · cases many
  · cases a with
    | resultCount =>
      change Nat at v
      have count : ¬v ≤ maxResultCount := Nat.not_le.mpr (of_decide_eq_true many)
      exact ⟨_, if_neg count⟩
    | _ => cases many

private theorem writeVariable_outcome {a : VariableAttribute} {x : VariableIndex}
    (settable : s.canSetFor (.var a) .var = true) (live : s.isLive (.var x) = true)
    (v : a.valueType.Carrier) :
    Succeeds (s.writeVariable a x v) ∨
      ∃ name, s.writeVariable a x v = .error (.duplicateName .var name) := by
  obtain ⟨record, found⟩ := OrderedMap.mem_keys_iff.mp (OrderedMap.contains_iff.mp live)
  unfold writeVariable
  simp only [found]
  cases a with
  | name =>
    dsimp only
    split
    · exact .inr ⟨_, rfl⟩
    · exact .inl ⟨_, rfl⟩
  | primalStart | basisStatus => exact .inl ⟨_, rfl⟩
  | primal r => exact .inl (succeeds_updateResult.mpr settable)

private theorem Invariant.succeeds_updateRow (valid : s.Invariant) (a : ConstraintAttribute)
    {t : ConstraintType} {c : ConstraintIndex t} (live : c.erase ∈ s.constraintRecords.keys)
    (change : ConstraintRow t → ConstraintRow t) : Succeeds (s.updateRow a c change) := by
  obtain ⟨rows, row, table, found⟩ := valid.stored live
  unfold updateRow
  simp only [table, found]
  exact ⟨_, rfl⟩

private theorem Invariant.writeConstraint_outcome (valid : s.Invariant) {a : ConstraintAttribute}
    {t : ConstraintType} {c : ConstraintIndex t}
    (settable : s.canSetFor (.constraint a) (.constraint t) = true)
    (live : s.isLive (.constraint c.erase) = true) (v : (a.valueType t).Carrier) :
    Succeeds (s.writeConstraint a c v) ∨
      ∃ name, s.writeConstraint a c v = .error (.duplicateName .anyConstraint name) := by
  have known := OrderedMap.contains_iff.mp live
  obtain ⟨record, found⟩ := OrderedMap.mem_keys_iff.mp known
  unfold writeConstraint
  simp only [found]
  cases a with
  | name =>
    dsimp only
    split
    · exact .inr ⟨_, rfl⟩
    · exact .inl ⟨_, rfl⟩
  | primalStart | dualStart | basisStatus => exact .inl ⟨_, rfl⟩
  | primal r | dual r => exact .inl (succeeds_updateResult.mpr settable)
  | function => exact .inl (valid.succeeds_updateRow .function known _)
  | set => exact .inl (valid.succeeds_updateRow .set known _)

/-- Only an own name can be refused where a value can be set at all. -/
theorem Invariant.writeIndexed_outcome (valid : s.Invariant) {k : IndexKind}
    {a : IndexedAttribute k} {index : k.Index} (settable : s.canSetFor a.toAttribute k = true)
    (live : s.isLive (k.erase index) = true) (v : a.Value) :
    Succeeds (s.writeIndexed a index v) ∨
      ∃ target name, s.writeIndexed a index v = .error (.duplicateName target name) := by
  cases k with
  | var =>
    rcases writeVariable_outcome settable live v with done | ⟨name, taken⟩
    · exact .inl done
    · exact .inr ⟨_, name, taken⟩
  | constraint t =>
    rcases valid.writeConstraint_outcome settable live v with done | ⟨name, taken⟩
    · exact .inl done
    · exact .inr ⟨_, name, taken⟩

private theorem writeVariable_refused {a : VariableAttribute}
    (refused : s.canSetFor (.var a) .var = false) (x : VariableIndex) (v : a.valueType.Carrier) :
    ¬Succeeds (s.writeVariable a x v) := by
  unfold writeVariable
  cases found : s.variableRecords.find? x with
  | none => simp [notFound, Succeeds]
  | some record =>
    cases a with
    | primal r =>
      intro done
      exact Bool.false_ne_true (refused.symm.trans (succeeds_updateResult.mp done))
    | name | primalStart | basisStatus => cases refused

private theorem writeConstraint_refused {a : ConstraintAttribute} {t : ConstraintType}
    (refused : s.canSetFor (.constraint a) (.constraint t) = false) (c : ConstraintIndex t)
    (v : (a.valueType t).Carrier) : ¬Succeeds (s.writeConstraint a c v) := by
  unfold writeConstraint
  cases found : s.constraintRecords.find? c.erase with
  | none => simp [notFound, Succeeds]
  | some record =>
    cases a with
    | primal r | dual r =>
      intro done
      exact Bool.false_ne_true (refused.symm.trans (succeeds_updateResult.mp done))
    | name | primalStart | dualStart | basisStatus | function | set => cases refused

theorem writeIndexed_refused {k : IndexKind} {a : IndexedAttribute k}
    (refused : s.canSetFor a.toAttribute k = false) (index : k.Index) (v : a.Value) :
    ¬Succeeds (s.writeIndexed a index v) := by
  cases k with
  | var => exact writeVariable_refused refused index v
  | constraint t => exact writeConstraint_refused refused index v

theorem hasNamed_eq (target : NameTarget) (name : String) :
    s.hasNamed target name = (indexNamed.found s target name).isSome := by
  unfold hasNamed indexNamed
  cases indexNamed.found s target name <;> rfl

theorem hasNamed_iff (k : IndexKind) (name : String) :
    s.hasNamed k.nameTarget name = true ↔ Succeeds ((backend tolerance).indexByName s k name) := by
  rw [hasNamed_eq]
  cases k with
  | var => simp [indexByName_var, succeeds_resolved, IndexKind.nameTarget, indexNamed.found]
  | constraint t =>
    rw [indexByName_constraint, succeeds_resolved]
    cases found : s.constraintNames.find? name with
    | none => simp [IndexKind.nameTarget, indexNamed.found, found]
    | some c =>
      by_cases ofType : c.type = t <;>
        simp [IndexKind.nameTarget, indexNamed.found, found, Option.filter_some, ofType,
          AnyConstraintIndex.as?]

theorem hasNamed_anyConstraint_iff (name : String) :
    s.hasNamed .anyConstraint name = true ↔
      Succeeds ((backend tolerance).constraintByName s name) := by
  rw [hasNamed_eq, constraintByName_eq, succeeds_resolved, indexNamed.found, Option.isSome_map]

/-- What each predicate of a store says about the access that goes with it. -/
structure CapabilitiesAgree (B : Backend Store) (s : Store) : Prop where
  get : ∀ a, B.canGet s (.global a) = true ↔ Succeeds (B.get s a).1
  getAt : ∀ {k : IndexKind} (a : IndexedAttribute k),
    B.canGetFor s a.toAttribute k = true ↔
      (∃ index, s.isLive (k.erase index) = true) ∧
        ∀ index, s.isLive (k.erase index) = true → Succeeds (B.getAt s a index).1
  set : ∀ a, B.canSet s (.global a) = true → ∀ v, exceedsLimit a v = false →
    Succeeds (B.set s a v).1
  /-- The only value refused is a count of results above the limit. -/
  setExceeding : ∀ a, B.canSet s (.global a) = true → ∀ v, exceedsLimit a v = true →
    ∃ reason, (B.set s a v).1 = .error (.invalidValue (.global a) reason kind)
  setRefused : ∀ a, B.canSet s (.global a) = false → ∀ v, ¬Succeeds (B.set s a v).1
  setAt : ∀ {k : IndexKind} (a : IndexedAttribute k), B.canSetFor s a.toAttribute k = true →
    ∀ index, s.isLive (k.erase index) = true → ∀ v, Succeeds (B.setAt s a index v).1 ∨
      ∃ target name, (B.setAt s a index v).1 = .error (.duplicateName target name)
  setAtRefused : ∀ {k : IndexKind} (a : IndexedAttribute k),
    B.canSetFor s a.toAttribute k = false → ∀ index v, ¬Succeeds (B.setAt s a index v).1
  unsupported : ∀ a, B.supports s (.global a) = false →
    (B.get s a).1 = .error (.unsupportedAccess (.global a) kind)
  supported : ∀ a, B.supports s (.global a) = true → ∀ e, (B.get s a).1 = .error e →
    e.isUnsupported = false
  settable : ∀ a, B.canSet s (.global a) = true → B.supports s (.global a) = true
  named : ∀ k name, B.hasNamed s k.nameTarget name = true ↔ Succeeds (B.indexByName s k name)
  namedConstraint : ∀ name,
    B.hasNamed s .anyConstraint name = true ↔ Succeeds (B.constraintByName s name)

theorem capabilities_agree (reachable : s.Reachable) (tolerance : Binary64) :
    CapabilitiesAgree (backend tolerance) s := by
  have valid := reachable.invariant
  constructor
  case get =>
    intro a
    rw [get_eq, Succeeds, ← isOk_iff, isOk_readGlobal]
    rfl
  case getAt =>
    intro k a
    simp only [getAt_eq]
    exact valid.canGetFor_iff a
  case set =>
    intro a settable v within
    rw [set_eq, succeeds_settleChange, Succeeds, ← isOk_iff, isOk_writeGlobal, within]
    exact Bool.and_eq_true_iff.mpr ⟨settable, rfl⟩
  case setExceeding =>
    intro a _ v exceeding
    obtain ⟨reason, refused⟩ := writeGlobal_exceeding (s := s) exceeding
    exact ⟨reason, by rw [set_eq, settleChange_fst, refused]; rfl⟩
  case setRefused =>
    intro a refused v
    rw [set_eq, succeeds_settleChange, Succeeds, ← isOk_iff, isOk_writeGlobal]
    exact fun stored => Bool.false_ne_true (refused.symm.trans (Bool.and_eq_true_iff.mp stored).1)
  case setAt =>
    intro k a settable index live v
    rw [setAt_eq, succeeds_settleChange, settleChange_fst]
    rcases valid.writeIndexed_outcome settable live v with stored | ⟨target, name, taken⟩
    · exact .inl stored
    · exact .inr ⟨target, name, by rw [taken]; rfl⟩
  case setAtRefused =>
    intro k a refused index v
    rw [setAt_eq, succeeds_settleChange]
    exact writeIndexed_refused refused index v
  case unsupported =>
    intro a missing
    rw [get_eq]
    exact readGlobal_unsupported missing
  case supported =>
    intro a supported e failed
    rw [get_eq] at failed
    exact readGlobal_error supported failed
  case settable =>
    intro a settable
    exact supports_of_canSet settable
  case named =>
    intro k name
    exact hasNamed_iff k name
  case namedConstraint =>
    intro name
    exact hasNamed_anyConstraint_iff name

theorem shortRun_names_readable :
    (run .zero empty shortRun).Reachable ∧
      (backend .zero).canGetFor (run .zero empty shortRun) (.var .name) .var = true ∧
      Succeeds ((backend .zero).getAt (run .zero empty shortRun) (k := .var) .name ⟨2⟩).1 := by
  have agree := capabilities_agree shortRun_reachable .zero
  have readable :
      (backend .zero).canGetFor (run .zero empty shortRun) (.var .name) .var = true := by decide
  obtain ⟨-, each⟩ := (agree.getAt (k := .var) .name).mp readable
  exact ⟨shortRun_reachable, readable, each ⟨2⟩ (by decide)⟩

end SolverProtocol.Store
