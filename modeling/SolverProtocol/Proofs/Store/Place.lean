import SolverProtocol.Proofs.Store.Invariant

namespace SolverProtocol

open Number

theorem ConstraintIndex.erase_injective {t : ConstraintType} :
    Function.Injective (ConstraintIndex.erase (t := t)) := by
  rintro ⟨value⟩ ⟨other⟩ same
  exact congrArg _ (congrArg AnyConstraintIndex.value same)

/-- The attribute is a name. -/
def Attribute.IsName (a : Attribute) : Prop :=
  a = .var .name ∨ a = .constraint .name

/-- An attribute at an index of its kind. -/
structure Place where
  kind : IndexKind
  attr : IndexedAttribute kind
  index : kind.Index

/-- The index whose value is kept at the place. -/
def Place.target (p : Place) : AnyIndex :=
  p.kind.erase p.index

/-- Constraint indices that stand for the same thing are of the same type. -/
theorem Place.constraint_eq {t u : ConstraintType} (a : ConstraintAttribute)
    {c : ConstraintIndex t} {d : ConstraintIndex u} (same : d.erase = c.erase) :
    (⟨.constraint u, a, d⟩ : Place) = ⟨.constraint t, a, c⟩ := by
  obtain rfl : u = t := congrArg AnyConstraintIndex.type same
  exact congrArg _ (ConstraintIndex.erase_injective same)

/-- The value of an attribute that a record of a variable has a field for. -/
def VariableRecord.value? (record : VariableRecord) :
    (a : VariableAttribute) → Option a.valueType.Carrier
  | .name => some record.name
  | .primalStart => record.primalStart
  | .basisStatus => record.basisStatus
  | .primal _ => none

/-- The value of an attribute that a record of a constraint has a field for. -/
def ConstraintRecord.value? (record : ConstraintRecord) (t : ConstraintType) :
    (a : ConstraintAttribute) → Option (a.valueType t).Carrier
  | .name => some record.name
  | .primalStart => record.primalStart
  | .dualStart => record.dualStart
  | .basisStatus => record.basisStatus
  | .primal _ | .dual _ | .function | .set => none

/-- The function or the set of a row. -/
def ConstraintRow.value? {t : ConstraintType} (row : ConstraintRow t) :
    (a : ConstraintAttribute) → Option (a.valueType t).Carrier
  | .function => some row.function
  | .set => some row.set
  | .name | .primalStart | .dualStart | .basisStatus | .primal _ | .dual _ => none

/-- The values of a result that belong to no index. -/
def ResultRecord.summary (result : ResultRecord) :
    Option Binary64 × Option ResultStatus × Option ResultStatus :=
  (result.objectiveValue, result.primalStatus, result.dualStatus)

namespace Store

variable {s after : Store}

/-- The function and the set kept under a constraint index. -/
def row? (s : Store) {t : ConstraintType} (c : ConstraintIndex t) : Option (ConstraintRow t) :=
  (s.table? t).bind (·.find? c.value)

def keptForVariable (s : Store) (x : VariableIndex) :
    (a : VariableAttribute) → Option a.valueType.Carrier
  | .primal r => (s.result? r).bind (·.variablePrimal.find? x)
  | a => (s.variableRecords.find? x).bind (·.value? a)

def keptForConstraint (s : Store) {t : ConstraintType} (c : ConstraintIndex t) :
    (a : ConstraintAttribute) → Option (a.valueType t).Carrier
  | .primal r => (s.result? r).bind (·.constraintPrimal.find? c.erase)
  | .dual r => (s.result? r).bind (·.constraintDual.find? c.erase)
  | .function => (s.row? c).bind (·.value? .function)
  | .set => (s.row? c).bind (·.value? .set)
  | a => (s.constraintRecords.find? c.erase).bind (·.value? t a)

/-- The value kept at a place, if there is one. -/
def kept? (s : Store) : (p : Place) → Option p.attr.Value
  | ⟨.var, a, x⟩ => s.keptForVariable x a
  | ⟨.constraint _, a, c⟩ => s.keptForConstraint c a

/-- The result that an attribute belongs to has to exist. -/
def resultRefusal? (s : Store) (a : Attribute) : Option ProtocolError :=
  a.resultIndex?.bind fun r =>
    if s.hasResult r then none else some (.invalidResultIndex r s.results.length)

/-- Why an attribute cannot be accessed at an index, whatever is kept there. -/
def refusal? (s : Store) (a : Attribute) (i : AnyIndex) : Option ProtocolError :=
  if s.isLive i then s.resultRefusal? a else some (.indexNotFound i kind)

/-- What is read of a value that may be missing at a place that may be refused. -/
def answered {α : Type} (a : Attribute) (value : Option α) :
    Option ProtocolError → Except ProtocolError α
  | some e => .error e
  | none => present a value

theorem refusal?_of_live {a : Attribute} {i : AnyIndex} (live : s.isLive i = true) :
    s.refusal? a i = s.resultRefusal? a :=
  if_pos live

theorem refusal?_of_missing {a : Attribute} {i : AnyIndex} (missing : s.isLive i = false) :
    s.refusal? a i = some (.indexNotFound i kind) := by
  simp [refusal?, missing]

theorem variable_live {x : VariableIndex} {record : VariableRecord}
    (found : s.variableRecords.find? x = some record) : s.isLive (.var x) = true := by
  simp [isLive, OrderedMap.contains, found]

theorem variable_missing {x : VariableIndex} (missing : s.variableRecords.find? x = none) :
    s.isLive (.var x) = false := by
  simp [isLive, OrderedMap.contains, missing]

theorem constraint_live {c : AnyConstraintIndex} {record : ConstraintRecord}
    (found : s.constraintRecords.find? c = some record) : s.isLive (.constraint c) = true := by
  simp [isLive, OrderedMap.contains, found]

theorem constraint_missing {c : AnyConstraintIndex} (missing : s.constraintRecords.find? c = none) :
    s.isLive (.constraint c) = false := by
  simp [isLive, OrderedMap.contains, missing]

theorem hasResult_iff {r : Nat} : s.hasResult r = true ↔ 0 < r ∧ r ≤ s.results.length := by
  unfold hasResult result?
  cases r with
  | zero => simp
  | succ position =>
    have within : (s.results[position]?).isSome = true ↔ position < s.results.length := by simp
    exact within.trans (by omega)

theorem readResult_eq {α : Type} (a : Attribute) (r : Nat) (value : ResultRecord → Option α) :
    s.readResult a r value =
      answered a ((s.result? r).bind value)
        (if s.hasResult r then none else some (.invalidResultIndex r s.results.length)) := by
  unfold readResult result hasResult
  cases s.result? r <;> rfl

private theorem readVariable_eq (a : VariableAttribute) (x : VariableIndex) :
    s.readVariable a x =
      answered (.var a) (s.keptForVariable x a) (s.refusal? (.var a) (.var x)) := by
  unfold readVariable
  cases found : s.variableRecords.find? x with
  | none => rw [refusal?_of_missing (variable_missing found)]; rfl
  | some record =>
    rw [refusal?_of_live (variable_live found)]
    cases a with
    | primal r => exact readResult_eq ..
    | name | primalStart | basisStatus => simp only [keptForVariable, found]; rfl

theorem Invariant.readConstraint_eq (valid : s.Invariant) {t : ConstraintType}
    (a : ConstraintAttribute) (c : ConstraintIndex t) :
    s.readConstraint a c =
      answered (.constraint a) (s.keptForConstraint c a)
        (s.refusal? (.constraint a) (.constraint c.erase)) := by
  unfold readConstraint
  cases found : s.constraintRecords.find? c.erase with
  | none => rw [refusal?_of_missing (constraint_missing found)]; rfl
  | some record =>
    rw [refusal?_of_live (constraint_live found)]
    cases a with
    | primal r | dual r => exact readResult_eq ..
    | name | primalStart | dualStart | basisStatus => simp only [keptForConstraint, found]; rfl
    | function | set =>
      obtain ⟨rows, kept, table, stored⟩ := valid.stored (OrderedMap.mem_keys_of_find? found)
      simp only [Store.row, row?, table, stored, keptForConstraint, Option.bind_some]
      rfl

/-- What is read at a place is what is kept there, unless the place is refused. -/
theorem Invariant.readIndexed_eq (valid : s.Invariant) (p : Place) :
    s.readIndexed p.attr p.index =
      answered p.attr.toAttribute (s.kept? p) (s.refusal? p.attr.toAttribute p.target) := by
  rcases p with ⟨_ | t, a, index⟩
  · exact readVariable_eq a index
  · exact valid.readConstraint_eq a index

/-- The name that is to be stored may belong to something else. Other values are never refused. -/
def nameRefusal? (s : Store) : (p : Place) → p.attr.Value → Option ProtocolError
  | ⟨.var, .name, x⟩, name =>
    if nameTaken s.variableNames x name then some (.duplicateName .var name) else none
  | ⟨.constraint _, .name, c⟩, name =>
    if nameTaken s.constraintNames c.erase name then some (.duplicateName .anyConstraint name)
    else none
  | _, _ => none

def accepted : Option ProtocolError → Except ProtocolError Unit
  | some e => .error e
  | none => .ok ()

private theorem updateResult_fst (r : Nat) (change : ResultRecord → ResultRecord) :
    (s.updateResult r change).map (fun _ => ()) =
      accepted (if s.hasResult r then none else some (.invalidResultIndex r s.results.length)) := by
  unfold updateResult result hasResult
  cases s.result? r <;> rfl

private theorem writeVariable_fst (a : VariableAttribute) (x : VariableIndex)
    (v : a.valueType.Carrier) :
    (s.writeVariable a x v).map (fun _ => ()) =
      accepted ((s.refusal? (.var a) (.var x)).or (s.nameRefusal? ⟨.var, a, x⟩ v)) := by
  unfold writeVariable
  cases found : s.variableRecords.find? x with
  | none => rw [refusal?_of_missing (variable_missing found)]; rfl
  | some record =>
    rw [refusal?_of_live (variable_live found)]
    cases a with
    | name =>
      have everywhere : s.resultRefusal? (.var .name) = none := rfl
      by_cases taken : nameTaken s.variableNames x v = true <;>
        simp [everywhere, nameRefusal?, taken, accepted, Except.map]
    | primalStart | basisStatus => rfl
    | primal r =>
      have refused := updateResult_fst (s := s) r fun result =>
        { result with variablePrimal := result.variablePrimal.insert x v }
      simpa [nameRefusal?, resultRefusal?, Attribute.resultIndex?] using refused

private theorem Invariant.updateRow_fst (valid : s.Invariant) (a : ConstraintAttribute)
    {t : ConstraintType} {c : ConstraintIndex t} (live : c.erase ∈ s.constraintRecords.keys)
    (change : ConstraintRow t → ConstraintRow t) :
    (s.updateRow a c change).map (fun _ => ()) = .ok () := by
  obtain ⟨rows, row, table, found⟩ := valid.stored live
  simp [updateRow, table, found, Except.map]

private theorem Invariant.writeConstraint_fst (valid : s.Invariant) {t : ConstraintType}
    (a : ConstraintAttribute) (c : ConstraintIndex t) (v : (a.valueType t).Carrier) :
    (s.writeConstraint a c v).map (fun _ => ()) =
      accepted ((s.refusal? (.constraint a) (.constraint c.erase)).or
        (s.nameRefusal? ⟨.constraint t, a, c⟩ v)) := by
  unfold writeConstraint
  cases found : s.constraintRecords.find? c.erase with
  | none => rw [refusal?_of_missing (constraint_missing found)]; rfl
  | some record =>
    rw [refusal?_of_live (constraint_live found)]
    cases a with
    | name =>
      have everywhere : s.resultRefusal? (.constraint .name) = none := rfl
      by_cases taken : nameTaken s.constraintNames c.erase v = true <;>
        simp [everywhere, nameRefusal?, taken, accepted, Except.map]
    | primalStart | dualStart | basisStatus => rfl
    | primal r =>
      have refused := updateResult_fst (s := s) r fun result =>
        { result with constraintPrimal := result.constraintPrimal.insert c.erase v }
      simpa [nameRefusal?, resultRefusal?, Attribute.resultIndex?] using refused
    | dual r =>
      have refused := updateResult_fst (s := s) r fun result =>
        { result with constraintDual := result.constraintDual.insert c.erase v }
      simpa [nameRefusal?, resultRefusal?, Attribute.resultIndex?] using refused
    | function | set => exact valid.updateRow_fst _ (OrderedMap.mem_keys_of_find? found) _

/-- A write is refused as a read of the same place is, or because of the name to be stored. -/
theorem Invariant.writeIndexed_fst (valid : s.Invariant) (p : Place) (v : p.attr.Value) :
    (s.writeIndexed p.attr p.index v).map (fun _ => ()) =
      accepted ((s.refusal? p.attr.toAttribute p.target).or (s.nameRefusal? p v)) := by
  rcases p with ⟨_ | t, a, index⟩
  · exact writeVariable_fst a index v
  · exact valid.writeConstraint_fst a index v

end Store

end SolverProtocol
