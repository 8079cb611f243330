import SolverProtocol.Proofs.Backend.Write
import SolverProtocol.Proofs.Store.Access

namespace SolverProtocol

open Number

namespace Backend

variable {σ : Type} {B : Backend σ} {k : IndexKind} {a : IndexedAttribute k} {s after : σ}
  {e : ProtocolError}

/-- An error is found before anything is written into the output. -/
private theorem getInto_error {output left : List a.Value} {indices : List k.Index}
    (failed : B.getInto s a output indices = (.error e, left, after)) :
    left = output ∧ (after = s ∨ after = (B.getMany s a indices).2) := by
  unfold getInto at failed
  split at failed
  · cases failed
    exact ⟨rfl, .inl rfl⟩
  · rcases read : B.getMany s a indices with ⟨reason | values, last⟩ <;> rw [read] at failed <;>
      cases failed
    exact ⟨rfl, .inr rfl⟩

end Backend

namespace Store

variable {s after : Store} {e : ProtocolError}

private theorem updateResult_error {r m n : Nat} {change : ResultRecord → ResultRecord} :
    s.updateResult r change ≠ .error (.lengthMismatch m n) := by
  intro failed
  unfold updateResult result at failed
  cases found : s.result? r <;> rw [found] at failed <;> cases failed

private theorem updateRow_error {a : ConstraintAttribute} {t : ConstraintType}
    {c : ConstraintIndex t} {change : ConstraintRow t → ConstraintRow t} {m n : Nat} :
    s.updateRow a c change ≠ .error (.lengthMismatch m n) := by
  intro failed
  unfold updateRow at failed
  cases table : s.table? t with
  | none => rw [table] at failed; cases failed
  | some rows =>
    rw [table] at failed
    cases found : rows.find? c.value <;> simp [found, notFound] at failed

private theorem writeIndexed_error {k : IndexKind} {a : IndexedAttribute k} {index : k.Index}
    {v : a.Value} {m n : Nat} : s.writeIndexed a index v ≠ .error (.lengthMismatch m n) := by
  intro failed
  cases k with
  | var =>
    change s.writeVariable a index v = _ at failed
    unfold writeVariable at failed
    cases found : s.variableRecords.find? index with
    | none => simp [found, notFound] at failed
    | some record =>
      simp only [found] at failed
      cases a with
      | name => dsimp only at failed; split at failed <;> cases failed
      | primalStart | basisStatus => cases failed
      | primal r => exact updateResult_error failed
  | constraint t =>
    change s.writeConstraint a index v = _ at failed
    unfold writeConstraint at failed
    cases found : s.constraintRecords.find? (ConstraintIndex.erase index) with
    | none => simp [found, notFound] at failed
    | some record =>
      simp only [found] at failed
      cases a with
      | name => dsimp only at failed; split at failed <;> cases failed
      | primalStart | dualStart | basisStatus => cases failed
      | primal r | dual r => exact updateResult_error failed
      | function | set => exact updateRow_error failed

variable {tolerance : Binary64}

theorem set_error {a : GlobalAttribute} {v : a.Value}
    (failed : (backend tolerance).set s a v = (.error e, after)) : after = s :=
  (settleChange_error ((set_eq tolerance s a v).symm.trans failed)).1

theorem setAt_error {k : IndexKind} {a : IndexedAttribute k} {index : k.Index} {v : a.Value}
    (failed : (backend tolerance).setAt s a index v = (.error e, after)) :
    after = s ∧ s.writeIndexed a index v = .error e :=
  settleChange_error ((setAt_eq tolerance s a index v).symm.trans failed)

/-- The values before the first that is refused have been stored, and no other. -/
theorem setEach_firstFailure {k : IndexKind} {a : IndexedAttribute k}
    {pairs : List (k.Index × a.Value)}
    (failed : (backend tolerance).setEach s a pairs = (.error e, after)) :
    ∃ before index value later, pairs = before ++ (index, value) :: later ∧
      (backend tolerance).SetInTurn a s before after ∧
      (backend tolerance).setAt after a index value = (.error e, after) := by
  obtain ⟨before, index, value, later, middle, split, inTurn, refused⟩ :=
    Backend.setEach_error_iff.1 failed
  obtain ⟨rfl, -⟩ := setAt_error refused
  exact ⟨before, index, value, later, split, inTurn, refused⟩

theorem setPrimals_error {r : Nat} {xs : List VariableIndex}
    {values : List (IndexedAttribute.Value (k := .var) (.primal r))}
    (failed : (backend tolerance).setMany s (k := .var) (.primal r) xs values =
      (.error e, after)) : after = s := by
  by_cases aligned : values.length = xs.length
  · exact (settleChange_error ((setMany_primal tolerance s r aligned).symm.trans failed)).1
  · rw [setMany_mismatch tolerance s (k := .var) _ aligned] at failed
    cases failed
    rfl

/-- Values of all attributes but the primal values of variables are stored one by one. -/
theorem writeMany_unhandled {k : IndexKind} {a : IndexedAttribute k}
    (other : ∀ r, a.toAttribute ≠ .var (.primal r)) (indices : List k.Index) :
    s.writeMany a indices = .succeed s := by
  cases k with
  | constraint t => rfl
  | var =>
    cases a with
    | name | primalStart | basisStatus => rfl
    | primal r => exact absurd rfl (other r)

/-- How several values that are stored one by one can fail: their number does not match that of the
indices, and nothing is stored, or they are stored up to the first that is refused. -/
theorem setMany_error {k : IndexKind} {a : IndexedAttribute k}
    (other : ∀ r, a.toAttribute ≠ .var (.primal r)) {indices : List k.Index}
    {values : List a.Value}
    (failed : (backend tolerance).setMany s a indices values = (.error e, after)) :
    (values.length ≠ indices.length ∧ e = .lengthMismatch indices.length values.length ∧
        after = s) ∨
      (values.length = indices.length ∧ (∀ m n, e ≠ .lengthMismatch m n) ∧
        ∃ before index value later, indices.zip values = before ++ (index, value) :: later ∧
          (backend tolerance).SetInTurn a s before after ∧
          (backend tolerance).setAt after a index value = (.error e, after)) := by
  by_cases aligned : values.length = indices.length
  · rw [setMany_each tolerance s a (writeMany_unhandled other indices) aligned] at failed
    obtain ⟨before, index, value, later, split, inTurn, refused⟩ := setEach_firstFailure failed
    refine .inr ⟨aligned, ?_, before, index, value, later, split, inTurn, refused⟩
    rintro m n rfl
    exact writeIndexed_error (setAt_error refused).2
  · rw [setMany_mismatch tolerance s a aligned] at failed
    cases failed
    exact .inl ⟨aligned, rfl, rfl⟩

/-- What is left behind by each kind of call that fails. -/
structure FailuresContained (B : Backend Store) (s : Store) : Prop where
  set : ∀ a v e after, B.set s a v = (.error e, after) → after = s
  setAt : ∀ k (a : IndexedAttribute k) index v e after,
    B.setAt s a index v = (.error e, after) → after = s
  deleteVariable : ∀ x e after,
    (Change.deleteVariable x).outcome s = (.error e, after) → after = s
  deleteConstraint : ∀ t (c : ConstraintIndex t) e after,
    (Change.deleteConstraint c).outcome s = (.error e, after) → after = s
  /-- Primal values of variables are stored all at once. -/
  setPrimals : ∀ r xs values e after,
    B.setMany s (k := .var) (.primal r) xs values = (.error e, after) → after = s
  setMany : ∀ k (a : IndexedAttribute k), (∀ r, a.toAttribute ≠ .var (.primal r)) →
    ∀ indices values e after, B.setMany s a indices values = (.error e, after) →
      (values.length ≠ indices.length ∧ e = .lengthMismatch indices.length values.length ∧
          after = s) ∨
        (values.length = indices.length ∧ (∀ m n, e ≠ .lengthMismatch m n) ∧
          ∃ before index value later, indices.zip values = before ++ (index, value) :: later ∧
            B.SetInTurn a s before after ∧ B.setAt after a index value = (.error e, after))
  getInto : ∀ k (a : IndexedAttribute k) output indices e left after,
    B.getInto s a output indices = (.error e, left, after) → left = output ∧ after = s

theorem failures_contained (tolerance : Binary64) (s : Store) :
    FailuresContained (backend tolerance) s := by
  constructor
  case set => exact fun a v e after failed => set_error failed
  case setAt => exact fun k a index v e after failed => (setAt_error failed).1
  case deleteVariable =>
    intro x e after failed
    rw [Change.outcome_deleteVariable] at failed
    exact (settleChange_error failed).1
  case deleteConstraint =>
    intro t c e after failed
    rw [Change.outcome_deleteConstraint] at failed
    exact (settleChange_error failed).1
  case setPrimals => exact fun r xs values e after failed => setPrimals_error failed
  case setMany => exact fun k a other indices values e after failed => setMany_error other failed
  case getInto =>
    intro k a output indices e left after failed
    obtain ⟨same, rfl | rfl⟩ := Backend.getInto_error failed
    · exact ⟨same, rfl⟩
    · exact ⟨same, getMany_snd tolerance s a indices⟩

-- the first name stays, although the variable of the second one is missing
example :
    let named := (backend .zero).setMany (empty.addVariables 1).2 (k := .var) .name
      [⟨1⟩, ⟨2⟩] ["x", "y"]
    named.1 = .error (.indexNotFound (.var ⟨2⟩) kind) ∧
      named.2.readVariable .name ⟨1⟩ = .ok "x" :=
  ⟨rfl, rfl⟩

end Store

end SolverProtocol
