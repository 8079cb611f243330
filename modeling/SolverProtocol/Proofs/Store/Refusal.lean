import SolverProtocol.Proofs.Store.Apart
import SolverProtocol.Proofs.Store.Lookup

namespace SolverProtocol

open Number

/-- The value is a name, and the error says that something else has it. -/
def Place.Duplicate : (p : Place) → p.attr.Value → ProtocolError → Prop
  | ⟨.var, .name, _⟩, name, e => e = .duplicateName .var name
  | ⟨.constraint _, .name, _⟩, name, e => e = .duplicateName .anyConstraint name
  | _, _, _ => False

theorem Place.Duplicate.duplicateName {p : Place} {v : p.attr.Value} {e : ProtocolError}
    (duplicate : p.Duplicate v e) : ∃ target name, e = .duplicateName target name := by
  rcases p with ⟨_ | t, a, index⟩ <;> cases a <;>
    first | exact ⟨_, _, duplicate⟩ | exact duplicate.elim

/-- No access to a store at an index ends in this way. -/
def ProtocolError.Foreign : ProtocolError → Prop
  | .valueTypeMismatch .. | .unsupportedAccess .. | .lengthMismatch .. => True
  | _ => False

namespace Store

variable {s after : Store} {tolerance : Binary64}

/-- An access at a place fails for want of its index first, then for want of the result that its
attribute belongs to, and else for one of the `remaining` reasons only. -/
structure FailsInOrder {α : Type} (s : Store) (p : Place) (access : Except ProtocolError α)
    (remaining : ProtocolError → Prop) : Prop where
  notFound : access = .error (.indexNotFound p.target kind) ↔ s.isLive p.target = false
  invalidResult : ∀ r, access = .error (.invalidResultIndex r s.results.length) ↔
    s.isLive p.target = true ∧ p.attr.toAttribute.resultIndex? = some r ∧
      (r = 0 ∨ s.results.length < r)
  otherwise : ∀ e, access = .error e → e = .indexNotFound p.target kind ∨
    (∃ r, e = .invalidResultIndex r s.results.length) ∨ remaining e

private theorem hasResult_eq_false_iff {r : Nat} :
    s.hasResult r = false ↔ r = 0 ∨ s.results.length < r := by
  rw [← Bool.not_eq_true, hasResult_iff]
  omega

theorem refusal?_eq_some_iff {a : Attribute} {i : AnyIndex} {e : ProtocolError} :
    s.refusal? a i = some e ↔
      (s.isLive i = false ∧ e = .indexNotFound i kind) ∨
        (s.isLive i = true ∧ ∃ r, a.resultIndex? = some r ∧ (r = 0 ∨ s.results.length < r) ∧
          e = .invalidResultIndex r s.results.length) := by
  cases live : s.isLive i with
  | false => simp [refusal?_of_missing live, eq_comm]
  | true =>
    rw [refusal?_of_live live, resultRefusal?, Option.bind_eq_some_iff]
    simp only [Bool.true_eq_false, false_and, false_or, true_and]
    refine exists_congr fun r => and_congr_right fun _ => ?_
    rw [← hasResult_eq_false_iff]
    cases s.hasResult r <;> simp [eq_comm]

private theorem answered_eq_error_iff {α : Type} {a : Attribute} {value : Option α}
    {refusal : Option ProtocolError} {e : ProtocolError} :
    answered a value refusal = .error e ↔
      refusal = some e ∨ (refusal = none ∧ value = none ∧ e = .noValue a kind) := by
  cases refusal with
  | some reason => simp [answered]
  | none => cases value <;> simp [answered, present, eq_comm]

private theorem accepted_eq_error_iff {refusal : Option ProtocolError} {e : ProtocolError} :
    accepted refusal = .error e ↔ refusal = some e := by
  cases refusal <;> simp [accepted]

/-- An access that is refused first, and then fails for one of the remaining reasons. -/
theorem failsInOrder {α : Type} {p : Place} {access : Except ProtocolError α}
    {remaining : ProtocolError → Prop}
    (error_iff : ∀ e, access = .error e ↔ s.refusal? p.attr.toAttribute p.target = some e ∨
      (s.refusal? p.attr.toAttribute p.target = none ∧ remaining e))
    (found : ∀ i k, ¬remaining (.indexNotFound i k))
    (inRange : ∀ r n, ¬remaining (.invalidResultIndex r n)) :
    FailsInOrder s p access remaining where
  notFound := by
    rw [error_iff, refusal?_eq_some_iff]
    simp [found]
  invalidResult r := by
    rw [error_iff, refusal?_eq_some_iff]
    simp [inRange]
  otherwise e failed := by
    rcases (error_iff e).mp failed with refused | ⟨-, reason⟩
    · rcases refusal?_eq_some_iff.mp refused with ⟨-, rfl⟩ | ⟨-, r, -, -, rfl⟩
      · exact .inl rfl
      · exact .inr (.inl ⟨r, rfl⟩)
    · exact .inr (.inr reason)

private theorem nameRefusal?_duplicate {p : Place} {v : p.attr.Value} {e : ProtocolError}
    (refused : s.nameRefusal? p v = some e) : p.Duplicate v e := by
  rcases p with ⟨_ | t, a, index⟩ <;> cases a <;> simp [nameRefusal?] at refused
  · exact refused.2.symm
  · exact refused.2.symm

theorem FailsInOrder.mono {α : Type} {p : Place} {access : Except ProtocolError α}
    {some more : ProtocolError → Prop} (fails : FailsInOrder s p access some)
    (weaker : ∀ e, some e → more e) : FailsInOrder s p access more where
  notFound := fails.notFound
  invalidResult := fails.invalidResult
  otherwise e failed := (fails.otherwise e failed).imp_right (Or.imp_right (weaker e))

theorem Invariant.getAt_failsInOrder (valid : s.Invariant) (tolerance : Binary64) (p : Place) :
    FailsInOrder s p ((backend tolerance).getAt s p.attr p.index).1
      (· = .noValue p.attr.toAttribute kind) := by
  have read : ∀ e, ((backend tolerance).getAt s p.attr p.index).1 = .error e ↔
      s.refusal? p.attr.toAttribute p.target = some e ∨
        (s.refusal? p.attr.toAttribute p.target = none ∧
          s.kept? p = none ∧ e = .noValue p.attr.toAttribute kind) := by
    intro e
    rw [getAt_eq, valid.readIndexed_eq, answered_eq_error_iff]
  exact (failsInOrder read nofun nofun).mono fun e missing => missing.2

theorem Invariant.setAt_failsInOrder (valid : s.Invariant) (tolerance : Binary64) (p : Place)
    (v : p.attr.Value) :
    FailsInOrder s p ((backend tolerance).setAt s p.attr p.index v).1 (p.Duplicate v) := by
  have written : ∀ e, ((backend tolerance).setAt s p.attr p.index v).1 = .error e ↔
      s.refusal? p.attr.toAttribute p.target = some e ∨
        (s.refusal? p.attr.toAttribute p.target = none ∧ s.nameRefusal? p v = some e) := by
    intro e
    rw [setAt_eq, settleChange_fst, valid.writeIndexed_fst, accepted_eq_error_iff,
      Option.or_eq_some_iff]
  refine (failsInOrder written ?_ ?_).mono fun e taken => nameRefusal?_duplicate taken
  · intro i k taken
    obtain ⟨target, name, mistaken⟩ := (nameRefusal?_duplicate taken).duplicateName
    cases mistaken
  · intro r n taken
    obtain ⟨target, name, mistaken⟩ := (nameRefusal?_duplicate taken).duplicateName
    cases mistaken

theorem deleteVariable_fst (x : VariableIndex) :
    ((Change.deleteVariable x).outcome s).1 =
      if s.isLive (.var x) then .ok () else .error (.indexNotFound (.var x) kind) := by
  rw [Change.outcome_deleteVariable]
  cases found : s.variableRecords.find? x with
  | none => simp [variable_missing found, Store.deleteVariable, found, notFound, settleChange]
  | some record => simp [variable_live found, Store.deleteVariable, found, settleChange]

theorem deleteConstraint_fst {t : ConstraintType} (c : ConstraintIndex t) :
    ((Change.deleteConstraint c).outcome s).1 =
      if s.isLive (.constraint c.erase) then .ok ()
      else .error (.indexNotFound (.constraint c.erase) kind) := by
  rw [Change.outcome_deleteConstraint]
  cases found : s.constraintRecords.find? c.erase with
  | none => simp [constraint_missing found, Store.deleteConstraint, found, notFound, settleChange]
  | some record => simp [constraint_live found, Store.deleteConstraint, found, settleChange]

/-- Everything kept for the constraints of one type is as it was. -/
structure KeepsType (u : ConstraintType) (s after : Store) : Prop where
  live : ∀ d : ConstraintIndex u,
    after.isLive (.constraint d.erase) = s.isLive (.constraint d.erase)
  kept : ∀ (a : ConstraintAttribute) (d : ConstraintIndex u),
    after.keptForConstraint d a = s.keptForConstraint d a
  count : after.results.length = s.results.length

theorem KeepsType.refl (u : ConstraintType) (s : Store) : KeepsType u s s :=
  ⟨fun _ => rfl, fun _ _ => rfl, rfl⟩

theorem KeepsType.trans {u : ConstraintType} {middle : Store} (first : KeepsType u s middle)
    (second : KeepsType u middle after) : KeepsType u s after where
  live d := (second.live d).trans (first.live d)
  kept a d := (second.kept a d).trans (first.kept a d)
  count := second.count.trans first.count

theorem SameApart.keepsType {i : AnyIndex} {u : ConstraintType} (same : SameApart i s after)
    (other : i.kind ≠ .constraint u) : KeepsType u s after := by
  have apart (d : ConstraintIndex u) : .constraint d.erase ≠ i := by
    rintro rfl
    exact other rfl
  exact ⟨fun d => same.isLive (apart d), fun a d => same.kept ⟨.constraint u, a, d⟩ (apart d),
    same.settings.length_results⟩

theorem writeIndexed_keepsType {k : IndexKind} {u : ConstraintType} (other : k ≠ .constraint u)
    {a : IndexedAttribute k} {index : k.Index} {v : a.Value}
    (written : s.writeIndexed a index v = .ok after) : KeepsType u s after :=
  (writeIndexed_sameApart (p := ⟨k, a, index⟩) written).keepsType fun same =>
    other ((k.kind_erase index).symm.trans same)

theorem setAt_keepsType (tolerance : Binary64) {k : IndexKind} {u : ConstraintType}
    (other : k ≠ .constraint u) (a : IndexedAttribute k) (index : k.Index) (v : a.Value)
    (s : Store) : KeepsType u s ((backend tolerance).setAt s a index v).2 := by
  rw [setAt_eq]
  exact settleChange_preserves (.refl u s) fun _ => writeIndexed_keepsType other

theorem setMany_keepsType (tolerance : Binary64) {t u : ConstraintType} (other : t ≠ u)
    (a : IndexedAttribute (.constraint t)) (cs : List (ConstraintIndex t)) (values : List a.Value)
    (s : Store) : KeepsType u s ((backend tolerance).setMany s a cs values).2 := by
  by_cases aligned : values.length = cs.length
  · rw [setMany_each tolerance s a rfl aligned]
    have apart : IndexKind.constraint t ≠ .constraint u :=
      fun same => other (IndexKind.constraint.inj same)
    refine setEach_preserves tolerance (fun _ _ _ _ kept written => ?_) (.refl u s) _
    exact kept.trans (writeIndexed_keepsType apart written)
  · rw [setMany_mismatch tolerance s a aligned]
    exact .refl u s

theorem Invariant.deleteConstraint_keepsType (valid : s.Invariant) {t u : ConstraintType}
    (other : t ≠ u) (c : ConstraintIndex t) :
    KeepsType u s ((Change.deleteConstraint c).outcome s).2 := by
  rw [Change.outcome_deleteConstraint]
  refine settleChange_preserves (.refl u s) fun after deleted => ?_
  exact (valid.deleteConstraint_sameApart deleted).keepsType
    fun same => other (IndexKind.constraint.inj same)

/-- What can be learned of the constraints of one type is as it was. -/
structure SameOfType (B : Backend Store) (u : ConstraintType) (s after : Store) : Prop where
  live : ∀ d : ConstraintIndex u,
    after.isLive (.constraint d.erase) = s.isLive (.constraint d.erase)
  read : ∀ (a : ConstraintAttribute) (d : ConstraintIndex u),
    (B.getAt after (k := .constraint u) a d).1 = (B.getAt s (k := .constraint u) a d).1
  byName : ∀ n, B.indexByName after (.constraint u) n = B.indexByName s (.constraint u) n

theorem KeepsType.sameOfType {u : ConstraintType} (keeps : KeepsType u s after)
    (valid : s.Invariant) (validAfter : after.Invariant) (tolerance : Binary64) :
    SameOfType (backend tolerance) u s after := by
  have read (a : ConstraintAttribute) (d : ConstraintIndex u) :
      ((backend tolerance).getAt after (k := .constraint u) a d).1 =
        ((backend tolerance).getAt s (k := .constraint u) a d).1 := by
    rw [getAt_eq, getAt_eq]
    change after.readConstraint a d = s.readConstraint a d
    rw [validAfter.readConstraint_eq, valid.readConstraint_eq, keeps.kept,
      refusal?_congr (keeps.live d) keeps.count]
  refine ⟨keeps.live, read, fun n => ?_⟩
  have same (d : ConstraintIndex u) :
      (backend tolerance).indexByName after (.constraint u) n = .ok d ↔
        (backend tolerance).indexByName s (.constraint u) n = .ok d := by
    have named : nameOfConstraint (backend tolerance) after d.erase =
        nameOfConstraint (backend tolerance) s d.erase := read .name d
    rw [indexByName_constraint_iff, indexByName_constraint_iff, validAfter.constraintByName_iff,
      valid.constraintByName_iff, keeps.live d, named]
  simp only [indexByName_constraint, resolved_eq_ok_iff] at same ⊢
  exact congrArg (resolved _ n) (Option.ext same)

/-- How accesses at indices fail, and how far a change through an index reaches. -/
structure RefusesExactly (B : Backend Store) (s : Store) : Prop where
  resultCount : (B.get s (.property .resultCount)).1 = .ok s.results.length
  getAt : ∀ p : Place, FailsInOrder s p (B.getAt s p.attr p.index).1
    (· = .noValue p.attr.toAttribute kind)
  setAt : ∀ (p : Place) v, FailsInOrder s p (B.setAt s p.attr p.index v).1 (p.Duplicate v)
  getAtForeign : ∀ (p : Place) e, (B.getAt s p.attr p.index).1 = .error e → ¬e.Foreign
  setAtForeign : ∀ (p : Place) v e, (B.setAt s p.attr p.index v).1 = .error e → ¬e.Foreign
  deleteVariable : ∀ x, ((Change.deleteVariable x).outcome s).1 =
    if s.isLive (.var x) then .ok () else .error (.indexNotFound (.var x) kind)
  deleteConstraint : ∀ t (c : ConstraintIndex t), ((Change.deleteConstraint c).outcome s).1 =
    if s.isLive (.constraint c.erase) then .ok ()
    else .error (.indexNotFound (.constraint c.erase) kind)
  setAtApart : ∀ t u, t ≠ u → ∀ (a : IndexedAttribute (.constraint t)) c v,
    SameOfType B u s (B.setAt s a c v).2
  setManyApart : ∀ t u, t ≠ u → ∀ (a : IndexedAttribute (.constraint t)) cs values,
    SameOfType B u s (B.setMany s a cs values).2
  deleteApart : ∀ t u, t ≠ u → ∀ c : ConstraintIndex t,
    SameOfType B u s ((Change.deleteConstraint c).outcome s).2

theorem FailsInOrder.not_foreign {α : Type} {p : Place} {access : Except ProtocolError α}
    {remaining : ProtocolError → Prop} (fails : FailsInOrder s p access remaining)
    (known : ∀ e, remaining e → ¬e.Foreign) {e : ProtocolError} (failed : access = .error e) :
    ¬e.Foreign := by
  rcases fails.otherwise e failed with rfl | ⟨r, rfl⟩ | reason
  · exact id
  · exact id
  · exact known e reason

theorem refuses_exactly (reachable : s.Reachable) (tolerance : Binary64) :
    RefusesExactly (backend tolerance) s := by
  have valid := reachable.invariant
  constructor
  case resultCount => rw [get_eq]; rfl
  case getAt => exact valid.getAt_failsInOrder tolerance
  case setAt => exact valid.setAt_failsInOrder tolerance
  case getAtForeign =>
    intro p e failed
    refine (valid.getAt_failsInOrder tolerance p).not_foreign ?_ failed
    rintro e rfl
    exact id
  case setAtForeign =>
    intro p v e failed
    refine (valid.setAt_failsInOrder tolerance p v).not_foreign ?_ failed
    intro e duplicate
    obtain ⟨target, name, rfl⟩ := duplicate.duplicateName
    exact id
  case deleteVariable => exact fun x => deleteVariable_fst x
  case deleteConstraint => exact fun t c => deleteConstraint_fst c
  case setAtApart =>
    intro t u other a c v
    have apart : IndexKind.constraint t ≠ .constraint u :=
      fun same => other (IndexKind.constraint.inj same)
    have validAfter := (setAt_writes (s := s) tolerance a c v).invariant valid
    exact (setAt_keepsType tolerance apart a c v s).sameOfType valid validAfter tolerance
  case setManyApart =>
    intro t u other a cs values
    have validAfter := (setMany_writes (s := s) tolerance a cs values).invariant valid
    exact (setMany_keepsType tolerance other a cs values s).sameOfType valid validAfter tolerance
  case deleteApart =>
    intro t u other c
    have validAfter := (perform_effect tolerance s (.deleteConstraint c)).invariant valid
    simp only [perform, handsOutNone_snd] at validAfter
    exact (valid.deleteConstraint_keepsType other c).sameOfType valid validAfter tolerance

theorem shortRun_lower_bound :
    (Store.run .zero empty shortRun).Reachable ∧
      (Store.run .zero empty shortRun).isLive (.constraint ⟨lowerBound, 2⟩) = true ∧
      ((backend .zero).getAt (Store.run .zero empty shortRun) (k := .constraint upperBound)
        .name ⟨2⟩).1 = .error (.indexNotFound (.constraint ⟨upperBound, 2⟩) kind) ∧
      ((backend .zero).getAt (Store.run .zero empty shortRun) (k := .constraint lowerBound)
        (.dual 1) ⟨2⟩).1 = .error (.invalidResultIndex 1 0) := by
  have exactly := refuses_exactly shortRun_reachable .zero
  have live : (Store.run .zero empty shortRun).isLive (.constraint ⟨lowerBound, 2⟩) = true := by
    decide
  have foreign : (Store.run .zero empty shortRun).isLive (.constraint ⟨upperBound, 2⟩) = false := by
    decide
  refine ⟨shortRun_reachable, live, ?_, ?_⟩
  · exact (exactly.getAt ⟨.constraint upperBound, .name, ⟨2⟩⟩).notFound.mpr foreign
  · have missing := (exactly.getAt ⟨.constraint lowerBound, .dual 1, ⟨2⟩⟩).invalidResult 1
    exact missing.mpr ⟨live, rfl, .inr (by decide)⟩

end Store

end SolverProtocol
