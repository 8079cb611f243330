import SolverProtocol.Backend.Access
import SolverProtocol.Store.Instance
import SolverProtocol.Proofs.Store.Change
import SolverProtocol.Proofs.Traversal

namespace SolverProtocol

/-- The access comes to a value. -/
def Succeeds {α : Type} (access : Except ProtocolError α) : Prop :=
  ∃ value, access = .ok value

theorem succeeds_mapM_iff {α β : Type} {step : α → Except ProtocolError β} {items : List α} :
    Succeeds (items.mapM step) ↔ ∀ item ∈ items, Succeeds (step item) :=
  exists_mapM_iff

namespace Store

open Number

variable (tolerance : Binary64) (s : Store) {k : IndexKind}

theorem get_eq (a : GlobalAttribute) :
    (backend tolerance).get s a = (s.readGlobal tolerance a, s) := by
  cases read : s.readGlobal tolerance a with
  | error e => simp [Backend.get, backend, answer, read, Program.fail, Program.run, settle]
  | ok v =>
    simp [Backend.get, backend, answer, read, Query.reply, Program.run, Reply.deliver, put, settle]

theorem getAt_eq (a : IndexedAttribute k) (index : k.Index) :
    (backend tolerance).getAt s a index = (s.readIndexed a index, s) := by
  cases read : s.readIndexed a index with
  | error e => simp [Backend.getAt, backend, answerAt, read, Program.fail, Program.run, settle]
  | ok v =>
    simp [Backend.getAt, backend, answerAt, read, Program.reply, Program.run,
      IndexedReply.deliver, put, settle]

theorem set_eq (a : GlobalAttribute) (v : a.Value) :
    (backend tolerance).set s a v = settleChange s (s.writeGlobal a v) := by
  cases written : s.writeGlobal a v <;>
    simp [Backend.set, backend, Program.run, Take.deliver, Change.outcome_assign, settleChange,
      written, consumed]

theorem setAt_eq (a : IndexedAttribute k) (index : k.Index) (v : a.Value) :
    (backend tolerance).setAt s a index v = settleChange s (s.writeIndexed a index v) := by
  cases written : s.writeIndexed a index v <;>
    simp [Backend.setAt, backend, Program.run, IndexedTake.deliver_own, Change.outcome_assignAt,
      settleChange, written, consumed]

theorem settleChange_fst {s : Store} {change : Except ProtocolError Store} :
    (settleChange s change).1 = change.map fun _ => () := by
  cases change <;> rfl

theorem succeeds_settleChange {s : Store} {change : Except ProtocolError Store} :
    Succeeds (settleChange s change).1 ↔ Succeeds change := by
  cases change <;> simp [settleChange, Succeeds]

/-- Primal values of variables are stored all at once. -/
theorem setMany_primal (r : Nat) {xs : List VariableIndex}
    {values : List (IndexedAttribute.Value (k := .var) (.primal r))}
    (aligned : values.length = xs.length) :
    (backend tolerance).setMany s (k := .var) (.primal r) xs values =
      settleChange s (s.writePrimals r xs values) := by
  have taken := IndexedTake.deliverAll_own (k := .var) (.primal r) xs (some values)
  have ran : ((backend tolerance).writeMany s (k := .var) (.primal r) xs).run
      (IndexedTake.deliverAll (k := .var) (.primal r) xs) (some values) =
        (settleChange s (s.writePrimals r xs values), none) := by
    simp only [backend, writeMany, Program.run, taken]
    exact congrArg (·, none) (Change.outcome_assignPrimals s r xs values)
  unfold Backend.setMany
  rw [if_neg (not_not_intro aligned), ran]
  cases s.writePrimals r xs values <;> rfl

/-- Values of any other attribute are stored one by one. -/
theorem setMany_each (a : IndexedAttribute k) {indices : List k.Index} {values : List a.Value}
    (unhandled : s.writeMany a indices = .succeed s) (aligned : values.length = indices.length) :
    (backend tolerance).setMany s a indices values =
      (backend tolerance).setEach s a (indices.zip values) := by
  have writes : (backend tolerance).writeMany s a indices = .succeed s := unhandled
  simp [Backend.setMany, writes, Program.succeed, Program.run, aligned]

theorem setMany_mismatch (a : IndexedAttribute k) {indices : List k.Index} {values : List a.Value}
    (differ : values.length ≠ indices.length) :
    (backend tolerance).setMany s a indices values =
      (.error (.lengthMismatch indices.length values.length), s) :=
  if_pos differ

theorem setEach_cons_ok {s after : Store} {a : IndexedAttribute k} {index : k.Index} {v : a.Value}
    (written : s.writeIndexed a index v = .ok after) (rest : List (k.Index × a.Value)) :
    (backend tolerance).setEach s a ((index, v) :: rest) =
      (backend tolerance).setEach after a rest := by
  simp only [Backend.setEach, setAt_eq, written, settleChange]

theorem setEach_cons_error {s : Store} {a : IndexedAttribute k} {index : k.Index} {v : a.Value}
    {e : ProtocolError} (refused : s.writeIndexed a index v = .error e)
    (rest : List (k.Index × a.Value)) :
    (backend tolerance).setEach s a ((index, v) :: rest) = (.error e, s) := by
  simp only [Backend.setEach, setAt_eq, refused, settleChange]

section Preserve

variable {P : Store → Prop} {s : Store} {a : IndexedAttribute k}

theorem settleChange_preserves {change : Except ProtocolError Store} (start : P s)
    (changed : ∀ after, change = .ok after → P after) : P (settleChange s change).2 := by
  cases change with
  | error e => exact start
  | ok after => exact changed after rfl

/-- What storing one value preserves, storing several in turn preserves. -/
theorem setEach_preserves
    (one : ∀ s after index v, P s → s.writeIndexed a index v = .ok after → P after) (start : P s)
    (pairs : List (k.Index × a.Value)) : P ((backend tolerance).setEach s a pairs).2 := by
  induction pairs generalizing s with
  | nil => exact start
  | cons pair rest ih =>
    rcases pair with ⟨index, v⟩
    cases written : s.writeIndexed a index v with
    | error e =>
      rw [setEach_cons_error tolerance written rest]
      exact start
    | ok after =>
      rw [setEach_cons_ok tolerance written rest]
      exact ih (one s after index v start written)

/-- Primal values of variables are stored all at once, and others in turn. -/
theorem setMany_preserves
    (one : ∀ s after index v, P s → s.writeIndexed a index v = .ok after → P after)
    (atOnce : ∀ s after r xs values, P s → s.writePrimals r xs values = .ok after → P after)
    (start : P s) (indices : List k.Index) (values : List a.Value) :
    P ((backend tolerance).setMany s a indices values).2 := by
  by_cases aligned : values.length = indices.length
  · have each (unhandled : s.writeMany a indices = .succeed s) :
        P ((backend tolerance).setMany s a indices values).2 := by
      rw [setMany_each tolerance s a unhandled aligned]
      exact setEach_preserves tolerance one start _
    cases k with
    | constraint t => exact each rfl
    | var =>
      cases a with
      | primal r =>
        rw [setMany_primal tolerance s r aligned]
        exact settleChange_preserves start fun after => atOnce s after r indices values start
      | name | primalStart | basisStatus => exact each rfl
  · rw [setMany_mismatch tolerance s a aligned]
    exact start

end Preserve

/-- Reading one by one stops at the first error. -/
theorem getEach_eq (a : IndexedAttribute k) (indices : List k.Index) :
    (backend tolerance).getEach s a indices = (indices.mapM (s.readIndexed a), s) := by
  induction indices with
  | nil => rfl
  | cons index rest ih =>
    rw [Backend.getEach, getAt_eq, List.mapM_cons]
    cases s.readIndexed a index with
    | error e => rfl
    | ok value =>
      dsimp only
      rw [ih]
      cases rest.mapM (s.readIndexed a) <;> rfl

/-- Values that are not answered all at once are read one by one. -/
theorem getMany_each (a : IndexedAttribute k) {indices : List k.Index}
    (unhandled : s.readMany a indices = .succeed s) :
    (backend tolerance).getMany s a indices = (backend tolerance).getEach s a indices := by
  have reads : (backend tolerance).readMany s a indices = .succeed s := unhandled
  simp [Backend.getMany, reads, Program.succeed, Program.run]

/-- Reading several values leaves the store as it is, answered at once or not. -/
theorem getMany_snd (a : IndexedAttribute k) (indices : List k.Index) :
    ((backend tolerance).getMany s a indices).2 = s := by
  have each := congrArg Prod.snd (getEach_eq tolerance s a indices)
  have stays (slot : Option a.Values) :
      (((backend tolerance).readMany s a indices).run
        (BulkReply.deliver a indices.length) slot).1.2 = s := by
    cases k with
    | constraint t => rfl
    | var =>
      cases a with
      | name | primalStart | basisStatus => rfl
      | primal r =>
        change ((answerMany s (s.readPrimals r indices)).run _ slot).1.2 = s
        cases s.readPrimals r indices <;> rfl
  -- without an answer the values are read one by one, from the store as it was
  have ended := stays none
  unfold Backend.getMany
  rcases ran : ((backend tolerance).readMany s a indices).run
    (BulkReply.deliver a indices.length) none with ⟨⟨_ | _, after⟩, _ | _⟩ <;>
    rw [ran] at ended <;> cases ended
  · rfl
  · rfl
  · exact each
  · rfl

/-- What has the name, or the error that nothing has it. -/
def resolved {α : Type} (target : NameTarget) (name : String) : Option α → Except ProtocolError α
  | some index => .ok index
  | none => .error (.nameNotFound target name kind)

theorem succeeds_resolved {α : Type} {target : NameTarget} {name : String} {found : Option α} :
    Succeeds (resolved target name found) ↔ found.isSome = true := by
  cases found <;> simp [resolved, Succeeds]

theorem resolved_eq_ok_iff {α : Type} {target : NameTarget} {name : String} {found : Option α}
    {index : α} : resolved target name found = .ok index ↔ found = some index := by
  cases found <;> simp [resolved]

theorem indexByName_var (name : String) :
    (backend tolerance).indexByName s .var name =
      resolved .var name (s.variableNames.find? name) := by
  cases found : s.variableNames.find? name <;>
    simp [Backend.indexByName, backend, indexNamed, indexNamed.found, IndexKind.nameTarget,
      IndexKind.as?, found, resolved, bind, Except.bind, pure, Except.pure]

theorem constraintByName_eq (name : String) :
    (backend tolerance).constraintByName s name =
      resolved .anyConstraint name (s.constraintNames.find? name) := by
  cases found : s.constraintNames.find? name <;>
    simp [Backend.constraintByName, backend, indexNamed, indexNamed.found, found, resolved, bind,
      Except.bind, pure, Except.pure]

theorem indexByName_constraint (t : ConstraintType) (name : String) :
    (backend tolerance).indexByName s (.constraint t) name =
      resolved (.constraint t) name ((s.constraintNames.find? name).bind (·.as? t)) := by
  cases found : s.constraintNames.find? name with
  | none =>
    simp [Backend.indexByName, backend, indexNamed, indexNamed.found, IndexKind.nameTarget, found,
      resolved, bind, Except.bind]
  | some c =>
    by_cases ofType : c.type = t <;>
      simp [Backend.indexByName, backend, indexNamed, indexNamed.found, IndexKind.nameTarget,
        IndexKind.as?, AnyConstraintIndex.as?, Option.filter_some, found, ofType, resolved, bind,
        Except.bind, pure, Except.pure]

end Store

end SolverProtocol
