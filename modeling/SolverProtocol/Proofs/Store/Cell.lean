import SolverProtocol.Proofs.Store.Apart
import SolverProtocol.Proofs.Store.Bulk
import SolverProtocol.Proofs.Store.Failure

namespace SolverProtocol

open Number

private theorem GlobalAttribute.plain_or (a : GlobalAttribute) :
    a.Plain ∨ a = .property .resultCount ∨ ∃ f, a = .property (.objectiveFunction f) := by
  rcases a with p | a
  · exact .inl trivial
  · cases a <;> simp [GlobalAttribute.Plain]

deriving instance DecidableEq for Place

/-- An attribute of the whole instance, or an attribute at an index. -/
inductive Cell where
  | global (a : GlobalAttribute)
  | place (p : Place)
deriving DecidableEq

namespace Cell

abbrev Value : Cell → Type
  | .global a => a.Value
  | .place p => p.attr.Value

def attr : Cell → Attribute
  | .global a => .global a
  | .place p => p.attr.toAttribute

def target? : Cell → Option AnyIndex
  | .global _ => none
  | .place p => some p.target

/-- The result that the value belongs to. -/
def result? (cell : Cell) : Option Nat :=
  cell.attr.resultIndex?

/-- The cell that counts the results. -/
def resultCount : Cell :=
  .global (.property .resultCount)

def read (B : Backend Store) (s : Store) : (cell : Cell) → Except ProtocolError cell.Value
  | .global a => (B.get s a).1
  | .place p => (B.getAt s p.attr p.index).1

/-- If the cell belongs to an index, it is a live one. -/
def Live (s : Store) (cell : Cell) : Prop :=
  ∀ i, cell.target? = some i → s.isLive i = true

end Cell

/-- A value that has been accepted. -/
structure Written where
  cell : Cell
  value : cell.Value

/-- The values stored at several indices, in their order. -/
def writtenAt {k : IndexKind} (a : IndexedAttribute k) (pairs : List (k.Index × a.Value)) :
    List Written :=
  pairs.map fun pair => ⟨.place ⟨k, a, pair.1⟩, pair.2⟩

/-- The values that are accepted one by one before the first that is refused. -/
def Backend.acceptedInTurn {σ : Type} (B : Backend σ) {k : IndexKind} (s : σ)
    (a : IndexedAttribute k) : List (k.Index × a.Value) → List (k.Index × a.Value)
  | [] => []
  | (index, value) :: rest =>
    match B.setAt s a index value with
    | (.error _, _) => []
    | (.ok (), after) => (index, value) :: acceptedInTurn B after a rest

/-- Values of the attribute at several indices are accepted all together or not at all. -/
def Attribute.allAtOnce : Attribute → Bool
  | .var (.primal _) => true
  | _ => false

namespace Store

/-- What a call writes, in order. Several values that fail one by one have been written up to the
first that is refused. -/
def Operation.written (B : Backend Store) (s : Store) : Operation → List Written
  | .set a value => if (B.set s a value).1.isOk then [⟨.global a, value⟩] else []
  | .setAt (k := k) a index value =>
    if (B.setAt s a index value).1.isOk then [⟨.place ⟨k, a, index⟩, value⟩] else []
  | .setMany a indices values =>
    writtenAt a <|
      if (B.setMany s a indices values).1.isOk then indices.zip values
      else if a.toAttribute.allAtOnce || values.length != indices.length then []
      else B.acceptedInTurn s a (indices.zip values)
  | _ => []

def writeCell (s : Store) : (cell : Cell) → cell.Value → Except ProtocolError Store
  | .global a, v => s.writeGlobal a v
  | .place p, v => s.writeIndexed p.attr p.index v

/-- The values are accepted in turn and lead from one store to the other. -/
inductive Puts : Store → List Written → Store → Prop where
  | nil (s : Store) : Puts s [] s
  | cons {s middle after : Store} {w : Written} {rest : List Written}
      (stored : s.writeCell w.cell w.value = .ok middle) (more : Puts middle rest after) :
      Puts s (w :: rest) after

variable {s middle after : Store} {tolerance : Binary64} {k : IndexKind} {a : IndexedAttribute k}

private theorem puts_of_setInTurn {pairs : List (k.Index × a.Value)}
    (inTurn : (backend tolerance).SetInTurn a s pairs after) :
    Puts s (writtenAt a pairs) after := by
  induction inTurn with
  | nil s => exact .nil s
  | cons stored more ih => exact .cons (w := ⟨.place ⟨k, a, _⟩, _⟩) (setAt_ok stored) ih

private theorem acceptedInTurn_eq {B : Backend Store} {before later : List (k.Index × a.Value)}
    (inTurn : B.SetInTurn a s before middle) {index : k.Index} {value : a.Value}
    {e : ProtocolError} (refused : B.setAt middle a index value = (.error e, after)) :
    B.acceptedInTurn s a (before ++ (index, value) :: later) = before := by
  induction inTurn with
  | nil s => simp [Backend.acceptedInTurn, refused]
  | cons stored more ih => simp [Backend.acceptedInTurn, stored, ih refused]

private theorem puts_of_setEach {pairs : List (k.Index × a.Value)}
    (done : (backend tolerance).setEach s a pairs = (.ok (), after)) :
    Puts s (writtenAt a pairs) after :=
  puts_of_setInTurn (Backend.setEach_ok_iff.mp done)

private theorem puts_of_setEach_error {pairs : List (k.Index × a.Value)} {e : ProtocolError}
    (failed : (backend tolerance).setEach s a pairs = (.error e, after)) :
    Puts s (writtenAt a ((backend tolerance).acceptedInTurn s a pairs)) after := by
  obtain ⟨before, index, value, later, rfl, inTurn, refused⟩ := setEach_firstFailure failed
  rw [acceptedInTurn_eq inTurn refused]
  exact puts_of_setInTurn inTurn

/-- Primal values that are stored all at once are accepted as they would be in turn. -/
private theorem puts_of_setPrimals {r : Nat} {xs : List VariableIndex}
    {values : List (PrimalValue r)} (aligned : values.length = xs.length)
    (done : (backend tolerance).setMany s (k := .var) (.primal r) xs values = (.ok (), after)) :
    Puts s (writtenAt (k := .var) (.primal r) (xs.zip values)) after := by
  have together := succeeds_setMany_iff_setEach (s := s) tolerance aligned
  obtain ⟨⟨_, succeeded⟩, -⟩ := together.mp ⟨(), congrArg Prod.fst done⟩
  have inTurn : (backend tolerance).setEach s (k := .var) (.primal r) (xs.zip values) =
      (.ok (), _) := Prod.ext succeeded rfl
  have stored := writePrimals_ok (setMany_ok tolerance aligned done)
  obtain rfl : _ = after := (setEach_ok tolerance inTurn).trans stored.symm
  exact puts_of_setEach inTurn

private theorem written_of_setMany {B : Backend Store} {indices : List k.Index}
    {values : List a.Value} (done : B.setMany s a indices values = (.ok (), after)) :
    Operation.written B s (.setMany a indices values) = writtenAt a (indices.zip values) := by
  simp [Operation.written, done, Except.isOk, Except.toBool]

private theorem written_of_setMany_error {B : Backend Store} {indices : List k.Index}
    {values : List a.Value} {e : ProtocolError}
    (failed : B.setMany s a indices values = (.error e, after)) :
    Operation.written B s (.setMany a indices values) =
      writtenAt a (if a.toAttribute.allAtOnce || values.length != indices.length then []
        else B.acceptedInTurn s a (indices.zip values)) := by
  simp [Operation.written, failed, Except.isOk, Except.toBool]

theorem setPrimals_puts {r : Nat} (xs : List VariableIndex) (values : List (PrimalValue r)) :
    Puts s (Operation.written (backend tolerance) s (.setMany (k := .var) (.primal r) xs values))
      ((backend tolerance).setMany s (k := .var) (.primal r) xs values).2 := by
  rcases ended : (backend tolerance).setMany s (k := .var) (.primal r) xs values with
    ⟨e | _, after⟩
  case error =>
    rw [written_of_setMany_error ended, setPrimals_error ended]
    exact .nil s
  case ok =>
    rw [written_of_setMany ended]
    by_cases aligned : values.length = xs.length
    · exact puts_of_setPrimals aligned ended
    · rw [setMany_mismatch tolerance s (k := .var) _ aligned] at ended
      cases ended

theorem setInTurn_puts (inTurn : a.toAttribute.allAtOnce = false) (indices : List k.Index)
    (values : List a.Value) :
    Puts s (Operation.written (backend tolerance) s (.setMany a indices values))
      ((backend tolerance).setMany s a indices values).2 := by
  by_cases aligned : values.length = indices.length
  · have other (r : Nat) : a.toAttribute ≠ .var (.primal r) := by
      intro same
      rw [same] at inTurn
      cases inTurn
    have each := setMany_each tolerance s a (writeMany_unhandled other indices) aligned
    rcases ended : (backend tolerance).setMany s a indices values with ⟨e | _, after⟩
    · rw [written_of_setMany_error ended]
      simpa [inTurn, aligned] using puts_of_setEach_error (each.symm.trans ended)
    · rw [written_of_setMany ended]
      exact puts_of_setEach (each.symm.trans ended)
  · have mismatch := setMany_mismatch tolerance s a aligned
    rw [written_of_setMany_error mismatch, mismatch]
    simpa [aligned, writtenAt] using Puts.nil s

theorem setMany_puts (indices : List k.Index) (values : List a.Value) :
    Puts s (Operation.written (backend tolerance) s (.setMany a indices values))
      ((backend tolerance).setMany s a indices values).2 := by
  cases k with
  | constraint t => exact setInTurn_puts rfl indices values
  | var =>
    cases a with
    | primal r => exact setPrimals_puts indices values
    | name | primalStart | basisStatus => exact setInTurn_puts rfl indices values

theorem set_puts (a : GlobalAttribute) (v : a.Value) :
    Puts s (Operation.written (backend tolerance) s (.set a v))
      ((backend tolerance).set s a v).2 := by
  rcases ended : (backend tolerance).set s a v with ⟨e | _, after⟩
  · rw [set_error ended]
    simpa [Operation.written, ended, Except.isOk, Except.toBool] using Puts.nil s
  · simpa [Operation.written, ended, Except.isOk, Except.toBool] using
      Puts.cons (w := ⟨.global a, v⟩) (set_ok ended) (.nil after)

theorem setAt_puts (a : IndexedAttribute k) (index : k.Index) (v : a.Value) :
    Puts s (Operation.written (backend tolerance) s (.setAt a index v))
      ((backend tolerance).setAt s a index v).2 := by
  rcases ended : (backend tolerance).setAt s a index v with ⟨e | _, after⟩
  · rw [(setAt_error ended).1]
    simpa [Operation.written, ended, Except.isOk, Except.toBool] using Puts.nil s
  · simpa [Operation.written, ended, Except.isOk, Except.toBool] using
      Puts.cons (w := ⟨.place ⟨k, a, index⟩, v⟩) (setAt_ok ended) (.nil after)

variable {cell written : Cell} {v : written.Value} {r : Nat}

@[simp]
theorem read_global (a : GlobalAttribute) :
    (Cell.global a).read (backend tolerance) s = s.readGlobal tolerance a := by
  rw [Cell.read, get_eq]

@[simp]
theorem read_place (p : Place) :
    (Cell.place p).read (backend tolerance) s = s.readIndexed p.attr p.index := by
  rw [Cell.read, getAt_eq]

/-- Values of results are neither the number of results nor the objective. -/
private theorem plain_of_result {a : GlobalAttribute}
    (ofResult : (Cell.global a).result? = some r) :
    a.Plain ∧ ¬a.IsObjective := by
  rcases a with p | a
  · cases ofResult
  · cases a <;> first | exact ⟨trivial, id⟩ | cases ofResult

theorem writeCell_write (stored : s.writeCell written v = .ok after) : Write s after := by
  cases written with
  | global a => exact writeGlobal_write stored
  | place p => exact writeIndexed_write stored

theorem Invariant.live_of_stored (valid : s.Invariant)
    (stored : s.writeCell written v = .ok after) : written.Live s := by
  cases written with
  | global a => exact fun i belongs => nomatch belongs
  | place p =>
    rintro i ⟨⟩
    have accepted := valid.refusal?_of_written stored
    by_contra missing
    rw [refusal?_of_missing (Bool.eq_false_iff.mpr missing)] at accepted
    cases accepted

theorem length_results_of_stored (stored : s.writeCell written v = .ok after)
    (other : written ≠ .resultCount) : after.results.length = s.results.length := by
  cases written with
  | global a =>
    have counted : a ≠ .property .resultCount := fun same => other (same ▸ rfl)
    exact (writeGlobal_sameIndexed stored counted).count
  | place p => exact (writeIndexed_stores stored).settings.length_results

theorem Invariant.read_stored (valid : s.Invariant) (ofResult : written.result? = some r)
    (stored : s.writeCell written v = .ok after) :
    written.read (backend tolerance) after = .ok v := by
  cases written with
  | global a =>
    rw [read_global]
    exact writeGlobal_own (plain_of_result ofResult).1 stored
  | place p =>
    rw [read_place]
    exact valid.read_written stored

/-- No write disturbs another value of a result, as long as the results stay. -/
theorem Invariant.read_other (valid : s.Invariant) (stored : s.writeCell written v = .ok after)
    (counted : written ≠ .resultCount) (ofResult : cell.result? = some r)
    (other : cell ≠ written) :
    cell.read (backend tolerance) after = cell.read (backend tolerance) s := by
  have write := writeCell_write stored
  cases written with
  | global a =>
    have counted : a ≠ .property .resultCount := fun same => counted (same ▸ rfl)
    cases cell with
    | place q =>
      exact (valid.set_sameIndexed tolerance stored counted).1 q
    | global b =>
      rw [read_global, read_global]
      rcases a.plain_or with plain | rfl | ⟨f, rfl⟩
      · exact writeGlobal_other plain stored fun same => other (congrArg Cell.global same)
      · exact absurd rfl counted
      · exact writeGlobal_objective stored (plain_of_result ofResult).2
  | place p =>
    cases cell with
    | place q =>
      rw [read_place, read_place]
      exact valid.read_elsewhere stored fun same => other (congrArg Cell.place same)
    | global b =>
      rw [read_global, read_global]
      exact (writeIndexed_stores stored).settings.readGlobal write.sameListings valid
        (write.invariant valid) b

end Store

end SolverProtocol
