import Mathlib.Algebra.GroupWithZero.Nat
import SolverProtocol.Proofs.Store.Access

namespace SolverProtocol.Store

open Number

/-- A call that may change a store. -/
inductive Operation where
  | addVariable
  | addVariables (count : Nat)
  | addConstraint (type : ConstraintType) (row : ConstraintRow type)
  | deleteVariable (x : VariableIndex)
  | deleteConstraint {type : ConstraintType} (c : ConstraintIndex type)
  | set (a : GlobalAttribute) (value : a.Value)
  | setAt {k : IndexKind} (a : IndexedAttribute k) (index : k.Index) (value : a.Value)
  | setMany {k : IndexKind} (a : IndexedAttribute k) (indices : List k.Index)
      (values : List a.Value)

/-- What a call returns: the indices that it hands out, or why it failed. -/
abbrev Returned : Type := Except ProtocolError (List AnyIndex)

/-- The indices that a call hands out. -/
def handedOut : Returned → List AnyIndex
  | .ok indices => indices
  | .error _ => []

/-- What a call deletes. -/
def Operation.deletes : Operation → Returned → List AnyIndex
  | .deleteVariable x, .ok _ => [.var x]
  | .deleteConstraint c, .ok _ => [.constraint c.erase]
  | _, _ => []

/-- A call that adds or deletes something when it succeeds. -/
def Operation.addsOrDeletes : Operation → Bool
  | .set .. | .setAt .. | .setMany .. => false
  | _ => true

/-- A success hands out no index. -/
def handsOutNone : Outcome Store → Returned × Store
  | (.ok (), s) => (.ok [], s)
  | (.error e, s) => (.error e, s)

def perform (tolerance : Binary64) (s : Store) : Operation → Returned × Store
  | .addVariable => (.ok [.var s.addVariable.1], s.addVariable.2)
  | .addVariables count => (.ok ((s.addVariables count).1.map .var), (s.addVariables count).2)
  | .addConstraint t row =>
    (.ok [.constraint (s.addConstraint t row).1.erase], (s.addConstraint t row).2)
  | .deleteVariable x => handsOutNone ((Change.deleteVariable x).outcome s)
  | .deleteConstraint c => handsOutNone ((Change.deleteConstraint c).outcome s)
  | .set a v => handsOutNone ((backend tolerance).set s a v)
  | .setAt a index v => handsOutNone ((backend tolerance).setAt s a index v)
  | .setMany a indices values => handsOutNone ((backend tolerance).setMany s a indices values)

/-- Goes on with every operation, also after one that failed. -/
def run (tolerance : Binary64) (s : Store) : List Operation → Store
  | [] => s
  | op :: ops => run tolerance (s.perform tolerance op).2 ops

def Operation.variablesAdded : Operation → Nat
  | .addVariable => 1
  | .addVariables count => count
  | _ => 0

def Operation.constraintsAdded : Operation → Nat
  | .addConstraint .. => 1
  | _ => 0

def variablesAdded (ops : List Operation) : Nat :=
  (ops.map Operation.variablesAdded).sum

def constraintsAdded (ops : List Operation) : Nat :=
  (ops.map Operation.constraintsAdded).sum

/-- The counters of both kinds of indices stay within 64 bits. -/
structure WithinLimits (ops : List Operation) : Prop where
  ofVariables : variablesAdded ops < 2 ^ 64 - 1
  ofConstraints : constraintsAdded ops < 2 ^ 64 - 1

/-- Some run within the limits leads from the empty store to this one. One tolerance for the whole
run is enough, as no operation depends on it (`perform_tolerance`). -/
def Reachable (s : Store) : Prop :=
  ∃ tolerance ops, WithinLimits ops ∧ run tolerance empty ops = s

@[simp]
theorem handsOutNone_snd (outcome : Outcome Store) : (handsOutNone outcome).2 = outcome.2 := by
  rcases outcome with ⟨_ | _, _⟩ <;> rfl

@[simp]
theorem handedOut_handsOutNone (outcome : Outcome Store) :
    handedOut (handsOutNone outcome).1 = [] := by
  rcases outcome with ⟨_ | _, _⟩ <;> rfl

/-- What one operation preserves, a run preserves. -/
theorem run_preserves {tolerance : Binary64} {P : Store → Prop}
    (step : ∀ s op, P s → P (s.perform tolerance op).2) {s : Store} (start : P s)
    (ops : List Operation) : P (run tolerance s ops) := by
  induction ops generalizing s with
  | nil => exact start
  | cons op ops ih => exact ih (step s op start)

private theorem setEach_tolerance (first second : Binary64) (s : Store) {k : IndexKind}
    (a : IndexedAttribute k) (pairs : List (k.Index × a.Value)) :
    (backend first).setEach s a pairs = (backend second).setEach s a pairs := by
  induction pairs generalizing s with
  | nil => rfl
  | cons pair rest ih =>
    simp only [Backend.setEach, setAt_eq]
    rcases settleChange s (s.writeIndexed a pair.1 pair.2) with ⟨_ | _, after⟩
    · rfl
    · exact ih after

/-- No operation depends on the tolerance in force. -/
theorem perform_tolerance (first second : Binary64) (s : Store) (op : Operation) :
    s.perform first op = s.perform second op := by
  cases op with
  | set a v => simp only [perform, set_eq]
  | setAt a index v => simp only [perform, setAt_eq]
  | setMany a indices values =>
    have same : (backend first).writeMany = (backend second).writeMany := rfl
    simp only [perform, Backend.setMany, same, setEach_tolerance first second]
  | _ => rfl

def upperBound : ConstraintType := ⟨.singleVariable, ⟨.lessThan, .real⟩⟩

def lowerBound : ConstraintType := ⟨.singleVariable, ⟨.greaterThan, .real⟩⟩

def atMostZero (x : Nat) : ConstraintRow upperBound :=
  ⟨(⟨⟨x⟩⟩ : SingleVariable), (⟨.zero⟩ : LessThan Binary64)⟩

def atLeastZero (x : Nat) : ConstraintRow lowerBound :=
  ⟨(⟨⟨x⟩⟩ : SingleVariable), (⟨.zero⟩ : GreaterThan Binary64)⟩

/-- Of two named variables the first is deleted, and so is the only upper bound; another upper bound
comes after the lower bound. -/
def shortRun : List Operation :=
  [.addVariables 2, .setMany (k := .var) .name [⟨1⟩, ⟨2⟩] ["x", "y"],
    .addConstraint upperBound (atMostZero 1), .addConstraint lowerBound (atLeastZero 2),
    .deleteVariable ⟨1⟩, .deleteConstraint (⟨1⟩ : ConstraintIndex upperBound),
    .addConstraint upperBound (atMostZero 2)]

theorem shortRun_reachable : (run .zero empty shortRun).Reachable :=
  ⟨.zero, shortRun, ⟨by decide, by decide⟩, rfl⟩

end SolverProtocol.Store
