import SolverProtocol.Proofs.Store.History

namespace SolverProtocol.Store

open Number

variable {s after : Store} {tolerance : Binary64} {n : String}

/-- The name of a variable, as it is read. -/
def nameOfVariable (B : Backend Store) (s : Store) (x : VariableIndex) :
    Except ProtocolError String :=
  (B.getAt s (k := .var) .name x).1

/-- The name of a constraint of any type, as it is read. -/
def nameOfConstraint (B : Backend Store) (s : Store) (c : AnyConstraintIndex) :
    Except ProtocolError String :=
  (B.getAt s (k := .constraint c.type) .name ⟨c.value⟩).1

def renameVariable (B : Backend Store) (s : Store) (x : VariableIndex) (name : String) :
    Outcome Store :=
  B.setAt s (k := .var) .name x name

def renameConstraint (B : Backend Store) (s : Store) {t : ConstraintType} (c : ConstraintIndex t)
    (name : String) : Outcome Store :=
  B.setAt s (k := .constraint t) .name c name

theorem nameOfVariable_eq_ok_iff {x : VariableIndex} :
    nameOfVariable (backend tolerance) s x = .ok n ↔
      nameOf? s.variableRecords VariableRecord.name x = some n := by
  simp only [nameOfVariable, getAt_eq]
  change s.readVariable .name x = .ok n ↔ _
  unfold readVariable nameOf?
  cases s.variableRecords.find? x with
  | none => constructor <;> intro impossible <;> cases impossible
  | some record => exact ⟨fun read => congrArg some (Except.ok.inj read),
      fun named => congrArg Except.ok (Option.some.inj named)⟩

theorem nameOfConstraint_eq_ok_iff {c : AnyConstraintIndex} :
    nameOfConstraint (backend tolerance) s c = .ok n ↔
      nameOf? s.constraintRecords ConstraintRecord.name c = some n := by
  simp only [nameOfConstraint, getAt_eq]
  change s.readConstraint (t := c.type) .name ⟨c.value⟩ = .ok n ↔ _
  unfold readConstraint nameOf?
  have erased : (⟨c.value⟩ : ConstraintIndex c.type).erase = c := rfl
  rw [erased]
  cases s.constraintRecords.find? c with
  | none => constructor <;> intro impossible <;> cases impossible
  | some record => exact ⟨fun read => congrArg some (Except.ok.inj read),
      fun named => congrArg Except.ok (Option.some.inj named)⟩

theorem Invariant.indexByName_var_iff (valid : s.Invariant) {x : VariableIndex} :
    (backend tolerance).indexByName s .var n = .ok x ↔
      n ≠ "" ∧ s.isLive (.var x) = true ∧ nameOfVariable (backend tolerance) s x = .ok n := by
  rw [indexByName_var, resolved_eq_ok_iff, valid.named.ofVariables n x, nameOfVariable_eq_ok_iff,
    isLive, OrderedMap.contains_iff]
  refine and_congr_right fun _ => ?_
  exact ⟨fun named => ⟨mem_keys_of_nameOf? named, named⟩, And.right⟩

theorem Invariant.constraintByName_iff (valid : s.Invariant) {c : AnyConstraintIndex} :
    (backend tolerance).constraintByName s n = .ok c ↔
      n ≠ "" ∧ s.isLive (.constraint c) = true ∧
        nameOfConstraint (backend tolerance) s c = .ok n := by
  rw [constraintByName_eq, resolved_eq_ok_iff, valid.named.ofConstraints n c,
    nameOfConstraint_eq_ok_iff, isLive, OrderedMap.contains_iff]
  refine and_congr_right fun _ => ?_
  exact ⟨fun named => ⟨mem_keys_of_nameOf? named, named⟩, And.right⟩

theorem indexByName_constraint_iff {t : ConstraintType} {c : ConstraintIndex t} :
    (backend tolerance).indexByName s (.constraint t) n = .ok c ↔
      (backend tolerance).constraintByName s n = .ok c.erase := by
  rw [indexByName_constraint, resolved_eq_ok_iff, constraintByName_eq, resolved_eq_ok_iff,
    Option.bind_eq_some_iff]
  constructor
  · rintro ⟨found, holder, typed⟩
    rw [holder, AnyConstraintIndex.as?_eq_some_iff.mp typed]
  · intro holder
    exact ⟨c.erase, holder, AnyConstraintIndex.as?_eq_some_iff.mpr rfl⟩

theorem indexByName_constraint_foreign {t : ConstraintType} {c : AnyConstraintIndex}
    (found : (backend tolerance).constraintByName s n = .ok c) (foreign : c.type ≠ t) :
    (backend tolerance).indexByName s (.constraint t) n =
      .error (.nameNotFound (.constraint t) n kind) := by
  rw [constraintByName_eq, resolved_eq_ok_iff] at found
  rw [indexByName_constraint, found, Option.bind_some, AnyConstraintIndex.as?, if_neg foreign]
  rfl

/-- Nothing deleted is found again. -/
theorem Reflects.not_found {history : History} (reflects : Reflects history s)
    (other : Binary64) (more : List Operation) :
    (∀ x, .var x ∈ history.deleted →
      (backend tolerance).indexByName (Store.run other s more) .var n ≠ .ok x) ∧
    ∀ c, .constraint c ∈ history.deleted →
      (backend tolerance).constraintByName (Store.run other s more) n ≠ .ok c := by
  have valid := (reflects.run other more).valid
  constructor
  · intro x deleted found
    obtain ⟨-, live, -⟩ := valid.indexByName_var_iff.mp found
    exact Bool.false_ne_true ((reflects.gone deleted other more).symm.trans live)
  · intro c deleted found
    obtain ⟨-, live, -⟩ := valid.constraintByName_iff.mp found
    exact Bool.false_ne_true ((reflects.gone deleted other more).symm.trans live)

/-- The variable may have the name: it is empty, or no other live variable has it. -/
def FreeForVariable (B : Backend Store) (s : Store) (x : VariableIndex) (n : String) : Prop :=
  n = "" ∨ ∀ y, s.isLive (.var y) = true → nameOfVariable B s y = .ok n → y = x

/-- The constraint may have the name: it is empty, or no other live constraint of any type has
it. -/
def FreeForConstraint (B : Backend Store) (s : Store) (c : AnyConstraintIndex) (n : String) :
    Prop :=
  n = "" ∨ ∀ d, s.isLive (.constraint d) = true → nameOfConstraint B s d = .ok n → d = c

theorem Invariant.freeForVariable_iff (valid : s.Invariant) {x : VariableIndex} :
    FreeForVariable (backend tolerance) s x n ↔ nameTaken s.variableNames x n = false := by
  rw [valid.named.ofVariables.nameTaken_eq_false_iff]
  refine or_congr_right (forall_congr' fun y => ?_)
  rw [nameOfVariable_eq_ok_iff, isLive, OrderedMap.contains_iff]
  exact ⟨fun free named => free (mem_keys_of_nameOf? named) named, fun free _ => free⟩

theorem Invariant.freeForConstraint_iff (valid : s.Invariant) {c : AnyConstraintIndex} :
    FreeForConstraint (backend tolerance) s c n ↔ nameTaken s.constraintNames c n = false := by
  rw [valid.named.ofConstraints.nameTaken_eq_false_iff]
  refine or_congr_right (forall_congr' fun d => ?_)
  rw [nameOfConstraint_eq_ok_iff, isLive, OrderedMap.contains_iff]
  exact ⟨fun free named => free (mem_keys_of_nameOf? named) named, fun free _ => free⟩

private theorem renameVariable_eq (x : VariableIndex) :
    renameVariable (backend tolerance) s x n = settleChange s (s.writeVariable .name x n) :=
  setAt_eq ..

private theorem renameConstraint_eq {t : ConstraintType} (c : ConstraintIndex t) :
    renameConstraint (backend tolerance) s c n = settleChange s (s.writeConstraint .name c n) :=
  setAt_eq ..

private theorem renameVariable_fst {x : VariableIndex} (live : s.isLive (.var x) = true) :
    (renameVariable (backend tolerance) s x n).1 =
      if nameTaken s.variableNames x n then .error (.duplicateName .var n) else .ok () := by
  obtain ⟨record, found⟩ := OrderedMap.mem_keys_iff.mp (OrderedMap.contains_iff.mp live)
  rw [renameVariable_eq]
  unfold writeVariable
  simp only [found]
  split <;> rfl

private theorem renameConstraint_fst {t : ConstraintType} {c : ConstraintIndex t}
    (live : s.isLive (.constraint c.erase) = true) :
    (renameConstraint (backend tolerance) s c n).1 =
      if nameTaken s.constraintNames c.erase n then .error (.duplicateName .anyConstraint n)
      else .ok () := by
  obtain ⟨record, found⟩ := OrderedMap.mem_keys_iff.mp (OrderedMap.contains_iff.mp live)
  rw [renameConstraint_eq]
  unfold writeConstraint
  simp only [found]
  split <;> rfl

/-- Renaming a variable concerns no name of a constraint. -/
private theorem renameVariable_constraintNames (x : VariableIndex) :
    (renameVariable (backend tolerance) s x n).2.constraintNames = s.constraintNames := by
  rw [renameVariable_eq]
  unfold writeVariable
  cases s.variableRecords.find? x with
  | none => rfl
  | some record =>
    dsimp only
    split <;> rfl

/-- Renaming a constraint concerns no name of a variable. -/
private theorem renameConstraint_variableNames {t : ConstraintType} (c : ConstraintIndex t) :
    (renameConstraint (backend tolerance) s c n).2.variableNames = s.variableNames := by
  rw [renameConstraint_eq]
  unfold writeConstraint
  cases s.constraintRecords.find? c.erase with
  | none => rfl
  | some record =>
    dsimp only
    split <;> rfl

/-- How names, lookups and renaming go together in a store. -/
structure NamesInverse (B : Backend Store) (s : Store) : Prop where
  variableByName : ∀ n x, B.indexByName s .var n = .ok x ↔
    n ≠ "" ∧ s.isLive (.var x) = true ∧ nameOfVariable B s x = .ok n
  constraintByName : ∀ n c, B.constraintByName s n = .ok c ↔
    n ≠ "" ∧ s.isLive (.constraint c) = true ∧ nameOfConstraint B s c = .ok n
  typedByName : ∀ n t (c : ConstraintIndex t),
    B.indexByName s (.constraint t) n = .ok c ↔ B.constraintByName s n = .ok c.erase
  foreignByName : ∀ n t c, B.constraintByName s n = .ok c → c.type ≠ t →
    B.indexByName s (.constraint t) n = .error (.nameNotFound (.constraint t) n kind)
  distinctVariables : ∀ n x y, n ≠ "" → nameOfVariable B s x = .ok n →
    nameOfVariable B s y = .ok n → x = y
  distinctConstraints : ∀ n c d, n ≠ "" → nameOfConstraint B s c = .ok n →
    nameOfConstraint B s d = .ok n → c = d
  /-- A deleted variable is not found, however the run goes on. -/
  forgottenVariable : ∀ x after, s.deleteVariable x = .ok after → ∀ other more n,
    B.indexByName (Store.run other after more) .var n ≠ .ok x
  forgottenConstraint : ∀ t (c : ConstraintIndex t) after, s.deleteConstraint c = .ok after →
    ∀ other more n, B.constraintByName (Store.run other after more) n ≠ .ok c.erase ∧
      B.indexByName (Store.run other after more) (.constraint t) n ≠ .ok c
  renamesVariable : ∀ x, s.isLive (.var x) = true → ∀ n, FreeForVariable B s x n →
    (renameVariable B s x n).1 = .ok ()
  refusesVariable : ∀ x, s.isLive (.var x) = true → ∀ n, ¬FreeForVariable B s x n →
    (renameVariable B s x n).1 = .error (.duplicateName .var n)
  renamesConstraint : ∀ t (c : ConstraintIndex t), s.isLive (.constraint c.erase) = true →
    ∀ n, FreeForConstraint B s c.erase n → (renameConstraint B s c n).1 = .ok ()
  refusesConstraint : ∀ t (c : ConstraintIndex t), s.isLive (.constraint c.erase) = true →
    ∀ n, ¬FreeForConstraint B s c.erase n →
      (renameConstraint B s c n).1 = .error (.duplicateName .anyConstraint n)
  /-- Variables and constraints do not get in the way of each other. -/
  scopeOfVariables : ∀ x n name,
    B.constraintByName (renameVariable B s x n).2 name = B.constraintByName s name
  scopeOfConstraints : ∀ t (c : ConstraintIndex t) n name,
    B.indexByName (renameConstraint B s c n).2 .var name = B.indexByName s .var name

theorem names_inverse (reachable : s.Reachable) (tolerance : Binary64) :
    NamesInverse (backend tolerance) s := by
  have valid := reachable.invariant
  obtain ⟨history, reflects⟩ := reachable.reflects
  constructor
  case variableByName => exact fun n x => valid.indexByName_var_iff
  case constraintByName => exact fun n c => valid.constraintByName_iff
  case typedByName => exact fun n t c => indexByName_constraint_iff
  case foreignByName =>
    intro n t c found foreign
    exact indexByName_constraint_foreign found foreign
  case distinctVariables =>
    intro n x y named first second
    rw [nameOfVariable_eq_ok_iff] at first second
    exact valid.named.ofVariables.unique named first second
  case distinctConstraints =>
    intro n c d named first second
    rw [nameOfConstraint_eq_ok_iff] at first second
    exact valid.named.ofConstraints.unique named first second
  case forgottenVariable =>
    intro x after deleted other more n
    obtain ⟨gone, -⟩ := (reflects.deleteVariable deleted).not_found other more
    exact gone x (List.mem_append_right _ (List.mem_singleton_self _))
  case forgottenConstraint =>
    intro t c after deleted other more n
    obtain ⟨-, gone⟩ := (reflects.deleteConstraint deleted).not_found other more
    have missing := gone c.erase (List.mem_append_right _ (List.mem_singleton_self _))
    exact ⟨missing, fun found => missing (indexByName_constraint_iff.mp found)⟩
  case renamesVariable =>
    intro x live n free
    rw [renameVariable_fst live, valid.freeForVariable_iff.mp free]
    rfl
  case refusesVariable =>
    intro x live n taken
    rw [valid.freeForVariable_iff, Bool.not_eq_false] at taken
    rw [renameVariable_fst live, taken]
    rfl
  case renamesConstraint =>
    intro t c live n free
    rw [renameConstraint_fst live, valid.freeForConstraint_iff.mp free]
    rfl
  case refusesConstraint =>
    intro t c live n taken
    rw [valid.freeForConstraint_iff, Bool.not_eq_false] at taken
    rw [renameConstraint_fst live, taken]
    rfl
  case scopeOfVariables =>
    intro x n name
    rw [constraintByName_eq, constraintByName_eq, renameVariable_constraintNames]
  case scopeOfConstraints =>
    intro t c n name
    rw [indexByName_var, indexByName_var, renameConstraint_variableNames]

theorem shortRun_takes_over_name :
    (Store.run .zero empty shortRun).Reachable ∧
      (∀ x, (backend .zero).indexByName (Store.run .zero empty shortRun) .var "y" = .ok x ↔
        "y" ≠ "" ∧ (Store.run .zero empty shortRun).isLive (.var x) = true ∧
          nameOfVariable (backend .zero) (Store.run .zero empty shortRun) x = .ok "y") ∧
      (renameVariable (backend .zero) (Store.run .zero empty shortRun) ⟨2⟩ "x").1 = .ok () := by
  have inverse := names_inverse shortRun_reachable .zero
  have live : (Store.run .zero empty shortRun).isLive (.var ⟨2⟩) = true := by decide
  have free : nameTaken (Store.run .zero empty shortRun).variableNames ⟨2⟩ "x" = false := by decide
  have valid := shortRun_reachable.invariant
  refine ⟨shortRun_reachable, fun x => inverse.variableByName "y" x, ?_⟩
  exact inverse.renamesVariable ⟨2⟩ live "x" (valid.freeForVariable_iff.mpr free)

end SolverProtocol.Store
