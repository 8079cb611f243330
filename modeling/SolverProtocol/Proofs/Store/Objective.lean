import SolverProtocol.Attribute.Answer
import SolverProtocol.Configuration
import SolverProtocol.Proofs.Store.Capability
import SolverProtocol.Proofs.Store.Frame

namespace SolverProtocol

open Number

/-- The attribute that asks for the objective as a function of one type. -/
abbrev GlobalAttribute.objective (f : FunctionType) : GlobalAttribute :=
  .property (.objectiveFunction f)

namespace Store

variable {s after : Store}

/-- The operation stores an objective. -/
def Operation.SetsObjective : Operation → Prop
  | .set a _ => a.IsObjective
  | _ => False

private theorem addVariables_objective (count : Nat) (s : Store) :
    (s.addVariables count).2.objective = s.objective := by
  induction count generalizing s with
  | zero => rfl
  | succ count ih => exact ih s.addVariable.2

private theorem addConstraint_objective (s : Store) (t : ConstraintType) (row : ConstraintRow t) :
    (s.addConstraint t row).2.objective = s.objective := by
  unfold addConstraint addConstraint?
  cases ((s.tables.find? t).getD (.empty t)).as? t <;> rfl

private theorem writeGlobal_keepsObjective {a : GlobalAttribute} {v : a.Value}
    (other : ¬a.IsObjective)
    (written : s.writeGlobal a v = .ok after) : after.objective = s.objective := by
  rcases a with p | a
  · cases written
    cases p <;> rfl
  · cases a with
    | objectiveFunction f => exact absurd trivial other
    | objectiveValue r | primalStatus r | dualStatus r =>
      obtain ⟨old, -, rfl⟩ := updateResult_ok written
      rfl
    | resultCount =>
      simp only [writeGlobal, writeProperty] at written
      split at written <;> cases written
      rfl
    | _ => cases written <;> rfl

private theorem writeIndexed_keepsObjective {k : IndexKind} {a : IndexedAttribute k}
    {index : k.Index} {v : a.Value} (written : s.writeIndexed a index v = .ok after) :
    after.objective = s.objective :=
  (writeIndexed_stores (p := ⟨k, a, index⟩) written).settings.objective

/-- Whatever is added, deleted or written, the objective stays until another one is stored. -/
theorem perform_objective (tolerance : Binary64) (s : Store) {op : Operation}
    (other : ¬op.SetsObjective) : (s.perform tolerance op).2.objective = s.objective := by
  cases op with
  | addVariable => rfl
  | addVariables count => exact addVariables_objective count s
  | addConstraint t row => exact addConstraint_objective s t row
  | deleteVariable x =>
    simp only [perform, handsOutNone_snd, Change.outcome_deleteVariable]
    apply settleChange_preserves (P := (·.objective = s.objective)) rfl
    intro after deleted
    obtain ⟨record, -, rfl⟩ := deleteVariable_ok deleted
    rfl
  | deleteConstraint c =>
    simp only [perform, handsOutNone_snd, Change.outcome_deleteConstraint]
    apply settleChange_preserves (P := (·.objective = s.objective)) rfl
    intro after deleted
    obtain ⟨record, -, rfl⟩ := deleteConstraint_ok deleted
    rfl
  | set a v =>
    simp only [perform, handsOutNone_snd, set_eq]
    apply settleChange_preserves (P := (·.objective = s.objective)) rfl
    intro after written
    exact writeGlobal_keepsObjective other written
  | setAt a index v =>
    simp only [perform, handsOutNone_snd, setAt_eq]
    apply settleChange_preserves (P := (·.objective = s.objective)) rfl
    intro after written
    exact writeIndexed_keepsObjective written
  | setMany a indices values =>
    simp only [perform, handsOutNone_snd]
    apply setMany_preserves (P := (·.objective = s.objective)) tolerance _ _ rfl
    · intro middle after index v same written
      exact (writeIndexed_keepsObjective written).trans same
    · intro middle after r xs values same written
      rw [writePrimals_ok written]
      exact same

end Store

/-- A store in a process, whose tolerance counts whenever a function is converted. -/
structure Session where
  configuration : Configuration := {}
  store : Store := .empty

/-- What may happen in a session: a call, or an attempt to replace the configuration. -/
inductive Event where
  | call (op : Store.Operation)
  | configure (attempt : Except ConfigurationError Configuration)

/-- An objective is stored. -/
abbrev Event.setObjective {source : FunctionType} (g : source.Carrier) : Event :=
  .call (.set (.objective source) g)

/-- The call that the event makes, if any. -/
def Event.call? : Event → Option Store.Operation
  | .call op => some op
  | .configure _ => none

/-- The event stores an objective. -/
def Event.SetsObjective : Event → Prop
  | .call op => op.SetsObjective
  | .configure _ => False

namespace Session

variable (session : Session)

/-- The tolerance in force. -/
abbrev tolerance : Binary64 := session.configuration.conversionTolerance

abbrev backend : Backend Store := Store.backend session.tolerance

/-- The objective, read as a function of one type. -/
def objectiveAs (target : FunctionType) : Except ProtocolError target.Carrier :=
  (session.backend.get session.store (.objective target)).1

def step : Event → Session
  | .call op => { session with store := (session.store.perform session.tolerance op).2 }
  | .configure attempt => { session with configuration := session.configuration.adopt attempt }

def run (session : Session) : List Event → Session
  | [] => session
  | event :: events => run (session.step event) events

/-- The store is left as the calls alone leave it, whatever tolerance is in force at each. -/
theorem run_store (tolerance : Binary64) (events : List Event) :
    (session.run events).store =
      Store.run tolerance session.store (events.filterMap Event.call?) := by
  induction events generalizing session with
  | nil => rfl
  | cons event events ih =>
    rw [run, ih]
    cases event with
    | call op =>
      rw [step, Store.perform_tolerance session.tolerance tolerance]
      rfl
    | configure attempt => rfl

/-- What holds of every reachable store holds in every session that starts from the empty one. -/
theorem reachable_run {events : List Event} (start : session.store = .empty)
    (limits : Store.WithinLimits (events.filterMap Event.call?)) :
    (session.run events).store.Reachable :=
  ⟨session.tolerance, _, limits, by rw [session.run_store session.tolerance events, start]⟩

theorem step_objective {event : Event} (other : ¬event.SetsObjective) :
    (session.step event).store.objective = session.store.objective := by
  cases event with
  | call op => exact Store.perform_objective session.tolerance session.store other
  | configure attempt => rfl

theorem run_objective {events : List Event} (others : ∀ event ∈ events, ¬event.SetsObjective) :
    (session.run events).store.objective = session.store.objective := by
  induction events generalizing session with
  | nil => rfl
  | cons event events ih =>
    obtain ⟨first, rest⟩ := List.forall_mem_cons.mp others
    exact (ih (session.step event) rest).trans (session.step_objective first)

/-- An objective is never refused, and nothing is left of an earlier one. -/
theorem set_objective {source : FunctionType} (g : source.Carrier) :
    session.backend.set session.store (.objective source) g =
      (.ok (), { session.store with objective := ⟨source, source.toCanonical g⟩ }) :=
  Store.set_eq session.tolerance session.store (.objective source) g

theorem step_setObjective {source : FunctionType} (g : source.Carrier) :
    session.step (.setObjective g) =
      { session with
        store := { session.store with objective := ⟨source, source.toCanonical g⟩ } } := by
  change { session with store := (Store.handsOutNone (session.backend.set ..)).2 } = _
  rw [Store.handsOutNone_snd]
  exact congrArg (fun outcome => { session with store := outcome.2 }) (session.set_objective g)

end Session

/-- The objective of a session is read as what a conversion of `g` comes to. -/
structure ReadsAsConversion (session : Session) {source : FunctionType} (g : source.Carrier) :
    Prop where
  get : ∀ target, session.objectiveAs target = convert target session.tolerance g
  canGet_iff : ∀ target,
    session.backend.canGet session.store (.global (.objective target)) = true ↔
      Succeeds (convert target session.tolerance g)
  /-- The error names both types, and why the function is not one of the second. -/
  error_iff : ∀ target e, convert target session.tolerance g = .error e ↔
    ∃ reason, target.ofCanonical session.tolerance (source.toCanonical g) = .error reason ∧
      e = .conversionImpossible source target reason

theorem convertCanonical_error_iff {target source : FunctionType} {tolerance : Binary64}
    {q : Canonical} {e : ProtocolError} :
    convertCanonical target source tolerance q = .error e ↔
      ∃ reason, target.ofCanonical tolerance q = .error reason ∧
        e = .conversionImpossible source target reason := by
  unfold convertCanonical
  cases target.ofCanonical tolerance q <;> simp [Except.mapError, eq_comm]

theorem represents_iff (target source : FunctionType) (tolerance : Binary64) (q : Canonical) :
    target.represents tolerance q = true ↔
      Succeeds (convertCanonical target source tolerance q) := by
  rw [← Store.isOk_convertCanonical target source q, isOk_iff]
  rfl

theorem readsAsConversion {session : Session} {source : FunctionType} {g : source.Carrier}
    (stored : session.store.objective = ⟨source, source.toCanonical g⟩) :
    ReadsAsConversion session g where
  get target := by
    rw [Session.objectiveAs, Store.get_eq]
    change convertCanonical target session.store.objective.source _ _ = _
    rw [stored]
    rfl
  canGet_iff target := by
    change target.represents session.tolerance session.store.objective.function = true ↔ _
    rw [stored]
    exact represents_iff ..
  error_iff target e := convertCanonical_error_iff

/-- The answers of an attribute that asks for the objective as a function of one type, given a
canonical form first written as a `source` and a slot for such functions. -/
structure AnswersAgree (target source : FunctionType) (tolerance : Binary64) (q : Canonical)
    (slot : Option (ValueType.function target).Carrier) : Prop where
  represents_iff :
    (Attribute.global (.objective target)).representsObjective tolerance q = some true ↔
      ((Attribute.global (.objective target)).fillFromObjective tolerance source q slot).1 =
        some (.ok ())
  filled : ∀ h, convertCanonical target source tolerance q = .ok h →
    (Attribute.global (.objective target)).fillFromObjective tolerance source q slot =
      (some (.ok ()), some h)
  failed : ∀ e, convertCanonical target source tolerance q = .error e →
    (Attribute.global (.objective target)).fillFromObjective tolerance source q slot =
      (some (.error e), slot)
  /-- A slot gives what is in it once, and is empty afterwards. -/
  drained :
    (Attribute.global (.objective target)).drainObjective slot =
      (slot.map fun h => (target, target.toCanonical h), none)

theorem answersAgree (target source : FunctionType) (tolerance : Binary64) (q : Canonical)
    (slot : Option (ValueType.function target).Carrier) :
    AnswersAgree target source tolerance q slot where
  represents_iff := by
    change some (target.represents tolerance q) = some true ↔ _
    rw [Option.some_inj, represents_iff target source]
    cases converted : convertCanonical target source tolerance q <;>
      simp [Succeeds, Attribute.fillFromObjective, Attribute.functionType?, converted]
  filled h converted := by
    simp [Attribute.fillFromObjective, Attribute.functionType?, converted]
  failed e impossible := by
    simp [Attribute.fillFromObjective, Attribute.functionType?, impossible]
  drained := by
    cases slot <;> simp [Attribute.drainObjective, Attribute.functionType?]

/-- What comes of storing the objective `g`, followed by other events. -/
structure ObjectiveConverts (session : Session) {source : FunctionType} (g : source.Carrier)
    (events : List Event) : Prop where
  succeeds : (session.backend.set session.store (.objective source) g).1 = .ok ()
  forgets : ∀ {f : FunctionType} (earlier : f.Carrier),
    session.run [.setObjective earlier, .setObjective g] = session.run [.setObjective g]
  reads : ReadsAsConversion (session.run (.setObjective g :: events)) g
  answers : ∀ target source tolerance q slot, AnswersAgree target source tolerance q slot

/-- The objective is read as the function that was stored last, converted within the tolerance in
force at the time of the read. -/
theorem objective_converts (session : Session) {source : FunctionType} (g : source.Carrier)
    {events : List Event} (others : ∀ event ∈ events, ¬event.SetsObjective) :
    ObjectiveConverts session g events where
  succeeds := congrArg Prod.fst (session.set_objective g)
  forgets earlier := by
    simp only [Session.run, Session.step_setObjective]
  reads := by
    have kept := (session.step (.setObjective g)).run_objective others
    apply readsAsConversion
    rw [Session.run, kept, Session.step_setObjective]
  answers := answersAgree

/-- The function `x1`, as an affine one with integer coefficients. -/
def firstVariable : AffineFunction Int64 := ⟨[⟨1, ⟨1⟩⟩], 0⟩

/-- The tolerance is given up, and the variable of the objective is deleted. -/
def laterEvents : List Event :=
  [.configure (.ok { conversionTolerance := .zero }), .call (.deleteVariable ⟨1⟩)]

theorem firstVariable_outlives_variable :
    (∀ event ∈ laterEvents, ¬event.SetsObjective) ∧
      let session := (Session.run {} [.call .addVariable]).run
        (@Event.setObjective (.affine .integer) firstVariable :: laterEvents)
      session.store.isLive (.var ⟨1⟩) = false ∧
        ∃ h, session.objectiveAs .singleVariable = .ok h := by
  have others : ∀ event ∈ laterEvents, ¬event.SetsObjective :=
    List.forall_mem_cons.mpr ⟨id, List.forall_mem_singleton.mpr id⟩
  have converts := @objective_converts (Session.run {} [.call .addVariable]) (.affine .integer)
    firstVariable _ others
  have possible :
      FunctionType.singleVariable.represents .zero firstVariable.toCanonical = true := by
    decide +kernel
  obtain ⟨h, converted⟩ := (represents_iff _ (.affine .integer) _ _).mp possible
  exact ⟨others, rfl, h, (converts.reads.get .singleVariable).trans converted⟩

end SolverProtocol
