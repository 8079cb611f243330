import SolverProtocol.Proofs.Request.Exchange
import SolverProtocol.Request.Read

namespace SolverProtocol

variable {k : IndexKind}

private theorem isOk_put (a : Attribute) {τ : ValueType} (value : Value) (slot : Option τ.Carrier) :
    (put a value slot).1.isOk = (ValueType.cast? τ value.2).isSome := by
  unfold put
  cases ValueType.cast? τ value.2 <;> rfl

private theorem put_snd (a : Attribute) {τ : ValueType} (value : Value) (slot : Option τ.Carrier) :
    (put a value slot).2 = (ValueType.cast? τ value.2).or slot := by
  unfold put
  cases ValueType.cast? τ value.2 <;> rfl

namespace Reply

/-- What a reply gives to a request for `a`, if that is of the type of `a`. -/
def given? (a : GlobalAttribute) : Reply → Option a.Value
  | .value v => ValueType.cast? a.valueType v.2
  | .fromIndices indices =>
    ((Attribute.global a).ofIndices? indices).bind fun v => ValueType.cast? a.valueType v.2
  | .fromObjective tolerance source q =>
    (Attribute.global a).functionType?.bind fun f =>
      (convertCanonical f source tolerance q).toOption.bind fun g =>
        ValueType.cast? (σ := .function f) a.valueType g

def accepted : (reply : Reply) → reply.Response → Bool
  | .value _, outcome => outcome.isOk
  | .fromIndices _, answered => answered
  | .fromObjective .., .ok answered => answered
  | .fromObjective .., .error _ => false

/-- The objective is accepted if it is asked for and can be converted. -/
private theorem deliver_objective (a : GlobalAttribute) (tolerance : Number.Binary64)
    (source : FunctionType) (q : Canonical) (slot : Option a.Value) :
    let reply := Reply.fromObjective tolerance source q
    accepted reply (deliver a reply slot).1 = (given? a reply).isSome ∧
      (deliver a reply slot).2 = (given? a reply).or slot := by
  cases asked : (Attribute.global a).functionType? with
  | none => simp [deliver, Attribute.fillFromObjective, given?, accepted, asked]
  | some f =>
    obtain rfl := Attribute.functionType?_eq_some_iff.1 asked
    have type : ValueType.function f =
        (GlobalAttribute.property (.objectiveFunction f)).valueType := rfl
    simp only [deliver, Attribute.fillFromObjective, given?, asked, Option.bind_some, dif_pos type]
    cases convertCanonical f source tolerance q with
    | error e => exact ⟨rfl, rfl⟩
    | ok g =>
      have given : ValueType.cast? (σ := .function f)
          (GlobalAttribute.property (.objectiveFunction f)).valueType g = some g :=
        ValueType.cast?_self (τ := .function f) g
      simp only [Except.toOption, Option.bind_some, given]
      exact ⟨rfl, rfl⟩

/-- The listing or count is accepted if it is what is asked for. -/
private theorem deliver_indices (a : GlobalAttribute) (indices : List AnyConstraintIndex)
    (slot : Option a.Value) :
    let reply := Reply.fromIndices indices
    accepted reply (deliver a reply slot).1 = (given? a reply).isSome ∧
      (deliver a reply slot).2 = (given? a reply).or slot := by
  simp only [deliver, Attribute.fillFromIndices, given?, accepted]
  cases ((Attribute.global a).ofIndices? indices).bind fun v => ValueType.cast? a.valueType v.2 with
  | none => exact ⟨rfl, rfl⟩
  | some v => exact ⟨rfl, rfl⟩

theorem deliver_fills (a : GlobalAttribute) : Fills (deliver a) (given? a) accepted := by
  constructor
  case accepts =>
    intro reply slot
    cases reply with
    | value v => exact isOk_put (.global a) v slot
    | fromIndices indices => exact (deliver_indices a indices slot).1
    | fromObjective tolerance source q => exact (deliver_objective a tolerance source q slot).1
  case fills =>
    intro reply slot
    cases reply with
    | value v => exact put_snd (.global a) v slot
    | fromIndices indices => exact (deliver_indices a indices slot).2
    | fromObjective tolerance source q => exact (deliver_objective a tolerance source q slot).2

end Reply

namespace IndexedReply

def given? (a : IndexedAttribute k) (reply : IndexedReply) : Option a.Value :=
  ValueType.cast? a.valueType reply.value.2

def accepted (_ : IndexedReply) (outcome : Except ProtocolError Unit) : Bool :=
  outcome.isOk

theorem deliver_fills (a : IndexedAttribute k) : Fills (deliver a) (given? a) accepted :=
  ⟨fun reply slot => isOk_put a.toAttribute reply.value slot,
    fun reply slot => put_snd a.toAttribute reply.value slot⟩

end IndexedReply

namespace BulkReply

/-- What a reply gives to a request for `a` at `count` indices, if it is as many values of the type
of `a`. -/
def given? (a : IndexedAttribute k) (count : Nat) (reply : BulkReply) : Option a.Values :=
  if reply.values.length = count then
    ValueType.cast? (σ := .list reply.type) (.list a.valueType) reply.values
  else none

def accepted (_ : BulkReply) (outcome : Except ProtocolError Unit) : Bool :=
  outcome.isOk

theorem deliver_fills (a : IndexedAttribute k) (count : Nat) :
    Fills (deliver a count) (given? a count) accepted := by
  constructor
  case accepts =>
    intro reply slot
    by_cases aligned : reply.values.length = count
    · simp only [deliver, given?, if_pos aligned]
      exact isOk_put _ _ _
    · simp [deliver, given?, accepted, aligned, Except.isOk, Except.toBool]
  case fills =>
    intro reply slot
    by_cases aligned : reply.values.length = count
    · simp only [deliver, given?, if_pos aligned]
      exact put_snd _ _ _
    · simp [deliver, given?, aligned]

theorem length_given? {a : IndexedAttribute k} {count : Nat} {reply : BulkReply}
    {values : List a.Value} (gave : given? a count reply = some values) :
    values.length = count := by
  rcases reply with ⟨type, given⟩
  unfold given? at gave
  split at gave
  case isFalse => cases gave
  case isTrue aligned =>
    by_cases same : type = a.valueType
    · cases same
      simp only [ValueType.cast?_self, Option.some.injEq] at gave
      exact gave ▸ aligned
    · rw [ValueType.cast?_of_ne _ (by simpa using same)] at gave
      cases gave

end BulkReply

end SolverProtocol
