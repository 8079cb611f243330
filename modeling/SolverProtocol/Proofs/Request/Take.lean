import SolverProtocol.Proofs.Request.Exchange
import SolverProtocol.Request.Write

namespace SolverProtocol

namespace Take

def delivered : (take : Take) → take.Response → Bool
  | .value _, got => got.isSome
  | .objective, got => got.isSome

/-- The exchanges that hand out the value of a request for a global attribute: as it is, or an
objective in canonical form with its type. -/
inductive Hands : (a : GlobalAttribute) → a.Value → Exchange Response → Prop where
  | value (a : GlobalAttribute) (v : a.Value) : Hands a v ⟨.value a, (some v : Option a.Value)⟩
  | objective (f : FunctionType) (g : f.Carrier) :
    Hands (.property (.objectiveFunction f)) g
      ⟨.objective, (some (f, f.toCanonical g) : Option (FunctionType × Canonical))⟩

theorem refuses_value {a b : GlobalAttribute} (other : a ≠ b) (slot : Option a.Value) :
    deliver a (.value b) slot = ((none : Option b.Value), slot) :=
  dif_neg other

theorem refuses_objective {a : GlobalAttribute}
    (other : ∀ f, a ≠ .property (.objectiveFunction f)) (slot : Option a.Value) :
    deliver a .objective slot = ((none : Option (FunctionType × Canonical)), slot) := by
  cases asked : (Attribute.global a).functionType? with
  | none =>
    unfold deliver Attribute.drainObjective
    rw [asked]
  | some f => exact absurd (Attribute.functionType?_eq_some_iff.1 asked) (other f)

private theorem deliver_own (a : GlobalAttribute) (slot : Option a.Value) :
    deliver a (.value a) slot = ((slot : Option a.Value), none) :=
  dif_pos rfl

private theorem deliver_objective (f : FunctionType)
    (slot : Option (GlobalAttribute.Value (.property (.objectiveFunction f)))) :
    deliver (.property (.objectiveFunction f)) .objective slot =
      ((slot.map fun g => (f, f.toCanonical g) : Option (FunctionType × Canonical)), none) := by
  have drained (slot : Option f.Carrier) :
      (Attribute.global (.property (.objectiveFunction f))).drainObjective (τ := .function f) slot =
        (slot.map fun g => (f, f.toCanonical g), none) := by
    cases slot <;> simp [Attribute.drainObjective, Attribute.functionType?]
  exact drained slot

theorem deliver_handsOut (a : GlobalAttribute) : HandsOut (deliver a) delivered (Hands a) := by
  intro take
  cases take with
  | value b =>
    by_cases same : a = b
    · subst same
      right
      constructor
      case empties => exact fun slot => by rw [deliver_own]
      case delivers => exact fun slot => by rw [deliver_own]; rfl
      case hands => exact fun v => by rw [deliver_own]; exact .value a v
    · left
      constructor
      case keeps => exact fun slot => by rw [refuses_value same]
      case nothing => exact fun slot => by rw [refuses_value same]; rfl
  | objective =>
    by_cases asks : ∃ f, a = .property (.objectiveFunction f)
    · obtain ⟨f, rfl⟩ := asks
      right
      constructor
      case empties => exact fun slot => by rw [deliver_objective]
      case delivers => exact fun slot => by rw [deliver_objective]; exact Option.isSome_map
      case hands => exact fun g => by rw [deliver_objective]; exact .objective f g
    · have other (f : FunctionType) (same : a = .property (.objectiveFunction f)) : False :=
        asks ⟨f, same⟩
      left
      constructor
      case keeps => exact fun slot => by rw [refuses_objective other]
      case nothing => exact fun slot => by rw [refuses_objective other]; rfl

end Take

namespace IndexedTake

variable {k : IndexKind} {take : IndexedTake}

section Give

variable {α : Type} {σ τ : ValueType} {asked wanted : Attribute} {found : Option α}

private theorem give_refused (refused : found = none ∨ asked ≠ wanted ∨ σ ≠ τ)
    (slot : Option σ.Carrier) :
    give asked wanted found τ slot = (none, slot) := by
  cases found with
  | none => rfl
  | some indices =>
    refine if_neg ?_
    rintro ⟨sameAttr, sameType⟩
    rcases refused with missing | attr | type
    · cases missing
    · exact attr sameAttr
    · exact type sameType

private theorem give_accepted {indices : α} (sameAttr : asked = wanted) (sameType : σ = τ)
    (slot : Option σ.Carrier) :
    give asked wanted (some indices) τ slot =
      ((slot.bind (ValueType.cast? τ)).map fun value => (indices, value), none) :=
  if_pos ⟨sameAttr, sameType⟩

end Give

def delivered {Got : IndexedTake → Type} (take : IndexedTake) (got : Option (Got take)) : Bool :=
  got.isSome

/-- Handing out to the takes that find what they are for leads to exchanges of the right kind. -/
private theorem handsOut_of_give {σ : ValueType} {asked : Attribute} {Got : IndexedTake → Type}
    {type : IndexedTake → ValueType} {found? : (take : IndexedTake) → Option (Got take)}
    {Hands : σ.Carrier → Exchange (fun take => Option (Got take × (type take).Carrier)) → Prop}
    (hands : ∀ take found value given, asked = take.toAttribute → found? take = some found →
      ValueType.cast? (type take) value = some given → Hands value ⟨take, some (found, given)⟩) :
    HandsOut (fun take slot => give asked take.toAttribute (found? take) (type take) slot)
      delivered Hands := by
  intro take
  by_cases refused : found? take = none ∨ asked ≠ take.toAttribute ∨ σ ≠ type take
  · left
    constructor
    case keeps => exact fun slot => by rw [give_refused refused]
    case nothing => exact fun slot => by rw [give_refused refused]; rfl
  · simp only [ne_eq, not_or, Classical.not_not] at refused
    obtain ⟨finds, sameAttr, sameType⟩ := refused
    obtain ⟨found, finds⟩ := Option.ne_none_iff_exists'.mp finds
    right
    constructor
    case empties => exact fun slot => by rw [finds, give_accepted sameAttr sameType]
    case delivers =>
      intro slot
      rw [finds, give_accepted sameAttr sameType]
      cases slot with
      | none => rfl
      | some value =>
        obtain ⟨given, typed⟩ := ValueType.exists_cast? sameType value
        rw [Option.bind_some, typed]
        rfl
    case hands =>
      intro value
      obtain ⟨given, typed⟩ := ValueType.exists_cast? sameType value
      rw [finds, give_accepted sameAttr sameType, Option.bind_some, typed]
      exact hands take found value given sameAttr finds typed

/-- The take is for indices of the kind. -/
def TakesKind : IndexedTake → IndexKind → Prop
  | typed j _, k => j = k
  | uniform .., .constraint _ => True
  | uniform .., .var => False

def erase : (take : IndexedTake) → take.Index → AnyIndex
  | typed k _, index => k.erase index
  | uniform .., c => .constraint c

theorem find?_eq_some_iff {i : AnyIndex} {found : take.Index} :
    take.find? i = some found ↔ i = take.erase found := by
  cases take with
  | typed k a => exact IndexKind.as?_eq_some_iff
  | uniform a type same => cases i <;> simp [find?, erase]

private theorem find?_of_other (other : ¬take.TakesKind k) (index : k.Index) :
    take.find? (k.erase index) = none := by
  cases take with
  | typed j b =>
    refine IndexKind.as?_eq_none ?_
    rw [IndexKind.kind_erase]
    exact fun same => other same.symm
  | uniform b type same =>
    cases k with
    | var => rfl
    | constraint t => exact absurd trivial other

private theorem map_erase_of_finds {indices : List k.Index} {found : List take.Index}
    (finds : (indices.mapM fun index => take.find? (k.erase index)) = some found) :
    found.map take.erase = indices.map k.erase := by
  induction indices generalizing found with
  | nil => cases finds; rfl
  | cons index rest ih =>
    rw [List.mapM_cons] at finds
    cases first : take.find? (k.erase index) with
    | none => rw [first] at finds; cases finds
    | some i =>
      cases more : rest.mapM fun index => take.find? (k.erase index) with
      | none => rw [first, more] at finds; cases finds
      | some others =>
        rw [first, more] at finds
        cases finds
        rw [List.map_cons, List.map_cons, ih more, find?_eq_some_iff.mp first]

private theorem mapM_find?_of_other {indices : List k.Index} (nonempty : indices ≠ [])
    (other : ¬take.TakesKind k) :
    (indices.mapM fun index => take.find? (k.erase index)) = none := by
  cases indices with
  | nil => exact absurd rfl nonempty
  | cons index rest =>
    rw [List.mapM_cons, find?_of_other other]
    rfl

/-- The exchanges that hand out the value of a request at one index: the index is that of the
request, and the value is the value of the request. -/
inductive HandsAt (a : IndexedAttribute k) (index : k.Index) (value : a.Value) :
    Exchange (fun take : IndexedTake => Option (take.Index × take.Value)) → Prop where
  | intro (take : IndexedTake) (found : take.Index) (given : take.Value)
    (sameAttr : a.toAttribute = take.toAttribute) (sameIndex : take.erase found = k.erase index)
    (sameValue : (⟨take.valueType, given⟩ : Value) = ⟨a.valueType, value⟩) :
    HandsAt a index value ⟨take, some (found, given)⟩

/-- The exchanges that hand out the values of a request at several indices: the indices are those
of the request, in their order, and the values are the values of the request. -/
inductive HandsAll (a : IndexedAttribute k) (indices : List k.Index) (values : a.Values) :
    Exchange (fun take : IndexedTake => Option (List take.Index × take.Values)) → Prop where
  | intro (take : IndexedTake) (found : List take.Index) (given : take.Values)
    (sameAttr : a.toAttribute = take.toAttribute)
    (sameIndices : found.map take.erase = indices.map k.erase)
    (sameValues : (⟨.list take.valueType, given⟩ : Value) = ⟨.list a.valueType, values⟩) :
    HandsAll a indices values ⟨take, some (found, given)⟩

theorem deliver_handsOut (a : IndexedAttribute k) (index : k.Index) :
    HandsOut (deliver a index) delivered (HandsAt a index) :=
  handsOut_of_give fun take found _ given sameAttr finds typed =>
    .intro take found given sameAttr (find?_eq_some_iff.mp finds).symm
      (ValueType.cast?_eq_some_iff.mp typed)

theorem deliverAll_handsOut (a : IndexedAttribute k) (indices : List k.Index) :
    HandsOut (deliverAll a indices) delivered (HandsAll a indices) :=
  handsOut_of_give fun take found _ given sameAttr finds typed =>
    .intro take found given sameAttr (map_erase_of_finds finds)
      (ValueType.cast?_eq_some_iff.mp typed)

end IndexedTake

/-- Takes for something else than the request is about return nothing and leave the slot as it
is. -/
structure TakesGuarded : Prop where
  value : ∀ (a b : GlobalAttribute) (slot : Option a.Value), a ≠ b →
    Take.deliver a (.value b) slot = ((none : Option b.Value), slot)
  objective : ∀ (a : GlobalAttribute) (slot : Option a.Value),
    (∀ f, a ≠ .property (.objectiveFunction f)) →
      Take.deliver a .objective slot = ((none : Option (FunctionType × Canonical)), slot)
  /-- Another kind of index includes another type of constraints. -/
  atIndex : ∀ k (a : IndexedAttribute k) index (take : IndexedTake) slot,
    ¬take.TakesKind k ∨ a.toAttribute ≠ take.toAttribute ∨ a.valueType ≠ take.valueType →
      take.deliver a index slot = (none, slot)
  /-- The kind is told from the indices, and cannot be if there are none. -/
  atIndices : ∀ k (a : IndexedAttribute k) indices (take : IndexedTake) slot,
    (indices ≠ [] ∧ ¬take.TakesKind k) ∨ a.toAttribute ≠ take.toAttribute ∨
        a.valueType ≠ take.valueType →
      take.deliverAll a indices slot = (none, slot)

theorem takesGuarded : TakesGuarded := by
  constructor
  case value => exact fun a b slot other => Take.refuses_value other slot
  case objective => exact fun a slot other => Take.refuses_objective other slot
  case atIndex =>
    intro k a index take slot reason
    refine IndexedTake.give_refused ?_ slot
    exact reason.imp_left fun other => IndexedTake.find?_of_other other index
  case atIndices =>
    intro k a indices take slot reason
    refine IndexedTake.give_refused ?_ slot
    rcases reason with ⟨nonempty, other⟩ | otherAttr | otherType
    · exact .inl (IndexedTake.mapM_find?_of_other nonempty other)
    · exact .inr (.inl otherAttr)
    · exact .inr (.inr fun same => otherType (ValueType.list.inj same))

end SolverProtocol
