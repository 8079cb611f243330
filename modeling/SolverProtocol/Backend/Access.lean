import SolverProtocol.Backend.Basic

namespace SolverProtocol

/-- What a read comes to, given how its request ended and what is in the slot. -/
def settle {σ α : Type} (a : Attribute) (kind : σ → String) :
    Outcome σ × Option α → Except ProtocolError α × σ
  | ((.error e, s), _) => (.error e, s)
  | ((.ok (), s), some value) => (.ok value, s)
  | ((.ok (), s), none) => (.error (.noValue a (kind s)), s)

/-- What a write comes to, given how its request ended and what is left in the slot. -/
def consumed {σ α : Type} (a : Attribute) (kind : σ → String) :
    Outcome σ × Option α → Outcome σ
  | ((.error e, s), _) => (.error e, s)
  | ((.ok (), s), none) => (.ok (), s)
  | ((.ok (), s), some _) => (.error (.unsupportedAccess a (kind s)), s)

namespace Backend

variable {σ : Type} (B : Backend σ) {k : IndexKind}

/-- The value of a global attribute. -/
def get (s : σ) (a : GlobalAttribute) : Except ProtocolError a.Value × σ :=
  settle (.global a) B.kind ((B.read s a).run (Reply.deliver a) none)

/-- The value of an attribute at one index. -/
def getAt (s : σ) (a : IndexedAttribute k) (index : k.Index) :
    Except ProtocolError a.Value × σ :=
  settle a.toAttribute B.kind ((B.readAt s a index).run (IndexedReply.deliver a) none)

/-- The values at the indices, read one by one until the first error. -/
def getEach (s : σ) (a : IndexedAttribute k) :
    List k.Index → Except ProtocolError (List a.Value) × σ
  | [] => (.ok [], s)
  | index :: rest =>
    match B.getAt s a index with
    | (.error e, s) => (.error e, s)
    | (.ok value, s) =>
      match getEach s a rest with
      | (.error e, s) => (.error e, s)
      | (.ok values, s) => (.ok (value :: values), s)

/-- The values at the indices, in their order: answered at once, or else one by one. -/
def getMany (s : σ) (a : IndexedAttribute k) (indices : List k.Index) :
    Except ProtocolError (List a.Value) × σ :=
  match (B.readMany s a indices).run (BulkReply.deliver a indices.length) none with
  | ((.error e, s), _) => (.error e, s)
  | ((.ok (), s), some values) => (.ok values, s)
  | ((.ok (), s), none) => B.getEach s a indices

/-- The output after the values have been put into its first places, as far as there are places. -/
def overwrite {α : Type} : List α → List α → List α
  | _ :: output, value :: values => value :: overwrite output values
  | output, _ => output

/-- Like `getMany`, but writes into an output, which has to have one place for each index. The
second component is the output afterwards; an error leaves it as it was. -/
def getInto (s : σ) (a : IndexedAttribute k) (output : List a.Value) (indices : List k.Index) :
    Except ProtocolError Unit × List a.Value × σ :=
  if output.length ≠ indices.length then
    (.error (.lengthMismatch indices.length output.length), output, s)
  else
    match B.getMany s a indices with
    | (.error e, s) => (.error e, output, s)
    | (.ok values, s) => (.ok (), overwrite output values, s)

/-- The index of kind `k` that has the name. -/
def indexByName (s : σ) (k : IndexKind) (name : String) : Except ProtocolError k.Index := do
  let found ← B.indexNamed s k.nameTarget name
  match k.as? found with
  | some index => return index
  | none => throw (.nameNotFound k.nameTarget name (B.kind s))

/-- The constraint of any type that has the name. -/
def constraintByName (s : σ) (name : String) : Except ProtocolError AnyConstraintIndex := do
  match ← B.indexNamed s .anyConstraint name with
  | .constraint index => return index
  | .var _ => throw (.nameNotFound .anyConstraint name (B.kind s))

/-- Stores the value of a global attribute. -/
def set (s : σ) (a : GlobalAttribute) (value : a.Value) : Outcome σ :=
  consumed (.global a) B.kind ((B.write s a).run (Take.deliver a) (some value))

/-- Stores the value of an attribute at one index. -/
def setAt (s : σ) (a : IndexedAttribute k) (index : k.Index) (value : a.Value) : Outcome σ :=
  consumed a.toAttribute B.kind
    ((B.writeAt s a index).run (IndexedTake.deliver a index) (some value))

/-- Stores each value at its index, one by one until the first error. -/
def setEach (s : σ) (a : IndexedAttribute k) : List (k.Index × a.Value) → Outcome σ
  | [] => (.ok (), s)
  | (index, value) :: rest =>
    match B.setAt s a index value with
    | (.error e, s) => (.error e, s)
    | (.ok (), s) => setEach s a rest

/-- Stores the values at the indices of the same positions: all at once, or else one by one. -/
def setMany (s : σ) (a : IndexedAttribute k) (indices : List k.Index) (values : List a.Value) :
    Outcome σ :=
  if values.length ≠ indices.length then
    (.error (.lengthMismatch indices.length values.length), s)
  else
    match (B.writeMany s a indices).run (IndexedTake.deliverAll a indices) (some values) with
    | ((.error e, s), _) => (.error e, s)
    | ((.ok (), s), none) => (.ok (), s)
    | ((.ok (), s), some left) => B.setEach s a (indices.zip left)

end Backend

end SolverProtocol
