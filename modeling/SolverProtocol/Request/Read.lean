import SolverProtocol.Attribute.Answer
import SolverProtocol.Request.Program

/-! Requests for values. The caller waits with a slot of the type of value that the attribute has,
and the instance makes replies, which have to be of that type. A later reply replaces an earlier
one, and one that fails leaves the slot as it is. -/

namespace SolverProtocol

/-- Puts a value into a slot of its type. -/
def put (a : Attribute) {τ : ValueType} (value : Value) (slot : Option τ.Carrier) :
    Except ProtocolError Unit × Option τ.Carrier :=
  match ValueType.cast? τ value.2 with
  | some v => (.ok (), some v)
  | none => (.error (.valueTypeMismatch a), slot)

/-- A reply to a request for the value of a global attribute. -/
inductive Reply where
  | value (value : Value)
  /-- The listing or count that the attribute makes of constraint indices. -/
  | fromIndices (indices : List AnyConstraintIndex)
  /-- The objective, first written as a `source`, as the type of function asked for. -/
  | fromObjective (tolerance : Number.Binary64) (source : FunctionType) (function : Canonical)

namespace Reply

/-- What the instance learns of its reply; a truth value says that the attribute can be answered in
this way. -/
def Response : Reply → Type
  | .value _ => Except ProtocolError Unit
  | .fromIndices _ => Bool
  | .fromObjective .. => Except ProtocolError Bool

def deliver (a : GlobalAttribute) :
    (reply : Reply) → Option a.Value → reply.Response × Option a.Value
  | .value v, slot => put (.global a) v slot
  | .fromIndices indices, slot => (Attribute.global a).fillFromIndices indices slot
  | .fromObjective tolerance source q, slot =>
    match (Attribute.global a).fillFromObjective tolerance source q slot with
    | (some (.ok ()), slot) => (.ok true, slot)
    | (some (.error e), slot) => (.error e, slot)
    | (none, slot) => (.ok false, slot)

end Reply

/-- A reply to a request at one index. -/
structure IndexedReply where
  value : Value

def IndexedReply.deliver {k : IndexKind} (a : IndexedAttribute k) (reply : IndexedReply)
    (slot : Option a.Value) : Except ProtocolError Unit × Option a.Value :=
  put a.toAttribute reply.value slot

/-- A reply to a request at several indices: a list of values of one type. -/
structure BulkReply where
  type : ValueType
  values : List type.Carrier

/-- The number of values is checked before their type. -/
def BulkReply.deliver {k : IndexKind} (a : IndexedAttribute k) (count : Nat) (reply : BulkReply)
    (slot : Option a.Values) : Except ProtocolError Unit × Option a.Values :=
  if reply.values.length = count then
    put a.toAttribute ⟨.list reply.type, reply.values⟩ slot
  else (.error (.lengthMismatch count reply.values.length), slot)

/-- The end of a request: success or an error, with the instance afterwards. -/
abbrev Outcome (σ : Type) : Type := Except ProtocolError Unit × σ

namespace Program

variable {Call : Type} {Response : Call → Type} {σ : Type}

/-- Ends a request with success. -/
def succeed (s : σ) : Program Call Response (Outcome σ) :=
  .done (.ok (), s)

/-- Ends a request with an error. -/
def fail (e : ProtocolError) (s : σ) : Program Call Response (Outcome σ) :=
  .done (.error e, s)

/-- Makes one reply and ends the request as it comes out. -/
def reply (request : Call) (s : σ) :
    Program Call (fun _ => Except ProtocolError Unit) (Outcome σ) :=
  .call request fun outcome => .done (outcome, s)

end Program

abbrev Query (σ : Type) : Type :=
  Program Reply Reply.Response (Outcome σ)

/-- Replies with a value and ends the request as the reply comes out. -/
def Query.reply {σ : Type} (v : Value) (s : σ) : Query σ :=
  .call (.value v) fun outcome => .done (outcome, s)

abbrev IndexedQuery (σ : Type) : Type :=
  Program IndexedReply (fun _ => Except ProtocolError Unit) (Outcome σ)

abbrev BulkQuery (σ : Type) : Type :=
  Program BulkReply (fun _ => Except ProtocolError Unit) (Outcome σ)

end SolverProtocol
