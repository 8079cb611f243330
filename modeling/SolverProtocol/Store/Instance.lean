import SolverProtocol.Store.Capability
import SolverProtocol.Store.Change

namespace SolverProtocol.Store

open Number

/-- Replies with the value, or fails with the error. -/
def answer (s : Store) {a : GlobalAttribute} (value : Except ProtocolError a.Value) :
    Query Store :=
  match value with
  | .ok v => Query.reply ⟨a.valueType, v⟩ s
  | .error e => .fail e s

def answerAt (s : Store) {k : IndexKind} {a : IndexedAttribute k}
    (value : Except ProtocolError a.Value) : IndexedQuery Store :=
  match value with
  | .ok v => .reply ⟨⟨a.valueType, v⟩⟩ s
  | .error e => .fail e s

def answerMany (s : Store) (values : Except ProtocolError (List Binary64)) :
    BulkQuery Store :=
  match values with
  | .ok vs => .reply ⟨.real, vs⟩ s
  | .error e => .fail e s

def readMany (s : Store) :
    {k : IndexKind} → IndexedAttribute k → List k.Index → BulkQuery Store
  | .var, .primal r, xs => answerMany s (s.readPrimals r xs)
  | _, _, _ => .succeed s

def writeMany (s : Store) :
    {k : IndexKind} → IndexedAttribute k → List k.Index → BulkAssignment Store
  | .var, .primal r, _ => .call (.typed .var (.primal r)) fun
    | some (xs, values) => .done ((Change.assignPrimals r xs values).outcome s)
    | none => .succeed s
  | _, _, _ => .succeed s

/-- The operations of a store while functions are converted within the tolerance. -/
def backend (tolerance : Binary64) : Backend Store where
  kind _ := kind
  supports _ := supports
  supportsFor _ := supportsFor
  canGet s := s.canGet tolerance
  canGetFor := canGetFor
  canSet := canSet
  canSetFor := canSetFor
  hasNamed := hasNamed
  read s a := answer s (s.readGlobal tolerance a)
  readAt s _ a index := answerAt s (s.readIndexed a index)
  readMany s _ a indices := readMany s a indices
  write s a := .call (.value a) fun
    | some value => .done ((Change.assign a value).outcome s)
    | none => .succeed s
  writeAt s k a _ := .call (.typed k a) fun
    | some (index, value) => .done ((Change.assignAt a index value).outcome s)
    | none => .succeed s
  writeMany s _ a indices := writeMany s a indices
  indexNamed := indexNamed

end SolverProtocol.Store
