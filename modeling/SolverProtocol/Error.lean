import SolverProtocol.Attribute.Basic
import SolverProtocol.Function.Canonical

namespace SolverProtocol

open Text (quoted)

/-- Why an access failed. `kind` is the kind of instance it was made to. -/
inductive ProtocolError where
  | unsupportedAccess (attr : Attribute) (kind : String)
  | nameNotFound (target : NameTarget) (name kind : String)
  /-- The index was never handed out, or what it identified has been deleted. -/
  | indexNotFound (index : AnyIndex) (kind : String)
  | conversionImpossible (source target : FunctionType) (reason : ConversionError)
  /-- Results are counted from 1 to `count`. -/
  | invalidResultIndex (index count : Nat)
  | lengthMismatch (expected actual : Nat)
  | duplicateName (target : NameTarget) (name : String)
  | valueTypeMismatch (attr : Attribute)
  /-- There is no value at present, or success was reported without an answer. -/
  | noValue (attr : Attribute) (kind : String)
  | invalidValue (attr : Attribute) (reason kind : String)
deriving DecidableEq

namespace ProtocolError

def message : ProtocolError → String
  | .unsupportedAccess a kind =>
    s!"{a.family.name} {a.toText} is not supported by instance of kind {kind}"
  | .nameNotFound target name kind =>
    s!"no {target.toText} named {quoted name} in instance of kind {kind}"
  | .indexNotFound index kind => s!"{index.toText} does not exist in instance of kind {kind}"
  | .conversionImpossible source target reason =>
    s!"unable to convert {source.name} into {target.name}: {reason.message}"
  | .invalidResultIndex index count =>
    s!"result index {index} is out of range, the instance has {count} results"
  | .lengthMismatch expected actual =>
    s!"expected {expected} values to match the indices, got {actual}"
  | .duplicateName target name => s!"a {target.toText} named {quoted name} already exists"
  | .valueTypeMismatch a => s!"instance answered {a.toText} with a value of the wrong type"
  | .noValue a kind => s!"instance of kind {kind} has no value for {a.toText}"
  | .invalidValue a reason kind =>
    s!"instance of kind {kind} rejected the value for {a.toText}: {reason}"

/-- A stable identifier of the kind of error. -/
def code : ProtocolError → String
  | .unsupportedAccess .. => "ATTRIBUTE_UNSUPPORTED"
  | .nameNotFound .. => "NAME_NOT_FOUND"
  | .indexNotFound .. => "INDEX_NOT_FOUND"
  | .conversionImpossible .. => "CONVERSION_IMPOSSIBLE"
  | .invalidResultIndex .. => "RESULT_INDEX_INVALID"
  | .lengthMismatch .. => "LENGTH_MISMATCH"
  | .duplicateName .. => "NAME_DUPLICATE"
  | .valueTypeMismatch .. => "VALUE_TYPE_MISMATCH"
  | .noValue .. => "NO_VALUE"
  | .invalidValue .. => "VALUE_INVALID"

def isUnsupported : ProtocolError → Bool
  | .unsupportedAccess .. => true
  | _ => false

/-- A name or an index did not resolve. -/
def isNotFound : ProtocolError → Bool
  | .nameNotFound .. | .indexNotFound .. => true
  | _ => false

end ProtocolError

end SolverProtocol
