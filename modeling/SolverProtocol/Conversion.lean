import SolverProtocol.Error

namespace SolverProtocol

open Number

/-- Reads a canonical form, first written as a `source`, as a function of type `target`. -/
def convertCanonical (target source : FunctionType) (tolerance : Binary64) (q : Canonical) :
    Except ProtocolError target.Carrier :=
  (target.ofCanonical tolerance q).mapError (.conversionImpossible source target)

/-- Converts a function to another type, through its canonical form. -/
def convert (target : FunctionType) {source : FunctionType} (tolerance : Binary64)
    (f : source.Carrier) : Except ProtocolError target.Carrier :=
  convertCanonical target source tolerance (source.toCanonical f)

end SolverProtocol
