import SolverProtocol.Number.Binary64

namespace SolverProtocol

open Number

/-- A JSON number. An integer is kept as it is while it fits in 64 bits. -/
inductive JsonNumber where
  | integer (value : Int)
  | real (value : Binary64)
deriving DecidableEq, Inhabited

/-- A JSON value, as solver-specific parameters have them. -/
inductive Json where
  | null
  | bool (value : Bool)
  | number (value : JsonNumber)
  | string (value : String)
  | array (items : List Json)
  | object (fields : List (String × Json))
deriving Inhabited

end SolverProtocol
