import SolverProtocol.Function.Coefficient

namespace SolverProtocol

open Number

/-- Identifies a variable within one instance. -/
structure VariableIndex where
  value : Nat
deriving DecidableEq

namespace VariableIndex

def toText (x : VariableIndex) : String := s!"VariableIndex({x.value})"

/-- The variable as it is written within a function. -/
def symbol (x : VariableIndex) : String := s!"x{x.value}"

end VariableIndex

/-- The function `var`. -/
structure SingleVariable where
  var : VariableIndex
deriving DecidableEq

/-- The term `coefficient · var`. -/
structure AffineTerm (T : Type) where
  coefficient : T
  var : VariableIndex

/-- The sum of the terms and the constant. -/
structure AffineFunction (T : Type) where
  terms : List (AffineTerm T)
  constant : T

/-- The term `coefficient · first · second`. -/
structure QuadraticTerm (T : Type) where
  coefficient : T
  first : VariableIndex
  second : VariableIndex

/-- The sum of the terms and the constant. -/
structure QuadraticFunction (T : Type) where
  affineTerms : List (AffineTerm T)
  quadraticTerms : List (QuadraticTerm T)
  constant : T

section Text

variable {T : Type} [ToString T]

def AffineTerm.toText (t : AffineTerm T) : String :=
  s!"{t.coefficient}*{t.var.symbol}"

def QuadraticTerm.toText (t : QuadraticTerm T) : String :=
  s!"{t.coefficient}*{t.first.symbol}*{t.second.symbol}"

/-- Summands joined by plus signs, the constant last. -/
def sumText (summands : List String) (constant : T) : String :=
  " + ".intercalate (summands ++ [toString constant])

def AffineFunction.toText (f : AffineFunction T) : String :=
  sumText (f.terms.map AffineTerm.toText) f.constant

/-- The products come first. -/
def QuadraticFunction.toText (f : QuadraticFunction T) : String :=
  sumText (f.quadraticTerms.map QuadraticTerm.toText ++ f.affineTerms.map AffineTerm.toText)
    f.constant

end Text

section Equality

variable {T : Type} [Coefficient T]

def AffineTerm.equal (t u : AffineTerm T) : Bool :=
  Coefficient.equal t.coefficient u.coefficient && t.var == u.var

def QuadraticTerm.equal (t u : QuadraticTerm T) : Bool :=
  Coefficient.equal t.coefficient u.coefficient && t.first == u.first && t.second == u.second

/-- The same terms in the same order, their coefficients compared as numbers. -/
def AffineFunction.equal (f g : AffineFunction T) : Bool :=
  f.terms.isEqv g.terms AffineTerm.equal && Coefficient.equal f.constant g.constant

@[inherit_doc AffineFunction.equal]
def QuadraticFunction.equal (f g : QuadraticFunction T) : Bool :=
  f.affineTerms.isEqv g.affineTerms AffineTerm.equal &&
    f.quadraticTerms.isEqv g.quadraticTerms QuadraticTerm.equal &&
    Coefficient.equal f.constant g.constant

end Equality

/-- The types of scalar functions. -/
inductive FunctionType where
  | singleVariable
  | affine (coefficient : CoefficientType)
  | quadratic (coefficient : CoefficientType)
deriving DecidableEq, Repr

namespace FunctionType

def all : List FunctionType :=
  .singleVariable :: CoefficientType.all.flatMap fun k => [.affine k, .quadratic k]

@[reducible]
def Carrier : FunctionType → Type
  | .singleVariable => SingleVariable
  | .affine k => AffineFunction k.Carrier
  | .quadratic k => QuadraticFunction k.Carrier

/-- The name in messages, which leaves the type of the coefficients out. -/
def name : FunctionType → String
  | .singleVariable => "SingleVariable"
  | .affine _ => "ScalarAffineFunction"
  | .quadratic _ => "ScalarQuadraticFunction"

def render : (f : FunctionType) → f.Carrier → String
  | .singleVariable, g => g.var.symbol
  | .affine _, g => g.toText
  | .quadratic _, g => g.toText

def equal : (f : FunctionType) → f.Carrier → f.Carrier → Bool
  | .singleVariable, g, h => g.var == h.var
  | .affine _, g, h => g.equal h
  | .quadratic _, g, h => g.equal h

end FunctionType

end SolverProtocol
