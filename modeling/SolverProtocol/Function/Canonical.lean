import SolverProtocol.Data.OrderedMap
import SolverProtocol.Function.Scalar

/-! Conversion between types of scalar functions. Every scalar function is written as a quadratic
function with double coefficients, its canonical form, and read back as another type if that type
can represent it within a tolerance. -/

namespace SolverProtocol

open Number

/-- Why a function cannot be represented as a function of another type. -/
inductive ConversionError where
  /-- So many products have a coefficient other than zero, and the target has none. -/
  | quadraticTerms (count : Nat)
  /-- The coefficients of the target do not include this number. -/
  | inexactCoefficient (value : Binary64)
  | notSingleVariable
deriving DecidableEq

def ConversionError.message : ConversionError → String
  | .quadraticTerms count => s!"function has {count} non-zero quadratic terms"
  | .inexactCoefficient value => s!"coefficient {value} can't be represented exactly"
  | .notSingleVariable => "function is not a single variable with unit coefficient"

/-- The form through which all conversions go. -/
abbrev Canonical : Type := QuadraticFunction Binary64

/-- The sums of the coefficients under each key, added from left to right starting from zero. Keys
stand in the order of their first occurrence, and those whose sum is zero are left out. -/
def sumByKey {κ : Type} [DecidableEq κ] (terms : List (κ × Binary64)) : List (κ × Binary64) :=
  let sums : OrderedMap κ Binary64 := terms.foldl
    (fun sums term => sums.insert term.1 (((sums.find? term.1).getD .zero).add term.2)) .empty
  sums.entries.filter fun term => !term.2.equal .zero

/-- The product of a term, the same for both orders of its factors. -/
def QuadraticTerm.product {T : Type} (t : QuadraticTerm T) : VariableIndex × VariableIndex :=
  if t.first.value ≤ t.second.value then (t.first, t.second) else (t.second, t.first)

namespace QuadraticFunction

/-- The variables with a coefficient other than zero, in the order of their first occurrence. -/
def variableSums (q : Canonical) : List (VariableIndex × Binary64) :=
  sumByKey (q.affineTerms.map fun t => (t.var, t.coefficient))

/-- The products with a coefficient other than zero, in the order of their first occurrence. -/
def productSums (q : Canonical) : List ((VariableIndex × VariableIndex) × Binary64) :=
  sumByKey (q.quadraticTerms.map fun t => (t.product, t.coefficient))

end QuadraticFunction

section Widening

variable {T : Type} [Coefficient T]

def AffineTerm.widen (t : AffineTerm T) : AffineTerm Binary64 :=
  ⟨Coefficient.widen t.coefficient, t.var⟩

def QuadraticTerm.widen (t : QuadraticTerm T) : QuadraticTerm Binary64 :=
  ⟨Coefficient.widen t.coefficient, t.first, t.second⟩

def SingleVariable.toCanonical (f : SingleVariable) : Canonical :=
  ⟨[⟨.one, f.var⟩], [], .zero⟩

def AffineFunction.toCanonical (f : AffineFunction T) : Canonical :=
  ⟨f.terms.map AffineTerm.widen, [], Coefficient.widen f.constant⟩

def QuadraticFunction.toCanonical (f : QuadraticFunction T) : Canonical :=
  ⟨f.affineTerms.map AffineTerm.widen, f.quadraticTerms.map QuadraticTerm.widen,
    Coefficient.widen f.constant⟩

end Widening

section Narrowing

variable {T : Type} [Coefficient T]

def narrow (tolerance value : Binary64) : Except ConversionError T :=
  match Coefficient.narrow? tolerance value with
  | some coefficient => .ok coefficient
  | none => .error (.inexactCoefficient value)

def QuadraticFunction.requireNoProducts (q : Canonical) : Except ConversionError Unit :=
  if q.productSums.isEmpty then .ok () else .error (.quadraticTerms q.productSums.length)

/-- One variable remains, its coefficient within the tolerance of 1 and the constant within the
tolerance of 0. -/
def SingleVariable.ofCanonical (tolerance : Binary64) (q : Canonical) :
    Except ConversionError SingleVariable := do
  q.requireNoProducts
  match q.variableSums with
  | [(x, coefficient)] =>
    if (coefficient.sub .one).abs.le tolerance && q.constant.abs.le tolerance then .ok ⟨x⟩
    else .error .notSingleVariable
  | _ => .error .notSingleVariable

/-- Repeated variables are summed before their coefficients are narrowed, the constant last. -/
def AffineFunction.ofCanonical (tolerance : Binary64) (q : Canonical) :
    Except ConversionError (AffineFunction T) := do
  q.requireNoProducts
  let terms ← q.variableSums.mapM fun (x, coefficient) =>
    return (⟨← narrow tolerance coefficient, x⟩ : AffineTerm T)
  return ⟨terms, ← narrow tolerance q.constant⟩

/-- The terms are narrowed one by one as they stand: first the affine ones, then the quadratic
ones, the constant last. -/
def QuadraticFunction.ofCanonical (tolerance : Binary64) (q : Canonical) :
    Except ConversionError (QuadraticFunction T) := do
  let affineTerms ← q.affineTerms.mapM fun t =>
    return (⟨← narrow tolerance t.coefficient, t.var⟩ : AffineTerm T)
  let quadraticTerms ← q.quadraticTerms.mapM fun t =>
    return (⟨← narrow tolerance t.coefficient, t.first, t.second⟩ : QuadraticTerm T)
  return ⟨affineTerms, quadraticTerms, ← narrow tolerance q.constant⟩

end Narrowing

namespace FunctionType

def toCanonical : (f : FunctionType) → f.Carrier → Canonical
  | .singleVariable, g => g.toCanonical
  | .affine _, g => g.toCanonical
  | .quadratic _, g => g.toCanonical

/-- Reads a canonical form as a function of this type, if the type can represent it. -/
def ofCanonical : (f : FunctionType) → (tolerance : Binary64) → Canonical →
    Except ConversionError f.Carrier
  | .singleVariable, tolerance, q => SingleVariable.ofCanonical tolerance q
  | .affine _, tolerance, q => AffineFunction.ofCanonical tolerance q
  | .quadratic _, tolerance, q => QuadraticFunction.ofCanonical tolerance q

def represents (f : FunctionType) (tolerance : Binary64) (q : Canonical) : Bool :=
  (f.ofCanonical tolerance q).isOk

end FunctionType

end SolverProtocol
