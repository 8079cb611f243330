import SolverProtocol.Proofs.Function.Narrowing
import SolverProtocol.Proofs.Function.Polynomial

/-! Functions whose coefficients are integers and together small. Neither widening and narrowing a
coefficient nor summing like terms rounds anything, so that the collected terms of the canonical
form are those of the polynomial. -/

namespace SolverProtocol

open Number Binary64 MvPolynomial

namespace CoefficientType

variable (k : CoefficientType)

/-- The coefficient that stands for a double that is an integer. -/
def ofWhole : (k : CoefficientType) → Binary64 → k.Carrier
  | .real, x => x
  | .integer, x => .ofInt x.truncate

/-- The integer is a coefficient of the type, if it is a double. -/
def holds : CoefficientType → Int → Bool
  | .real, _ => true
  | .integer, n => decide (-2 ^ 63 ≤ n ∧ n < 2 ^ 63)

theorem holds_of_small {n : Int} (small : n.natAbs ≤ exactLimit) : k.holds n = true := by
  have limit : exactLimit < 2 ^ 63 := by decide
  cases k with
  | real => rfl
  | integer =>
    refine decide_eq_true ?_
    omega

private theorem widen_denotes {c : k.Carrier} (integer : k.IsInteger c)
    (small : (k.read c).natAbs ≤ exactLimit) : (Coefficient.widen c).Denotes (k.read c) := by
  cases k with
  | real => exact integer
  | integer => exact denotes_ofInt (fits_of_le small)

variable {x tolerance : Binary64} {n : Int}

theorem narrow_whole (nonnegative : zero.le tolerance = true) (denotes : x.Denotes n) :
    narrow tolerance x =
      if k.holds n then .ok (k.ofWhole x) else .error (.inexactCoefficient x) := by
  cases k with
  | real => rfl
  | integer =>
    have narrowed : Coefficient.narrow? (T := CoefficientType.integer.Carrier) tolerance x = _ :=
      narrowInteger?_whole nonnegative denotes
    simp only [narrow, narrowed, holds, ofWhole, denotes.truncate, decide_eq_true_eq]
    by_cases inRange : -2 ^ 63 ≤ n ∧ n < 2 ^ 63
    · simp only [if_pos inRange]
    · simp only [if_neg inRange]

theorem isInteger_ofWhole (denotes : x.Denotes n) : k.IsInteger (k.ofWhole x) := by
  cases k with
  | real => exact denotes.self
  | integer => trivial

theorem read_ofWhole (denotes : x.Denotes n) (held : k.holds n = true) :
    k.read (k.ofWhole x) = n := by
  cases k with
  | real => exact denotes.truncate
  | integer =>
    obtain ⟨above, below⟩ := of_decide_eq_true held
    simp only [read, ofWhole, denotes.truncate]
    exact Int64.toInt_ofInt_of_le above (by omega)

end CoefficientType

namespace FunctionType

/-- All coefficients are integers, and together they are small enough for no sum of some of them to
be rounded. -/
structure Exact (f : FunctionType) (g : f.Carrier) : Prop where
  whole : f.Whole g
  small : f.size g ≤ exactLimit

end FunctionType

section Widening

variable {k : CoefficientType} {coefficients : List k.Carrier}

private theorem widen_each (whole : ∀ c ∈ coefficients, k.IsInteger c)
    (small : (coefficients.map fun c => (k.read c).natAbs).sum ≤ exactLimit) :
    ∀ c ∈ coefficients, (Coefficient.widen c).Denotes (k.read c) := by
  intro c member
  have bound : (k.read c).natAbs ≤ (coefficients.map fun c => (k.read c).natAbs).sum :=
    List.single_le_sum (by simp) _ (List.mem_map.mpr ⟨c, member, rfl⟩)
  exact k.widen_denotes (whole c member) (bound.trans small)

theorem SingleVariable.coefficients_toCanonical (g : SingleVariable) :
    g.toCanonical.coefficients = [one, zero] := by
  simp [toCanonical, QuadraticFunction.coefficients]

theorem AffineFunction.coefficients_toCanonical (g : AffineFunction k.Carrier) :
    g.toCanonical.coefficients = g.coefficients.map Coefficient.widen := by
  simp [toCanonical, coefficients, QuadraticFunction.coefficients, AffineTerm.widen,
    Function.comp_def]

theorem QuadraticFunction.coefficients_toCanonical (g : QuadraticFunction k.Carrier) :
    g.toCanonical.coefficients = g.coefficients.map Coefficient.widen := by
  simp [toCanonical, coefficients, AffineTerm.widen, QuadraticTerm.widen, Function.comp_def]

private theorem exact_widen {q : Canonical}
    (same : q.coefficients = coefficients.map Coefficient.widen)
    (whole : ∀ c ∈ coefficients, k.IsInteger c)
    (small : (coefficients.map fun c => (k.read c).natAbs).sum ≤ exactLimit) :
    (FunctionType.quadratic .real).Exact q := by
  have each := widen_each whole small
  constructor
  · intro c member
    rw [same] at member
    obtain ⟨d, present, rfl⟩ := List.mem_map.mp member
    exact (each d present).self
  · have sizes : (q.coefficients.map fun c => c.truncate.natAbs) =
        coefficients.map fun c => (k.read c).natAbs := by
      rw [same, List.map_map]
      exact List.map_congr_left fun c member => congrArg Int.natAbs (each c member).truncate
    change (q.coefficients.map fun c => c.truncate.natAbs).sum ≤ exactLimit
    rwa [sizes]

end Widening

theorem QuadraticFunction.polynomial_toCanonical {T : Type} [Coefficient T]
    (g : QuadraticFunction T) :
    g.toCanonical.polynomial truncate =
      g.polynomial fun c => (Coefficient.widen c : Binary64).truncate := by
  simp only [toCanonical, polynomial, List.map_map]
  rfl

namespace FunctionType

variable {f : FunctionType} {g : f.Carrier}

theorem Exact.toCanonical (exact : f.Exact g) : (quadratic .real).Exact (f.toCanonical g) := by
  cases f with
  | singleVariable =>
    constructor
    · intro c member
      have member : c ∈ g.toCanonical.coefficients := member
      rw [g.coefficients_toCanonical] at member
      rcases List.mem_pair.mp member with same | same <;> rw [same]
      · exact denotes_one.self
      · exact denotes_zero.self
    · change (g.toCanonical.coefficients.map fun c => c.truncate.natAbs).sum ≤ exactLimit
      rw [g.coefficients_toCanonical]
      simp [denotes_one.truncate, denotes_zero.truncate, exactLimit]
  | affine k => exact exact_widen g.coefficients_toCanonical exact.whole exact.small
  | quadratic k => exact exact_widen g.coefficients_toCanonical exact.whole exact.small

theorem Exact.polynomial_toCanonical (exact : f.Exact g) :
    (quadratic .real).polynomial (f.toCanonical g) = f.polynomial g := by
  cases f with
  | singleVariable =>
    change QuadraticFunction.polynomial Binary64.truncate ⟨[⟨one, g.var⟩], [], zero⟩ = X g.var
    simp [QuadraticFunction.polynomial, AffineTerm.polynomial, denotes_one.truncate,
      denotes_zero.truncate]
  | affine k =>
    have each := widen_each exact.whole exact.small
    change g.toQuadratic.toCanonical.polynomial truncate = g.polynomial k.read
    rw [g.toQuadratic.polynomial_toCanonical, ← g.polynomial_toQuadratic]
    refine QuadraticFunction.polynomial_congr fun c member => ?_
    exact (each c (g.coefficients_toQuadratic ▸ member)).truncate
  | quadratic k =>
    have each := widen_each exact.whole exact.small
    change g.toCanonical.polynomial truncate = g.polynomial k.read
    rw [g.polynomial_toCanonical]
    exact QuadraticFunction.polynomial_congr fun c member => (each c member).truncate

end FunctionType

namespace QuadraticFunction

/-- The affine terms under their variables. -/
def underVariables (q : Canonical) : List (VariableIndex × Binary64) :=
  q.affineTerms.map fun t => (t.var, t.coefficient)

/-- The quadratic terms under their products. -/
def underProducts (q : Canonical) : List ((VariableIndex × VariableIndex) × Binary64) :=
  q.quadraticTerms.map fun t => (t.product, t.coefficient)

variable {q : Canonical}

theorem sorted_product {T : Type} (t : QuadraticTerm T) : Sorted t.product := by
  unfold QuadraticTerm.product Sorted
  split <;> simp only <;> omega

private theorem productMonomial_product {T : Type} (t : QuadraticTerm T) :
    productMonomial t.product = productMonomial (t.first, t.second) := by
  unfold QuadraticTerm.product
  split
  · rfl
  · exact add_comm ..

/-- The pieces of an exact form are exact. -/
structure ExactParts (q : Canonical) : Prop where
  linear : WholeTerms q.underVariables
  linear_small : totalSize q.underVariables ≤ exactLimit
  products : WholeTerms q.underProducts
  products_small : totalSize q.underProducts ≤ exactLimit
  constant : q.constant.Denotes q.constant.truncate
  constant_small : q.constant.truncate.natAbs ≤ exactLimit

theorem exactParts (exact : (FunctionType.quadratic .real).Exact q) : q.ExactParts := by
  have whole : ∀ c ∈ q.coefficients, c.Denotes c.truncate := exact.whole
  have small : (q.coefficients.map fun c => c.truncate.natAbs).sum ≤ exactLimit := exact.small
  have sizes : (q.coefficients.map fun c => c.truncate.natAbs).sum =
      totalSize q.underVariables + totalSize q.underProducts + q.constant.truncate.natAbs := by
    simp [coefficients, totalSize, underVariables, underProducts, Function.comp_def, add_assoc]
  simp only [coefficients, List.mem_append, List.mem_map, List.mem_singleton] at whole
  refine ⟨?_, by omega, ?_, by omega, whole _ (.inr rfl), by omega⟩
  · intro term member
    obtain ⟨t, present, rfl⟩ := List.mem_map.mp member
    exact whole _ (.inl (.inl ⟨t, present, rfl⟩))
  · intro term member
    obtain ⟨t, present, rfl⟩ := List.mem_map.mp member
    exact whole _ (.inl (.inr ⟨t, present, rfl⟩))

/-- No coefficient is rounded while like terms are added up. -/
structure WholeParts (q : Canonical) : Prop where
  linear : ExactSums q.underVariables
  products : ExactSums q.underProducts
  constant : q.constant.Denotes q.constant.truncate

theorem ExactParts.whole (parts : q.ExactParts) : q.WholeParts where
  linear := exactSums_of_small parts.linear parts.linear_small
  products := exactSums_of_small parts.products parts.products_small
  constant := parts.constant

theorem WholeParts.denotes (parts : q.WholeParts) {c : Binary64} (member : c ∈ q.coefficients) :
    c.Denotes c.truncate := by
  simp only [coefficients, List.mem_append, List.mem_map, List.mem_singleton] at member
  rcases member with (⟨t, present, rfl⟩ | ⟨t, present, rfl⟩) | rfl
  · exact parts.linear.whole (t.var, t.coefficient) (List.mem_map.mpr ⟨t, present, rfl⟩)
  · exact parts.products.whole (t.product, t.coefficient) (List.mem_map.mpr ⟨t, present, rfl⟩)
  · exact parts.constant

theorem ExactParts.small (parts : q.ExactParts) {c : Binary64} (member : c ∈ q.coefficients) :
    c.truncate.natAbs ≤ exactLimit := by
  simp only [coefficients, List.mem_append, List.mem_map, List.mem_singleton] at member
  rcases member with (⟨t, present, rfl⟩ | ⟨t, present, rfl⟩) | rfl
  · have listed : (t.var, t.coefficient) ∈ q.underVariables := List.mem_map.mpr ⟨t, present, rfl⟩
    exact (size_le_totalSize listed).trans parts.linear_small
  · have listed : (t.product, t.coefficient) ∈ q.underProducts :=
      List.mem_map.mpr ⟨t, present, rfl⟩
    exact (size_le_totalSize listed).trans parts.products_small
  · exact parts.constant_small

/-- The sums as integers. -/
def readSums {κ : Type} (sums : List (κ × Binary64)) : List (κ × Int) :=
  sums.map fun entry => (entry.1, entry.2.truncate)

private theorem readSums_nonzero {κ : Type} [DecidableEq κ] {terms : List (κ × Binary64)}
    (exact : ExactSums terms) : ∀ term ∈ readSums (sumByKey terms), term.2 ≠ 0 := by
  intro term member
  obtain ⟨entry, present, rfl⟩ := List.mem_map.mp member
  obtain ⟨n, denotes, nonzero⟩ := exact.collected present
  exact denotes.truncate.symm ▸ nonzero

private theorem nodup_readSums {κ : Type} [DecidableEq κ] (terms : List (κ × Binary64)) :
    ((readSums (sumByKey terms)).map Prod.fst).Nodup := by
  have keys : (readSums (sumByKey terms)).map Prod.fst = (sumByKey terms).map Prod.fst := by
    simp [readSums, Function.comp_def]
  exact keys ▸ nodup_keys_sumByKey terms

/-- The polynomial of an exact form with its like terms collected. -/
def ExactParts.collected (parts : q.ExactParts) : Collected where
  linear := readSums q.variableSums
  products := readSums q.productSums
  constant := q.constant.truncate
  nodup_linear := nodup_readSums q.underVariables
  nodup_products := nodup_readSums q.underProducts
  sorted := by
    intro term member
    obtain ⟨⟨key, sum⟩, present, rfl⟩ := List.mem_map.mp member
    obtain ⟨known, -⟩ := mem_sumByKey_iff.mp present
    obtain ⟨entry, listed, rfl⟩ := List.mem_map.mp known
    obtain ⟨t, -, rfl⟩ := List.mem_map.mp listed
    exact sorted_product t
  linear_nonzero := readSums_nonzero parts.whole.linear
  products_nonzero := readSums_nonzero parts.whole.products

/-- What a coefficient under a key contributes to a polynomial. -/
noncomputable def weight {κ : Type} (monomialOf : κ → Monomial) (key : κ) :
    Int →+ IntegerPolynomial :=
  (monomial (monomialOf key)).toAddMonoidHom

private theorem weight_apply {κ : Type} (monomialOf : κ → Monomial) (key : κ) (c : Int) :
    weight monomialOf key c = monomial (monomialOf key) c := rfl

theorem weight_variable (x : VariableIndex) (c : Int) :
    weight variableMonomial x c = C c * X x :=
  C_mul_X_eq_monomial.symm

theorem weight_product {T : Type} (t : QuadraticTerm T) (c : Int) :
    weight productMonomial t.product c = C c * X t.first * X t.second := by
  rw [weight_apply, productMonomial_product, productMonomial, C_mul_X_eq_monomial, X,
    monomial_mul, mul_one]

private theorem ExactParts.collected_eq (parts : q.ExactParts) :
    parts.collected.polynomial =
      contribution (weight variableMonomial) q.variableSums +
        contribution (weight productMonomial) q.productSums + C q.constant.truncate := by
  simp [Collected.polynomial, sumOfMonomials, Collected.terms, ExactParts.collected, readSums,
    contribution, weight_apply, Function.comp_def, add_assoc]

/-- Collecting like terms changes nothing about the polynomial. -/
theorem WholeParts.polynomial_eq (parts : q.WholeParts) :
    contribution (weight variableMonomial) q.variableSums +
        contribution (weight productMonomial) q.productSums + C q.constant.truncate =
      q.polynomial truncate := by
  have linear := contribution_sumByKey (weight variableMonomial) parts.linear
  have products := contribution_sumByKey (weight productMonomial) parts.products
  rw [variableSums, productSums, ← underVariables, ← underProducts, linear, products]
  simp only [contribution, underVariables, underProducts, List.map_map, Function.comp_def,
    weight_variable, weight_product]
  rfl

theorem ExactParts.polynomial_collected (parts : q.ExactParts) :
    parts.collected.polynomial = q.polynomial truncate :=
  parts.collected_eq.trans parts.whole.polynomial_eq

end QuadraticFunction

end SolverProtocol
