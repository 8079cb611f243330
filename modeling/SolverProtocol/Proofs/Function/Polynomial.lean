import Mathlib.Algebra.MvPolynomial.Degrees
import Mathlib.Data.Finsupp.Weight
import SolverProtocol.Proofs.Function.Sums

/-! The polynomial that a function denotes. Variables commute, and terms in the same variables add
up. Coefficients are read as integers. -/

namespace SolverProtocol

open Number MvPolynomial

namespace CoefficientType

/-- The integer part of a coefficient, which is all of it if it is an integer. -/
def read : (k : CoefficientType) → k.Carrier → Int
  | .real, x => x.truncate
  | .integer, n => n.toInt

def IsInteger : (k : CoefficientType) → k.Carrier → Prop
  | .real, x => x.Denotes x.truncate
  | .integer, _ => True

end CoefficientType

/-- The coefficients of the terms and the constant. -/
def AffineFunction.coefficients {T : Type} (f : AffineFunction T) : List T :=
  f.terms.map (·.coefficient) ++ [f.constant]

@[inherit_doc AffineFunction.coefficients]
def QuadraticFunction.coefficients {T : Type} (f : QuadraticFunction T) : List T :=
  f.affineTerms.map (·.coefficient) ++ f.quadraticTerms.map (·.coefficient) ++ [f.constant]

/-- Polynomials with integer coefficients in the variables of an instance. -/
abbrev IntegerPolynomial : Type := MvPolynomial VariableIndex Int

section Denotation

variable {T : Type} (read : T → Int)

noncomputable def AffineTerm.polynomial (t : AffineTerm T) : IntegerPolynomial :=
  C (read t.coefficient) * X t.var

noncomputable def QuadraticTerm.polynomial (t : QuadraticTerm T) : IntegerPolynomial :=
  C (read t.coefficient) * X t.first * X t.second

noncomputable def AffineFunction.polynomial (f : AffineFunction T) : IntegerPolynomial :=
  (f.terms.map (AffineTerm.polynomial read)).sum + C (read f.constant)

noncomputable def QuadraticFunction.polynomial (f : QuadraticFunction T) : IntegerPolynomial :=
  (f.affineTerms.map (AffineTerm.polynomial read)).sum +
    (f.quadraticTerms.map (QuadraticTerm.polynomial read)).sum + C (read f.constant)

/-- The polynomial is a matter of what the coefficients are read as. -/
theorem QuadraticFunction.polynomial_congr {read other : T → Int} {f : QuadraticFunction T}
    (same : ∀ c ∈ f.coefficients, read c = other c) : f.polynomial read = f.polynomial other := by
  simp only [coefficients, List.forall_mem_append, List.forall_mem_map,
    List.forall_mem_singleton] at same
  obtain ⟨⟨ofAffine, ofQuadratic⟩, constant⟩ := same
  have affineTerms : f.affineTerms.map (AffineTerm.polynomial read) =
      f.affineTerms.map (AffineTerm.polynomial other) :=
    List.map_congr_left fun t member => by rw [AffineTerm.polynomial, ofAffine t member]; rfl
  have quadraticTerms : f.quadraticTerms.map (QuadraticTerm.polynomial read) =
      f.quadraticTerms.map (QuadraticTerm.polynomial other) :=
    List.map_congr_left fun t member => by rw [QuadraticTerm.polynomial, ofQuadratic t member]; rfl
  rw [polynomial, polynomial, affineTerms, quadraticTerms, constant]

/-- The same function, with no products. -/
def AffineFunction.toQuadratic (f : AffineFunction T) : QuadraticFunction T :=
  ⟨f.terms, [], f.constant⟩

theorem AffineFunction.coefficients_toQuadratic (f : AffineFunction T) :
    f.toQuadratic.coefficients = f.coefficients := by
  simp [toQuadratic, coefficients, QuadraticFunction.coefficients]

theorem AffineFunction.polynomial_toQuadratic (f : AffineFunction T) :
    f.toQuadratic.polynomial read = f.polynomial read := by
  simp [toQuadratic, polynomial, QuadraticFunction.polynomial]

/-- The value where each variable has the value given. -/
def AffineFunction.valueAt (point : VariableIndex → Int) (f : AffineFunction T) : Int :=
  (f.terms.map fun t => read t.coefficient * point t.var).sum + read f.constant

@[inherit_doc AffineFunction.valueAt]
def QuadraticFunction.valueAt (point : VariableIndex → Int) (f : QuadraticFunction T) : Int :=
  (f.affineTerms.map fun t => read t.coefficient * point t.var).sum +
    (f.quadraticTerms.map fun t => read t.coefficient * point t.first * point t.second).sum +
    read f.constant

end Denotation

namespace FunctionType

/-- The polynomial of a function whose coefficients are integers. -/
noncomputable def polynomial : (f : FunctionType) → f.Carrier → IntegerPolynomial
  | .singleVariable, g => X g.var
  | .affine k, g => g.polynomial k.read
  | .quadratic k, g => g.polynomial k.read

def valueAt (point : VariableIndex → Int) : (f : FunctionType) → f.Carrier → Int
  | .singleVariable, g => point g.var
  | .affine k, g => g.valueAt k.read point
  | .quadratic k, g => g.valueAt k.read point

/-- All coefficients are integers. -/
def Whole : (f : FunctionType) → f.Carrier → Prop
  | .singleVariable, _ => True
  | .affine k, g => ∀ c ∈ g.coefficients, k.IsInteger c
  | .quadratic k, g => ∀ c ∈ g.coefficients, k.IsInteger c

/-- The sizes of all coefficients together. -/
def size : (f : FunctionType) → f.Carrier → Nat
  | .singleVariable, _ => 1
  | .affine k, g => (g.coefficients.map fun c => (k.read c).natAbs).sum
  | .quadratic k, g => (g.coefficients.map fun c => (k.read c).natAbs).sum

theorem eval_polynomial (point : VariableIndex → Int) (f : FunctionType) (g : f.Carrier) :
    eval point (f.polynomial g) = f.valueAt point g := by
  cases f with
  | singleVariable => exact eval_X _
  | affine k =>
    simp [polynomial, valueAt, AffineFunction.polynomial, AffineFunction.valueAt, map_list_sum,
      Function.comp_def, AffineTerm.polynomial]
  | quadratic k =>
    simp [polynomial, valueAt, QuadraticFunction.polynomial, QuadraticFunction.valueAt,
      map_list_sum, Function.comp_def, AffineTerm.polynomial, QuadraticTerm.polynomial]

end FunctionType

namespace IntegerPolynomial

/-- How many products of two variables occur in a polynomial. -/
noncomputable def productCount (p : IntegerPolynomial) : Nat :=
  (p.support.filter fun m => m.degree = 2).card

end IntegerPolynomial

/-- The polynomials that functions of the type denote. -/
def FunctionType.Admits : FunctionType → IntegerPolynomial → Prop
  | .singleVariable, p => ∃ x, p = X x
  | .affine _, p => p.totalDegree ≤ 1
  | .quadratic _, _ => True

abbrev Monomial : Type := VariableIndex →₀ Nat

/-- The sum of monomials with their coefficients. -/
noncomputable def sumOfMonomials (terms : List (Monomial × Int)) : IntegerPolynomial :=
  (terms.map fun term => monomial term.1 term.2).sum

section Coefficients

variable {terms : List (Monomial × Int)} {m : Monomial} {c : Int}

private theorem coeff_of_absent (absent : m ∉ terms.map Prod.fst) :
    (sumOfMonomials terms).coeff m = 0 := by
  induction terms with
  | nil => simp [sumOfMonomials]
  | cons term rest ih =>
    simp only [List.map_cons, List.mem_cons, not_or] at absent
    simp only [sumOfMonomials, List.map_cons, List.sum_cons, coeff_add, coeff_monomial] at ih ⊢
    rw [if_neg (Ne.symm absent.1), ih absent.2, add_zero]

theorem coeff_of_distinct (distinct : (terms.map Prod.fst).Nodup) (present : (m, c) ∈ terms) :
    (sumOfMonomials terms).coeff m = c := by
  induction terms with
  | nil => simp at present
  | cons term rest ih =>
    obtain ⟨fresh, later⟩ := List.nodup_cons.mp distinct
    have remaining := coeff_of_absent fresh
    simp only [sumOfMonomials, List.map_cons, List.sum_cons, coeff_add, coeff_monomial] at *
    rcases List.mem_cons.mp present with rfl | old
    · rw [if_pos rfl, remaining, add_zero]
    · have other : term.1 ≠ m := fun same => fresh (same ▸ List.mem_map_of_mem old)
      rw [if_neg other, ih later old, zero_add]

private theorem mem_support_iff_of_distinct (distinct : (terms.map Prod.fst).Nodup) :
    m ∈ (sumOfMonomials terms).support ↔ ∃ c, c ≠ 0 ∧ (m, c) ∈ terms := by
  rw [mem_support_iff]
  constructor
  · intro nonzero
    by_contra none
    by_cases known : m ∈ terms.map Prod.fst
    · obtain ⟨⟨_, c⟩, present, rfl⟩ := List.mem_map.mp known
      rw [coeff_of_distinct distinct present] at nonzero
      exact none ⟨c, nonzero, present⟩
    · exact nonzero (coeff_of_absent known)
  · rintro ⟨c, nonzero, present⟩
    rwa [coeff_of_distinct distinct present]

end Coefficients

noncomputable def variableMonomial (x : VariableIndex) : Monomial :=
  Finsupp.single x 1

noncomputable def productMonomial (pair : VariableIndex × VariableIndex) : Monomial :=
  Finsupp.single pair.1 1 + Finsupp.single pair.2 1

@[simp]
theorem degree_variableMonomial (x : VariableIndex) : (variableMonomial x).degree = 1 :=
  Finsupp.degree_single ..

@[simp]
theorem degree_productMonomial (pair : VariableIndex × VariableIndex) :
    (productMonomial pair).degree = 2 := by
  simp [productMonomial]

theorem variableMonomial_injective : Function.Injective variableMonomial :=
  Finsupp.single_left_injective Nat.one_ne_zero

/-- The factors stand in order. -/
def Sorted (pair : VariableIndex × VariableIndex) : Prop :=
  pair.1.value ≤ pair.2.value

theorem productMonomial_injective {first second : VariableIndex × VariableIndex}
    (sorted : Sorted first) (other : Sorted second)
    (same : productMonomial first = productMonomial second) : first = second := by
  rcases first with ⟨⟨a⟩, ⟨b⟩⟩
  rcases second with ⟨⟨c⟩, ⟨d⟩⟩
  simp only [productMonomial, Sorted] at *
  rcases (Finsupp.single_add_single_eq_single_add_single Nat.one_ne_zero Nat.one_ne_zero).mp same
    with ⟨left, right⟩ | ⟨-, left, right⟩ | ⟨zero, -⟩
  · simp_all
  · simp only [VariableIndex.mk.injEq] at left right
    simp only [Prod.mk.injEq, VariableIndex.mk.injEq]
    omega
  · omega

private theorem nodup_productMonomials_of_sorted {pairs : List (VariableIndex × VariableIndex)}
    (distinct : pairs.Nodup) (sorted : ∀ pair ∈ pairs, Sorted pair) :
    (pairs.map productMonomial).Nodup :=
  distinct.map_on fun first member second other same =>
    productMonomial_injective (sorted first member) (sorted second other) same

/-- The three kinds of monomials differ in their degree. -/
theorem nodup_monomials {xs : List VariableIndex} {pairs : List (VariableIndex × VariableIndex)}
    (ofVariables : xs.Nodup) (ofProducts : pairs.Nodup) (sorted : ∀ pair ∈ pairs, Sorted pair) :
    (xs.map variableMonomial ++ (pairs.map productMonomial ++ [0])).Nodup := by
  have degrees {first second : Monomial} (apart : first.degree ≠ second.degree) :
      first ≠ second := fun same => apart (congrArg Finsupp.degree same)
  refine List.nodup_append.mpr ⟨ofVariables.map variableMonomial_injective,
    List.nodup_append.mpr ⟨nodup_productMonomials_of_sorted ofProducts sorted, ?_, ?_⟩, ?_⟩
  · exact List.nodup_singleton _
  · intro first member second other
    obtain ⟨pair, -, rfl⟩ := List.mem_map.mp member
    rw [List.mem_singleton.mp other]
    exact degrees (by simp)
  · intro first member second other
    obtain ⟨x, -, rfl⟩ := List.mem_map.mp member
    rcases List.mem_append.mp other with product | constant
    · obtain ⟨pair, -, rfl⟩ := List.mem_map.mp product
      exact degrees (by simp)
    · rw [List.mem_singleton.mp constant]
      exact degrees (by simp)

/-- A polynomial of degree 2 with its like terms collected: each variable and each product occurs
once, with a coefficient other than 0. -/
structure Collected where
  linear : List (VariableIndex × Int)
  products : List ((VariableIndex × VariableIndex) × Int)
  constant : Int
  nodup_linear : (linear.map Prod.fst).Nodup
  nodup_products : (products.map Prod.fst).Nodup
  sorted : ∀ term ∈ products, Sorted term.1
  linear_nonzero : ∀ term ∈ linear, term.2 ≠ 0
  products_nonzero : ∀ term ∈ products, term.2 ≠ 0

namespace Collected

variable (q : Collected)

noncomputable def terms : List (Monomial × Int) :=
  q.linear.map (fun term => (variableMonomial term.1, term.2)) ++
    (q.products.map (fun term => (productMonomial term.1, term.2)) ++ [(0, q.constant)])

noncomputable def polynomial : IntegerPolynomial :=
  sumOfMonomials q.terms

private theorem nodup_productMonomials :
    (q.products.map fun term => productMonomial term.1).Nodup := by
  rw [← Function.comp_def, ← List.map_map]
  exact nodup_productMonomials_of_sorted q.nodup_products (List.forall_mem_map.mpr q.sorted)

private theorem nodup_terms : (q.terms.map Prod.fst).Nodup := by
  have distinct := nodup_monomials q.nodup_linear q.nodup_products
    (List.forall_mem_map.mpr q.sorted)
  simpa only [terms, List.map_append, List.map_map, Function.comp_def, List.map_cons,
    List.map_nil] using distinct

theorem coeff_polynomial {m : Monomial} {c : Int} (present : (m, c) ∈ q.terms) :
    q.polynomial.coeff m = c :=
  coeff_of_distinct q.nodup_terms present

theorem mem_support_iff {m : Monomial} :
    m ∈ q.polynomial.support ↔ ∃ c, c ≠ 0 ∧ (m, c) ∈ q.terms :=
  mem_support_iff_of_distinct q.nodup_terms

/-- The products are the monomials of degree 2. -/
theorem products_iff {m : Monomial} :
    (m ∈ q.polynomial.support ∧ m.degree = 2) ↔
      m ∈ q.products.map fun term => productMonomial term.1 := by
  rw [q.mem_support_iff]
  simp only [terms, List.mem_append, List.mem_map, List.mem_singleton]
  constructor
  · rintro ⟨⟨c, -, (⟨term, -, same⟩ | ⟨term, member, same⟩ | same)⟩, degree⟩
    · cases same
      simp at degree
    · cases same
      exact ⟨term, member, rfl⟩
    · cases same
      simp at degree
  · rintro ⟨term, member, rfl⟩
    exact ⟨⟨term.2, q.products_nonzero term member, .inr (.inl ⟨term, member, rfl⟩)⟩, by simp⟩

theorem productCount_eq : q.polynomial.productCount = q.products.length := by
  have same : (q.polynomial.support.filter fun m => m.degree = 2) =
      (q.products.map fun term => productMonomial term.1).toFinset := by
    ext m
    rw [Finset.mem_filter, q.products_iff, List.mem_toFinset]
  rw [IntegerPolynomial.productCount, same,
    List.toFinset_card_of_nodup q.nodup_productMonomials, List.length_map]

theorem totalDegree_le_one_iff : q.polynomial.totalDegree ≤ 1 ↔ q.products = [] := by
  constructor
  · intro affine
    by_contra some
    obtain ⟨term, rest, same⟩ := List.exists_cons_of_ne_nil some
    have listed : productMonomial term.1 ∈ q.products.map fun term => productMonomial term.1 := by
      simp [same]
    have present := (q.products_iff.mpr listed).1
    have bound : (productMonomial term.1).degree ≤ q.polynomial.totalDegree :=
      le_totalDegree present
    rw [degree_productMonomial] at bound
    omega
  · intro none
    refine Finset.sup_le fun m present => ?_
    change m.degree ≤ 1
    obtain ⟨c, -, member⟩ := q.mem_support_iff.mp present
    simp only [terms, none, List.map_nil, List.nil_append, List.mem_append, List.mem_map,
      List.mem_singleton] at member
    rcases member with ⟨term, -, same⟩ | same <;> cases same <;> simp

theorem eq_X_iff {x : VariableIndex} :
    q.polynomial = X x ↔ q.products = [] ∧ q.linear = [(x, 1)] ∧ q.constant = 0 := by
  constructor
  · intro same
    -- every term other than 0 is the one of the variable
    have only : ∀ m c, (m, c) ∈ q.terms → c ≠ 0 → m = variableMonomial x ∧ c = 1 := by
      intro m c member nonzero
      have coefficient := q.coeff_polynomial member
      rw [same, coeff_X] at coefficient
      split at coefficient
      · rename_i here
        exact ⟨here.symm, coefficient.symm⟩
      · exact absurd coefficient.symm nonzero
    have noProducts : q.products = [] := by
      rw [← q.totalDegree_le_one_iff, same]
      exact (totalDegree_X x).le
    have noConstant : q.constant = 0 := by
      by_contra nonzero
      obtain ⟨zero, -⟩ := only 0 q.constant (by simp [terms]) nonzero
      have degree := congrArg Finsupp.degree zero
      simp at degree
    have linear : ∀ term ∈ q.linear, term = (x, 1) := by
      intro term member
      have listed : (variableMonomial term.1, term.2) ∈ q.terms := by
        simp only [terms, List.mem_append, List.mem_map]
        exact .inl ⟨term, member, rfl⟩
      obtain ⟨key, one⟩ := only _ _ listed (q.linear_nonzero term member)
      exact Prod.ext (variableMonomial_injective key) one
    refine ⟨noProducts, ?_, noConstant⟩
    cases found : q.linear with
    | nil =>
      have zero : q.polynomial = 0 := by
        simp [polynomial, sumOfMonomials, terms, found, noProducts, noConstant]
      exact absurd (same.symm.trans zero) (X_ne_zero x)
    | cons first rest =>
      have distinct := q.nodup_linear
      rw [found] at linear distinct
      cases rest with
      | nil => rw [linear first List.mem_cons_self]
      | cons second rest =>
        rw [linear first (by simp), linear second (by simp)] at distinct
        simp at distinct
  · rintro ⟨noProducts, linear, noConstant⟩
    simp [polynomial, sumOfMonomials, terms, linear, noProducts, noConstant, variableMonomial, X]

end Collected

end SolverProtocol
