import SolverProtocol.Proofs.Function.Conversion

namespace SolverProtocol

open Number Binary64 MvPolynomial

/-- Each variable and each product of two variables occurs in one term at most. -/
structure QuadraticFunction.Distinct {T : Type} (g : QuadraticFunction T) : Prop where
  ofVariables : (g.affineTerms.map (·.var)).Nodup
  ofProducts : (g.quadraticTerms.map (·.product)).Nodup

theorem AffineFunction.distinct_toQuadratic {T : Type} (g : AffineFunction T)
    (distinct : (g.terms.map (·.var)).Nodup) : g.toQuadratic.Distinct :=
  ⟨distinct, List.nodup_nil⟩

namespace QuadraticFunction

variable {T : Type} {g : QuadraticFunction T}

/-- The monomial and the coefficient of each term. -/
noncomputable def monomials (g : QuadraticFunction T) (read : T → Int) : List (Monomial × Int) :=
  g.affineTerms.map (fun t => (variableMonomial t.var, read t.coefficient)) ++
    (g.quadraticTerms.map (fun t => (productMonomial t.product, read t.coefficient)) ++
      [(0, read g.constant)])

private theorem polynomial_eq_sumOfMonomials (g : QuadraticFunction T) (read : T → Int) :
    g.polynomial read = sumOfMonomials (g.monomials read) := by
  have ofAffine : AffineTerm.polynomial read =
      fun t => monomial (variableMonomial t.var) (read t.coefficient) :=
    funext fun t => (weight_variable t.var _).symm
  have ofQuadratic : QuadraticTerm.polynomial read =
      fun t => monomial (productMonomial t.product) (read t.coefficient) :=
    funext fun t => (weight_product t _).symm
  simp [polynomial, sumOfMonomials, monomials, Function.comp_def, ofAffine, ofQuadratic, add_assoc]

theorem Distinct.nodup_monomials (distinct : g.Distinct) (read : T → Int) :
    ((g.monomials read).map Prod.fst).Nodup := by
  have sorted : ∀ pair ∈ g.quadraticTerms.map (·.product), Sorted pair :=
    List.forall_mem_map.mpr fun t _ => sorted_product t
  have apart := SolverProtocol.nodup_monomials distinct.ofVariables distinct.ofProducts sorted
  simpa only [monomials, List.map_append, List.map_map, Function.comp_def, List.map_cons,
    List.map_nil] using apart

/-- Each coefficient stands at a monomial of its own, whatever it is read as. -/
private theorem exists_monomial {c : T} (member : c ∈ g.coefficients) :
    ∃ m, ∀ read : T → Int, (m, read c) ∈ g.monomials read := by
  simp only [coefficients, List.mem_append, List.mem_map, List.mem_singleton] at member
  rcases member with (⟨t, present, rfl⟩ | ⟨t, present, rfl⟩) | rfl
  · refine ⟨variableMonomial t.var, fun read => List.mem_append_left _ ?_⟩
    exact List.mem_map.mpr ⟨t, present, rfl⟩
  · refine ⟨productMonomial t.product, fun read => List.mem_append_right _ ?_⟩
    exact List.mem_append_left _ (List.mem_map.mpr ⟨t, present, rfl⟩)
  · exact ⟨0, fun read => by simp [monomials]⟩

/-- The polynomial changes as soon as one coefficient is read as another integer. -/
theorem Distinct.polynomial_eq_iff (distinct : g.Distinct) {first second : T → Int} :
    g.polynomial first = g.polynomial second ↔ ∀ c ∈ g.coefficients, first c = second c := by
  refine ⟨fun same c member => ?_, polynomial_congr⟩
  obtain ⟨m, listed⟩ := exists_monomial member
  have left := coeff_of_distinct (distinct.nodup_monomials first) (listed first)
  have right := coeff_of_distinct (distinct.nodup_monomials second) (listed second)
  rw [← polynomial_eq_sumOfMonomials] at left right
  rw [← left, same, right]

section Canonical

variable [Coefficient T]

theorem Distinct.toCanonical (distinct : g.Distinct) : g.toCanonical.Distinct := by
  constructor
  · simpa [QuadraticFunction.toCanonical, AffineTerm.widen, Function.comp_def]
      using distinct.ofVariables
  · have same (t : QuadraticTerm T) : t.widen.product = t.product := rfl
    simpa [QuadraticFunction.toCanonical, Function.comp_def, same] using distinct.ofProducts

end Canonical

variable {q : Canonical} {k : CoefficientType}

theorem Distinct.nodup_variables (distinct : q.Distinct) :
    (q.underVariables.map Prod.fst).Nodup := by
  simpa [underVariables, Function.comp_def] using distinct.ofVariables

theorem Distinct.nodup_products (distinct : q.Distinct) :
    (q.underProducts.map Prod.fst).Nodup := by
  simpa [underProducts, Function.comp_def] using distinct.ofProducts

theorem Distinct.wholeParts (distinct : q.Distinct)
    (whole : ∀ c ∈ q.coefficients, c.Denotes c.truncate) : q.WholeParts := by
  simp only [coefficients, List.forall_mem_append, List.forall_mem_map,
    List.forall_mem_singleton] at whole
  obtain ⟨⟨ofAffine, ofQuadratic⟩, constant⟩ := whole
  refine ⟨exactSums_of_nodup ?_ distinct.nodup_variables,
    exactSums_of_nodup ?_ distinct.nodup_products, constant⟩
  · exact List.forall_mem_map.mpr ofAffine
  · exact List.forall_mem_map.mpr ofQuadratic

/-- Collecting distinct terms leaves their coefficients, apart from those that are 0. -/
theorem Distinct.forall_collected_iff (distinct : q.Distinct)
    (noProducts : q.quadraticTerms = []) {P : Int → Prop} (zero : P 0) :
    (∀ x ∈ q.collectedCoefficients, P x.truncate) ↔ ∀ x ∈ q.coefficients, P x.truncate := by
  have sums := SolverProtocol.forall_collected_iff distinct.nodup_variables zero
  simp only [collectedCoefficients, coefficients, noProducts, List.map_nil, List.append_nil,
    List.forall_mem_append, List.forall_mem_map, List.forall_mem_singleton]
  refine and_congr_left fun _ => sums.trans ?_
  exact List.forall_mem_map

end QuadraticFunction

end SolverProtocol
