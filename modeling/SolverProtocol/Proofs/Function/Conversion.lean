import SolverProtocol.Conversion
import SolverProtocol.Proofs.Function.Exact

namespace SolverProtocol

open Number Binary64 MvPolynomial

/-- A polynomial is refused for its products, if it has any. -/
noncomputable def IntegerPolynomial.refusal (p : IntegerPolynomial) : ConversionError :=
  if p.productCount = 0 then .notSingleVariable else .quadraticTerms p.productCount

namespace QuadraticFunction

variable {q : Canonical} {tolerance : Binary64} {k : CoefficientType}

/-- The affine function with the sums as its coefficients. -/
def affineOfSums (k : CoefficientType) (q : Canonical) : AffineFunction k.Carrier :=
  ⟨q.variableSums.map fun entry => ⟨k.ofWhole entry.2, entry.1⟩, k.ofWhole q.constant⟩

/-- The quadratic function with the same terms. -/
def quadraticOfTerms (k : CoefficientType) (q : Canonical) : QuadraticFunction k.Carrier :=
  ⟨q.affineTerms.map fun t => ⟨k.ofWhole t.coefficient, t.var⟩,
    q.quadraticTerms.map fun t => ⟨k.ofWhole t.coefficient, t.first, t.second⟩,
    k.ofWhole q.constant⟩

/-- The coefficients of the collected function, in the order in which they are narrowed. -/
def collectedCoefficients (q : Canonical) : List Binary64 :=
  q.variableSums.map Prod.snd ++ [q.constant]

/-- The first coefficient that the type does not have. -/
def firstUnheld (k : CoefficientType) (coefficients : List Binary64) : Option Binary64 :=
  coefficients.find? fun x => !k.holds x.truncate

theorem firstUnheld_eq_none_iff {coefficients : List Binary64} :
    firstUnheld k coefficients = none ↔ ∀ x ∈ coefficients, k.holds x.truncate = true := by
  simp [firstUnheld]

private theorem firstUnheld_append (first second : List Binary64) :
    firstUnheld k (first ++ second) = (firstUnheld k first).or (firstUnheld k second) :=
  List.find?_append

theorem WholeParts.affine_ofCanonical (parts : q.WholeParts)
    (nonnegative : zero.le tolerance = true) :
    AffineFunction.ofCanonical (T := k.Carrier) tolerance q =
      if q.productSums = [] then
        match firstUnheld k q.collectedCoefficients with
        | some x => .error (.inexactCoefficient x)
        | none => .ok (affineOfSums k q)
      else .error (.quadraticTerms q.productSums.length) := by
  have each : ∀ entry ∈ q.variableSums,
      (do return (⟨← narrow tolerance entry.2, entry.1⟩ : AffineTerm k.Carrier)) =
        if k.holds entry.2.truncate then .ok ⟨k.ofWhole entry.2, entry.1⟩
        else .error (ConversionError.inexactCoefficient entry.2) := by
    intro entry member
    obtain ⟨n, denotes, -⟩ := parts.linear.collected member
    rw [k.narrow_whole nonnegative denotes, denotes.truncate]
    split <;> rfl
  rw [AffineFunction.ofCanonical, requireNoProducts_eq, mapM_checked _ each,
    k.narrow_whole nonnegative parts.constant, collectedCoefficients, firstUnheld_append]
  simp only [firstUnheld, List.find?_map, List.find?_singleton, Function.comp_def]
  split
  · cases q.variableSums.find? fun entry => !k.holds entry.2.truncate with
    | some entry => rfl
    | none => cases k.holds q.constant.truncate <;> rfl
  · rfl

theorem WholeParts.quadratic_ofCanonical (parts : q.WholeParts)
    (nonnegative : zero.le tolerance = true) :
    QuadraticFunction.ofCanonical (T := k.Carrier) tolerance q =
      match firstUnheld k q.coefficients with
      | some x => .error (.inexactCoefficient x)
      | none => .ok (quadraticOfTerms k q) := by
  have affineTerms : ∀ t ∈ q.affineTerms,
      (do return (⟨← narrow tolerance t.coefficient, t.var⟩ : AffineTerm k.Carrier)) =
        if k.holds t.coefficient.truncate then .ok ⟨k.ofWhole t.coefficient, t.var⟩
        else .error (ConversionError.inexactCoefficient t.coefficient) := by
    intro t member
    have denotes := parts.denotes (c := t.coefficient) (by
      simp only [coefficients, List.mem_append, List.mem_map]
      exact .inl (.inl ⟨t, member, rfl⟩))
    rw [k.narrow_whole nonnegative denotes]
    split <;> rfl
  have quadraticTerms : ∀ t ∈ q.quadraticTerms,
      (do return (⟨← narrow tolerance t.coefficient, t.first, t.second⟩ :
        QuadraticTerm k.Carrier)) =
        if k.holds t.coefficient.truncate then .ok ⟨k.ofWhole t.coefficient, t.first, t.second⟩
        else .error (ConversionError.inexactCoefficient t.coefficient) := by
    intro t member
    have denotes := parts.denotes (c := t.coefficient) (by
      simp only [coefficients, List.mem_append, List.mem_map]
      exact .inl (.inr ⟨t, member, rfl⟩))
    rw [k.narrow_whole nonnegative denotes]
    split <;> rfl
  rw [QuadraticFunction.ofCanonical, mapM_checked _ affineTerms, mapM_checked _ quadraticTerms,
    k.narrow_whole nonnegative parts.constant, coefficients, firstUnheld_append,
    firstUnheld_append]
  simp only [firstUnheld, List.find?_map, List.find?_singleton, Function.comp_def]
  cases q.affineTerms.find? fun t => !k.holds t.coefficient.truncate with
  | some t => rfl
  | none =>
    cases q.quadraticTerms.find? fun t => !k.holds t.coefficient.truncate with
    | some t => rfl
    | none => cases k.holds q.constant.truncate <;> rfl

private theorem ExactParts.held_collected (parts : q.ExactParts) :
    firstUnheld k q.collectedCoefficients = none := by
  rw [firstUnheld_eq_none_iff]
  intro x member
  simp only [collectedCoefficients, List.mem_append, List.mem_map, List.mem_singleton] at member
  rcases member with ⟨entry, present, rfl⟩ | rfl
  · obtain ⟨n, denotes, -, bound⟩ := sumByKey_whole parts.linear parts.linear_small present
    exact k.holds_of_small (denotes.truncate.symm ▸ bound.trans parts.linear_small)
  · exact k.holds_of_small parts.constant_small

theorem ExactParts.held (parts : q.ExactParts) : firstUnheld k q.coefficients = none :=
  firstUnheld_eq_none_iff.mpr fun _ member => k.holds_of_small (parts.small member)

theorem ExactParts.single_ofCanonical (parts : q.ExactParts)
    (nonnegative : zero.le tolerance = true) (belowOne : tolerance.lt one = true)
    (noProducts : q.productSums = []) :
    (∀ x, parts.collected.linear = [(x, 1)] → parts.collected.constant = 0 →
      SingleVariable.ofCanonical tolerance q = .ok ⟨x⟩) ∧
    ((¬∃ x, parts.collected.linear = [(x, 1)] ∧ parts.collected.constant = 0) →
      SingleVariable.ofCanonical tolerance q = .error .notSingleVariable) := by
  have constant : q.constant.abs.le tolerance = true ↔ parts.collected.constant = 0 :=
    parts.constant.abs_le_iff nonnegative belowOne
  have linear : parts.collected.linear = readSums q.variableSums := rfl
  rw [SingleVariable.ofCanonical, requireNoProducts_eq, if_pos noProducts, linear]
  rcases sums : q.variableSums with _ | ⟨⟨y, coefficient⟩, _ | ⟨second, rest⟩⟩
  · simp [readSums, bind, Except.bind]
  · have member : (y, coefficient) ∈ sumByKey q.underVariables := by
      change (y, coefficient) ∈ q.variableSums
      simp [sums]
    obtain ⟨n, denotes, -, bound⟩ := sumByKey_whole parts.linear parts.linear_small member
    obtain ⟨m, difference, unit⟩ := denotes.sub_one (bound.trans parts.linear_small)
    have near : (coefficient.sub .one).abs.le tolerance = true ↔ n = 1 :=
      (difference.abs_le_iff nonnegative belowOne).trans unit
    have test : ((coefficient.sub .one).abs.le tolerance && q.constant.abs.le tolerance) = true ↔
        n = 1 ∧ parts.collected.constant = 0 := by
      rw [Bool.and_eq_true, near, constant]
    have readAs : readSums [(y, coefficient)] = [(y, n)] := by
      simp [readSums, denotes.truncate]
    rw [readAs]
    constructor
    · intro x only zero
      cases only
      exact if_pos (test.mpr ⟨rfl, zero⟩)
    · intro other
      refine if_neg fun passes => ?_
      obtain ⟨rfl, zero⟩ := test.mp passes
      exact other ⟨y, rfl, zero⟩
  · simp [readSums, bind, Except.bind]

private theorem isInteger_affineOfSums (parts : q.WholeParts) :
    ∀ c ∈ (affineOfSums k q).coefficients, k.IsInteger c := by
  intro c member
  simp only [AffineFunction.coefficients, affineOfSums, List.map_map, List.mem_append,
    List.mem_map, List.mem_singleton, Function.comp_apply] at member
  rcases member with ⟨entry, present, rfl⟩ | rfl
  · obtain ⟨n, denotes, -⟩ := parts.linear.collected present
    exact k.isInteger_ofWhole denotes
  · exact k.isInteger_ofWhole parts.constant

theorem polynomial_affineOfSums (parts : q.WholeParts)
    (held : firstUnheld k q.collectedCoefficients = none) (noProducts : q.productSums = []) :
    (affineOfSums k q).polynomial k.read = q.polynomial truncate := by
  rw [firstUnheld_eq_none_iff, collectedCoefficients, List.forall_mem_append, List.forall_mem_map,
    List.forall_mem_singleton] at held
  have constant := k.read_ofWhole parts.constant held.2
  have terms : (affineOfSums k q).terms.map (AffineTerm.polynomial k.read) =
      q.variableSums.map fun entry => weight variableMonomial entry.1 entry.2.truncate := by
    rw [affineOfSums, List.map_map]
    refine List.map_congr_left fun entry present => ?_
    obtain ⟨n, denotes, -⟩ := parts.linear.collected present
    rw [weight_variable, Function.comp_apply, AffineTerm.polynomial,
      k.read_ofWhole denotes.self (held.1 entry present)]
  rw [← parts.polynomial_eq, noProducts, AffineFunction.polynomial, terms, affineOfSums, constant]
  simp [contribution]

private theorem isInteger_quadraticOfTerms (parts : q.WholeParts) :
    ∀ c ∈ (quadraticOfTerms k q).coefficients, k.IsInteger c := by
  have same : (quadraticOfTerms k q).coefficients = q.coefficients.map k.ofWhole := by
    simp [coefficients, quadraticOfTerms, Function.comp_def]
  intro c member
  rw [same] at member
  obtain ⟨x, present, rfl⟩ := List.mem_map.mp member
  exact k.isInteger_ofWhole (parts.denotes present)

theorem polynomial_quadraticOfTerms (parts : q.WholeParts)
    (held : firstUnheld k q.coefficients = none) :
    (quadraticOfTerms k q).polynomial k.read = q.polynomial truncate := by
  have read : ∀ x ∈ q.coefficients, k.read (k.ofWhole x) = x.truncate := fun x member =>
    k.read_ofWhole (parts.denotes member) (firstUnheld_eq_none_iff.mp held x member)
  simp only [coefficients, List.forall_mem_append, List.forall_mem_map,
    List.forall_mem_singleton] at read
  obtain ⟨⟨ofAffine, ofQuadratic⟩, constant⟩ := read
  have affineTerms : (quadraticOfTerms k q).affineTerms.map (AffineTerm.polynomial k.read) =
      q.affineTerms.map (AffineTerm.polynomial truncate) := by
    rw [quadraticOfTerms, List.map_map]
    refine List.map_congr_left fun t present => ?_
    rw [Function.comp_apply, AffineTerm.polynomial, ofAffine t present]
    rfl
  have quadraticTerms :
      (quadraticOfTerms k q).quadraticTerms.map (QuadraticTerm.polynomial k.read) =
        q.quadraticTerms.map (QuadraticTerm.polynomial truncate) := by
    rw [quadraticOfTerms, List.map_map]
    refine List.map_congr_left fun t present => ?_
    rw [Function.comp_apply, QuadraticTerm.polynomial, ofQuadratic t present]
    rfl
  rw [QuadraticFunction.polynomial, affineTerms, quadraticTerms]
  simp only [quadraticOfTerms, constant]
  rfl

section Outcome

variable (parts : q.ExactParts)

include parts

private theorem productSums_eq_nil_iff :
    q.productSums = [] ↔ (q.polynomial truncate).totalDegree ≤ 1 := by
  rw [← parts.polynomial_collected, Collected.totalDegree_le_one_iff]
  exact List.map_eq_nil_iff.symm

private theorem productCount_eq_length :
    (q.polynomial truncate).productCount = q.productSums.length := by
  rw [← parts.polynomial_collected, Collected.productCount_eq]
  exact List.length_map ..

private theorem refusal_of_products (some : q.productSums ≠ []) :
    IntegerPolynomial.refusal (q.polynomial truncate) = .quadraticTerms q.productSums.length := by
  have count := productCount_eq_length parts
  rw [IntegerPolynomial.refusal, count, if_neg (List.length_eq_zero_iff.not.mpr some)]

private theorem refusal_of_no_products (none : q.productSums = []) :
    IntegerPolynomial.refusal (q.polynomial truncate) = .notSingleVariable := by
  have count := productCount_eq_length parts
  rw [IntegerPolynomial.refusal, count, none, List.length_nil, if_pos rfl]

variable (nonnegative : zero.le tolerance = true) (belowOne : tolerance.lt one = true)

include nonnegative belowOne

theorem ofCanonical_admitted (target : FunctionType)
    (admitted : target.Admits (q.polynomial truncate)) :
    ∃ h, target.ofCanonical tolerance q = .ok h ∧ target.Whole h ∧
      target.polynomial h = q.polynomial truncate := by
  cases target with
  | singleVariable =>
    obtain ⟨x, same⟩ := admitted
    rw [← parts.polynomial_collected, Collected.eq_X_iff] at same
    obtain ⟨noProducts, only, noConstant⟩ := same
    have none : q.productSums = [] := List.map_eq_nil_iff.mp noProducts
    have read := (parts.single_ofCanonical nonnegative belowOne none).1 x only noConstant
    refine ⟨⟨x⟩, read, trivial, ?_⟩
    rw [← parts.polynomial_collected]
    exact (parts.collected.eq_X_iff.mpr ⟨noProducts, only, noConstant⟩).symm
  | affine k =>
    have none := (productSums_eq_nil_iff parts).mpr admitted
    have held : firstUnheld k q.collectedCoefficients = .none := parts.held_collected
    have read := parts.whole.affine_ofCanonical (k := k) nonnegative
    rw [if_pos none, held] at read
    exact ⟨affineOfSums k q, read, isInteger_affineOfSums parts.whole,
      polynomial_affineOfSums parts.whole held none⟩
  | quadratic k =>
    have held : firstUnheld k q.coefficients = none := parts.held
    have read := parts.whole.quadratic_ofCanonical (k := k) nonnegative
    rw [held] at read
    exact ⟨quadraticOfTerms k q, read, isInteger_quadraticOfTerms parts.whole,
      polynomial_quadraticOfTerms parts.whole held⟩

theorem ofCanonical_refused (target : FunctionType)
    (refused : ¬target.Admits (q.polynomial truncate)) :
    target.ofCanonical tolerance q =
      .error (IntegerPolynomial.refusal (q.polynomial truncate)) := by
  cases target with
  | singleVariable =>
    by_cases none : q.productSums = []
    · rw [refusal_of_no_products parts none]
      refine (parts.single_ofCanonical nonnegative belowOne none).2 ?_
      rintro ⟨x, only, noConstant⟩
      have noProducts : parts.collected.products = [] := List.map_eq_nil_iff.mpr none
      have same := parts.collected.eq_X_iff.mpr ⟨noProducts, only, noConstant⟩
      exact refused ⟨x, parts.polynomial_collected.symm.trans same⟩
    · rw [refusal_of_products parts none]
      simp only [FunctionType.ofCanonical, SingleVariable.ofCanonical, requireNoProducts_eq,
        if_neg none]
      rfl
  | affine k =>
    have some := (productSums_eq_nil_iff parts).not.mpr refused
    have read := parts.whole.affine_ofCanonical (k := k) nonnegative
    rw [if_neg some] at read
    rw [refusal_of_products parts some]
    exact read
  | quadratic k => exact absurd trivial refused

end Outcome

end QuadraticFunction

/-- A conversion that goes by the polynomial alone. -/
structure ConvertsExactly (target source : FunctionType) (tolerance : Binary64)
    (g : source.Carrier) : Prop where
  succeeds_iff : (∃ h, convert target tolerance g = .ok h) ↔ target.Admits (source.polynomial g)
  sound : ∀ h, convert target tolerance g = .ok h →
    target.Whole h ∧ target.polynomial h = source.polynomial g ∧
      ∀ point, target.valueAt point h = source.valueAt point g
  refused : ∀ e, convert target tolerance g = .error e →
    e = .conversionImpossible source target
      (IntegerPolynomial.refusal (source.polynomial g))

theorem converts_exactly (source target : FunctionType) (g : source.Carrier)
    (exact : source.Exact g) (tolerance : Binary64) (nonnegative : zero.le tolerance = true)
    (belowOne : tolerance.lt one = true) : ConvertsExactly target source tolerance g := by
  have parts := QuadraticFunction.exactParts exact.toCanonical
  have same : QuadraticFunction.polynomial truncate (source.toCanonical g) =
      source.polynomial g := exact.polynomial_toCanonical
  have admitted := QuadraticFunction.ofCanonical_admitted parts nonnegative belowOne target
  have refused := QuadraticFunction.ofCanonical_refused parts nonnegative belowOne target
  rw [same] at admitted refused
  by_cases admits : target.Admits (source.polynomial g)
  · obtain ⟨h, read, whole, denotes⟩ := admitted admits
    have converted : convert target tolerance g = .ok h := by
      rw [convert, convertCanonical, read]
      rfl
    refine ⟨⟨fun _ => admits, fun _ => ⟨h, converted⟩⟩, ?_, ?_⟩
    · rintro h' again
      rw [converted] at again
      cases again
      refine ⟨whole, denotes, fun point => ?_⟩
      rw [← FunctionType.eval_polynomial, ← FunctionType.eval_polynomial, denotes]
    · intro e failed
      rw [converted] at failed
      cases failed
  · have converted : convert target tolerance g =
        .error (.conversionImpossible source target
          (IntegerPolynomial.refusal (source.polynomial g))) := by
      rw [convert, convertCanonical, refused admits]
      rfl
    refine ⟨⟨?_, fun possible => absurd possible admits⟩, ?_, ?_⟩
    · rintro ⟨h, succeeded⟩
      rw [converted] at succeeded
      cases succeeded
    · intro h succeeded
      rw [converted] at succeeded
      cases succeeded
    · intro e failed
      rw [converted] at failed
      exact (Except.error.inj failed).symm

/-- The products cancel, and so does one of two variables. -/
def cancelling : QuadraticFunction Int64 :=
  ⟨[⟨1, ⟨1⟩⟩, ⟨3, ⟨2⟩⟩, ⟨-3, ⟨2⟩⟩], [⟨2, ⟨1⟩, ⟨2⟩⟩, ⟨-2, ⟨2⟩, ⟨1⟩⟩], 0⟩

theorem cancelling_is_variable :
    (FunctionType.quadratic .integer).Exact cancelling ∧ zero.le zero = true ∧
      zero.lt one = true ∧
      ∃ h, @convert .singleVariable (.quadratic .integer) zero cancelling = .ok h := by
  have exact : (FunctionType.quadratic .integer).Exact cancelling :=
    ⟨fun _ _ => trivial, by decide⟩
  have nonnegative : zero.le zero = true := (denotes_zero.le_iff denotes_zero).mpr le_rfl
  have belowOne : zero.lt one = true := (denotes_zero.lt_iff denotes_one).mpr Int.one_pos
  refine ⟨exact, nonnegative, belowOne, ?_⟩
  have admitted : FunctionType.singleVariable.Admits
      ((FunctionType.quadratic .integer).polynomial cancelling) := by
    refine ⟨⟨1⟩, ?_⟩
    have one : (1 : Int64).toInt = 1 := by decide
    have two : (2 : Int64).toInt = 2 := by decide
    have three : (3 : Int64).toInt = 3 := by decide
    have minusTwo : (-2 : Int64).toInt = -2 := by decide
    have minusThree : (-3 : Int64).toInt = -3 := by decide
    have nothing : (0 : Int64).toInt = 0 := by decide
    simp only [FunctionType.polynomial, QuadraticFunction.polynomial, cancelling,
      AffineTerm.polynomial, QuadraticTerm.polynomial, CoefficientType.read, List.map_cons,
      List.map_nil, List.sum_cons, List.sum_nil, one, two, three, minusTwo, minusThree, nothing,
      map_neg, map_one, map_zero]
    ring
  exact (converts_exactly (.quadratic .integer) .singleVariable cancelling exact zero nonnegative
    belowOne).succeeds_iff.mpr admitted

end SolverProtocol
