import SolverProtocol.Proofs.Function.Distinct
import SolverProtocol.Proofs.Store.Objective

/-! Which types the objective can be read as. A looser tolerance only adds to them. A function that
is read as one type is read as the wider ones as well, except that sums of fractions may be integers
where the fractions are not. -/

namespace SolverProtocol

open Number Binary64

theorem FunctionType.ofCanonical_mono {f : FunctionType} {lower higher : Binary64}
    (looser : lower.le higher = true) {q : Canonical} {g : f.Carrier}
    (read : f.ofCanonical lower q = .ok g) : f.ofCanonical higher q = .ok g := by
  cases f with
  | singleVariable =>
    obtain ⟨noProducts, c, sums, unit, constant⟩ := SingleVariable.ofCanonical_eq_ok_iff.mp read
    exact SingleVariable.ofCanonical_eq_ok_iff.mpr
      ⟨noProducts, c, sums, le_trans unit looser, le_trans constant looser⟩
  | affine k =>
    obtain ⟨noProducts, each, constant⟩ := AffineFunction.ofCanonical_eq_ok_iff.mp read
    refine AffineFunction.ofCanonical_eq_ok_iff.mpr
      ⟨noProducts, each.imp ?_, k.narrow?_mono looser constant⟩
    rintro entry term ⟨same, narrowed⟩
    exact ⟨same, k.narrow?_mono looser narrowed⟩
  | quadratic k =>
    obtain ⟨ofAffine, ofQuadratic, constant⟩ := QuadraticFunction.ofCanonical_eq_ok_iff.mp read
    refine QuadraticFunction.ofCanonical_eq_ok_iff.mpr
      ⟨ofAffine.imp ?_, ofQuadratic.imp ?_, k.narrow?_mono looser constant⟩
    · rintro t term ⟨same, narrowed⟩
      exact ⟨same, k.narrow?_mono looser narrowed⟩
    · rintro t term ⟨first, second, narrowed⟩
      exact ⟨first, second, k.narrow?_mono looser narrowed⟩

theorem FunctionType.represents_iff {f : FunctionType} {tolerance : Binary64} {q : Canonical} :
    f.represents tolerance q = true ↔ ∃ g, f.ofCanonical tolerance q = .ok g := isOk_iff

theorem convertCanonical_eq_ok_iff {target source : FunctionType} {tolerance : Binary64}
    {q : Canonical} {g : target.Carrier} :
    convertCanonical target source tolerance q = .ok g ↔
      target.ofCanonical tolerance q = .ok g := by
  unfold convertCanonical
  cases target.ofCanonical tolerance q <;> simp [Except.mapError]

namespace Session

variable (session : Session)

/-- The objective is said to be readable as a function of one type. -/
def canReadAs (f : FunctionType) : Bool :=
  session.backend.canGet session.store (.global (.objective f))

theorem canReadAs_iff {f : FunctionType} :
    session.canReadAs f = true ↔
      ∃ g, f.ofCanonical session.tolerance session.store.objective.function = .ok g :=
  FunctionType.represents_iff

theorem objectiveAs_eq_ok_iff {f : FunctionType} {g : f.Carrier} :
    session.objectiveAs f = .ok g ↔
      f.ofCanonical session.tolerance session.store.objective.function = .ok g := by
  rw [objectiveAs, Store.get_eq]
  exact convertCanonical_eq_ok_iff

end Session

/-- Nothing that is read within the lower tolerance is lost or read otherwise within the higher
one. -/
structure KeepsConversions (lower higher : Binary64) : Prop where
  reads : ∀ (f : FunctionType) (q : Canonical) (g : f.Carrier),
    f.ofCanonical lower q = .ok g → f.ofCanonical higher q = .ok g
  canGet : ∀ (session : Session) (next : Configuration), session.tolerance = lower →
    next.conversionTolerance = higher → ∀ f, session.canReadAs f = true →
      (session.step (.configure (.ok next))).canReadAs f = true
  get : ∀ (session : Session) (next : Configuration), session.tolerance = lower →
    next.conversionTolerance = higher → ∀ (f : FunctionType) (g : f.Carrier),
      session.objectiveAs f = .ok g → (session.step (.configure (.ok next))).objectiveAs f = .ok g

theorem keepsConversions {lower higher : Binary64} (looser : lower.le higher = true) :
    KeepsConversions lower higher where
  reads f q g read := FunctionType.ofCanonical_mono looser read
  canGet session next before after f readable := by
    subst before after
    rw [Session.canReadAs_iff] at readable ⊢
    obtain ⟨g, read⟩ := readable
    exact ⟨g, FunctionType.ofCanonical_mono looser read⟩
  get session next before after f g read := by
    subst before after
    rw [Session.objectiveAs_eq_ok_iff] at read ⊢
    exact FunctionType.ofCanonical_mono looser read

/-- The function `3/2 x1`, which is read as `x1` and as `2 x1`. -/
def oneAndAHalf : Canonical := ⟨[⟨one.add half, ⟨1⟩⟩], [], zero⟩

theorem oneAndAHalf_kept :
    half.le one = true ∧
      ∃ g, FunctionType.ofCanonical (.affine .integer) half oneAndAHalf = .ok g ∧
        FunctionType.ofCanonical (.affine .integer) one oneAndAHalf = .ok g := by
  have looser : half.le one = true := by decide +kernel
  have readable : (FunctionType.affine .integer).represents half oneAndAHalf = true := by
    decide +kernel
  obtain ⟨g, read⟩ := FunctionType.represents_iff.mp readable
  exact ⟨looser, g, read, (keepsConversions looser).reads _ _ g read⟩

section Existence

variable {T : Type} [Coefficient T] {tolerance : Binary64} {q : Canonical}

theorem AffineFunction.exists_ofCanonical_iff :
    (∃ g : AffineFunction T, AffineFunction.ofCanonical tolerance q = .ok g) ↔
      q.productSums = [] ∧
        (∀ entry ∈ q.variableSums, ∃ c : T, Coefficient.narrow? tolerance entry.2 = some c) ∧
        ∃ c : T, Coefficient.narrow? tolerance q.constant = some c := by
  simp only [← AffineTerm.exists_standsFor_iff, ← exists_forall₂_iff]
  constructor
  · rintro ⟨g, read⟩
    obtain ⟨noProducts, each, constant⟩ := ofCanonical_eq_ok_iff.mp read
    exact ⟨noProducts, ⟨_, each⟩, ⟨_, constant⟩⟩
  · rintro ⟨noProducts, ⟨terms, each⟩, ⟨c, constant⟩⟩
    exact ⟨⟨terms, c⟩, ofCanonical_eq_ok_iff.mpr ⟨noProducts, each, constant⟩⟩

theorem QuadraticFunction.exists_ofCanonical_iff :
    (∃ g : QuadraticFunction T, QuadraticFunction.ofCanonical tolerance q = .ok g) ↔
      ∀ x ∈ q.coefficients, ∃ c : T, Coefficient.narrow? tolerance x = some c := by
  simp only [coefficients, List.forall_mem_append, List.forall_mem_map, List.forall_mem_singleton]
  constructor
  · rintro ⟨g, read⟩
    obtain ⟨ofAffine, ofQuadratic, constant⟩ := ofCanonical_eq_ok_iff.mp read
    refine ⟨⟨fun t member => ?_, fun t member => ?_⟩, ⟨_, constant⟩⟩
    · have stands := exists_forall₂_iff.mp ⟨_, ofAffine⟩ t member
      exact AffineTerm.exists_standsFor_iff.mp stands
    · have stands := exists_forall₂_iff.mp ⟨_, ofQuadratic⟩ t member
      exact QuadraticTerm.exists_standsFor_iff.mp stands
  · rintro ⟨⟨ofAffine, ofQuadratic⟩, ⟨c, constant⟩⟩
    obtain ⟨affineTerms, affine⟩ := exists_forall₂_iff.mpr fun t member =>
      (@AffineTerm.exists_standsFor_iff T _ tolerance (t.var, t.coefficient)).mpr
        (ofAffine t member)
    obtain ⟨quadraticTerms, quadratic⟩ := exists_forall₂_iff.mpr fun t member =>
      QuadraticTerm.exists_standsFor_iff.mpr (ofQuadratic t member)
    exact ⟨⟨affineTerms, quadraticTerms, c⟩,
      ofCanonical_eq_ok_iff.mpr ⟨affine, quadratic, constant⟩⟩

end Existence

/-- The second type is wider than the first one, however the terms are written. -/
inductive FunctionType.Within : FunctionType → FunctionType → Prop where
  | affine (k : CoefficientType) : Within .singleVariable (.affine k)
  | real : Within (.affine .integer) (.affine .real)
  | quadratic (f : FunctionType) : Within f (.quadratic .real)

section Wider

variable {tolerance : Binary64} {q : Canonical}

private theorem affine_real_of_no_products (noProducts : q.productSums = []) :
    ∃ g, (FunctionType.affine .real).ofCanonical tolerance q = .ok g :=
  AffineFunction.exists_ofCanonical_iff.mpr
    ⟨noProducts, fun entry _ => ⟨entry.2, rfl⟩, q.constant, rfl⟩

private theorem quadratic_real (tolerance : Binary64) (q : Canonical) :
    ∃ g, (FunctionType.quadratic .real).ofCanonical tolerance q = .ok g :=
  QuadraticFunction.exists_ofCanonical_iff.mpr fun x _ => ⟨x, rfl⟩

/-- A coefficient near 1 and a constant near 0 are near to integers. -/
private theorem affine_integer_of_single (small : tolerance.le half = true)
    (read : ∃ g, FunctionType.singleVariable.ofCanonical tolerance q = .ok g) :
    ∃ g, (FunctionType.affine .integer).ofCanonical tolerance q = .ok g := by
  obtain ⟨g, read⟩ := read
  obtain ⟨noProducts, c, sums, unit, constant⟩ := SingleVariable.ofCanonical_eq_ok_iff.mp read
  refine AffineFunction.exists_ofCanonical_iff.mpr ⟨noProducts, ?_, ?_⟩
  · rw [sums, List.forall_mem_singleton]
    exact exists_narrowInteger?_of_near small denotes_one (by decide) unit
  · have near : (q.constant.sub zero).abs.le tolerance = true := by
      rwa [abs_sub_zero_le denotes_zero]
    exact exists_narrowInteger?_of_near small denotes_zero (by decide) near

theorem FunctionType.Within.readable {f target : FunctionType} (within : f.Within target)
    (small : tolerance.le half = true) (read : ∃ g, f.ofCanonical tolerance q = .ok g) :
    ∃ h, target.ofCanonical tolerance q = .ok h := by
  cases within with
  | affine k =>
    have integers := affine_integer_of_single small read
    cases k with
    | real =>
      exact affine_real_of_no_products (AffineFunction.exists_ofCanonical_iff.mp integers).1
    | integer => exact integers
  | real => exact affine_real_of_no_products (AffineFunction.exists_ofCanonical_iff.mp read).1
  | quadratic => exact quadratic_real tolerance q

private theorem exists_narrowInteger?_of_zero (nonnegative : zero.le tolerance = true)
    {x : Binary64} (nothing : x.equal zero = true) : ∃ c, narrowInteger? tolerance x = some c := by
  rw [narrowInteger?_whole nonnegative (equal_zero_iff.mp nothing), if_pos (by decide)]
  exact ⟨_, rfl⟩

/-- Where nothing is summed, the coefficients that are not 0 are the sums. -/
private theorem quadratic_integer_of_distinct (nonnegative : zero.le tolerance = true)
    (distinct : q.Distinct)
    (read : ∃ g, (FunctionType.affine .integer).ofCanonical tolerance q = .ok g) :
    ∃ g, (FunctionType.quadratic .integer).ofCanonical tolerance q = .ok g := by
  obtain ⟨noProducts, each, constant⟩ := AffineFunction.exists_ofCanonical_iff.mp read
  refine QuadraticFunction.exists_ofCanonical_iff.mpr ?_
  simp only [QuadraticFunction.coefficients, List.forall_mem_append, List.forall_mem_map,
    List.forall_mem_singleton]
  refine ⟨⟨fun t member => ?_, fun t member => ?_⟩, constant⟩
  · by_cases nothing : t.coefficient.equal zero = true
    · exact exists_narrowInteger?_of_zero nonnegative nothing
    · refine each (t.var, t.coefficient) ?_
      change _ ∈ sumByKey q.underVariables
      rw [sumByKey_of_nodup distinct.nodup_variables]
      refine List.mem_filter.mpr ⟨List.mem_map.mpr ⟨t, member, rfl⟩, ?_⟩
      simpa using nothing
  · apply exists_narrowInteger?_of_zero nonnegative
    change sumByKey q.underProducts = [] at noProducts
    rw [sumByKey_of_nodup distinct.nodup_products, List.filter_eq_nil_iff] at noProducts
    have cancelled := noProducts (t.product, t.coefficient) (List.mem_map.mpr ⟨t, member, rfl⟩)
    simpa using cancelled

end Wider

/-- What the types that `q` is read as say about the others. -/
structure ReadableAsWider (tolerance : Binary64) (q : Canonical) : Prop where
  wider : ∀ f target : FunctionType, f.Within target →
    f.represents tolerance q = true → target.represents tolerance q = true
  /-- No type has so many functions. -/
  always : (FunctionType.quadratic .real).represents tolerance q = true
  integers : q.Distinct → (FunctionType.affine .integer).represents tolerance q = true →
    (FunctionType.quadratic .integer).represents tolerance q = true
  /-- Coefficients of one variable or product are not summed there. -/
  integers_iff : (FunctionType.quadratic .integer).represents tolerance q = true ↔
    ∀ x ∈ q.coefficients, ∃ c, narrowInteger? tolerance x = some c
  objective : ∀ session : Session, session.tolerance = tolerance →
    session.store.objective.function = q → ∀ f target : FunctionType, f.Within target →
      session.canReadAs f = true → session.canReadAs target = true

theorem readable_as_wider {tolerance : Binary64} (nonnegative : zero.le tolerance = true)
    (small : tolerance.le half = true) (q : Canonical) : ReadableAsWider tolerance q where
  wider f target within readable :=
    FunctionType.represents_iff.mpr
      (within.readable small (FunctionType.represents_iff.mp readable))
  always := FunctionType.represents_iff.mpr (quadratic_real tolerance q)
  integers distinct readable := by
    rw [FunctionType.represents_iff] at readable ⊢
    exact quadratic_integer_of_distinct nonnegative distinct readable
  integers_iff := FunctionType.represents_iff.trans QuadraticFunction.exists_ofCanonical_iff
  objective session same stored f target within readable := by
    subst same stored
    rw [Session.canReadAs_iff] at readable ⊢
    exact within.readable small readable

theorem oneAndAHalf_readable :
    zero.le half = true ∧ half.le half = true ∧
      FunctionType.singleVariable.represents half oneAndAHalf = true ∧
      (FunctionType.affine .integer).represents half oneAndAHalf = true := by
  have nonnegative : zero.le half = true := by decide +kernel
  have small : half.le half = true := by decide +kernel
  have single : FunctionType.singleVariable.represents half oneAndAHalf = true := by
    decide +kernel
  have readable := readable_as_wider nonnegative small oneAndAHalf
  exact ⟨nonnegative, small, single, readable.wider _ _ (.affine .integer) single⟩

/-- The function `1/2 x1 + 1/2 x1`. -/
def halves : Canonical := ⟨[⟨half, ⟨1⟩⟩, ⟨half, ⟨1⟩⟩], [], zero⟩

/-- The sum of the terms is an integer, and neither of them is. -/
theorem halves_not_quadratic :
    let tolerance := ({} : Session).tolerance
    zero.le tolerance = true ∧ tolerance.le half = true ∧
      (FunctionType.affine .integer).represents tolerance halves = true ∧
      (FunctionType.quadratic .integer).represents tolerance halves = false := by
  decide +kernel

end SolverProtocol
