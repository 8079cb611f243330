import SolverProtocol.Proofs.Function.Distinct
import SolverProtocol.Proofs.Number.Widening
import SolverProtocol.Proofs.Store.Objective

/-! Functions with integer coefficients as the objective. Their canonical form has the nearest
doubles as its coefficients, so that large ones come back rounded, or are refused where they would
come back outside of 64 bits. -/

namespace SolverProtocol

open Number Binary64 QuadraticFunction

/-- The coefficients of functions with integer coefficients. -/
abbrev IntegerCoefficient : Type := CoefficientType.integer.Carrier

/-- The integer that the nearest double is. -/
def IntegerCoefficient.rounded (c : IntegerCoefficient) : Int :=
  (Coefficient.widen c : Binary64).truncate

private theorem natAbs_toInt_le (c : IntegerCoefficient) : c.toInt.natAbs ≤ 2 ^ 63 := by
  have above := Int64.le_toInt c
  have below := Int64.toInt_lt c
  omega

theorem widen_denotes_rounded (c : IntegerCoefficient) :
    (Coefficient.widen c : Binary64).Denotes (IntegerCoefficient.rounded c) :=
  (denotes_ofInt_nearest (natAbs_toInt_le c)).self

/-- Doubles that are the coefficients rounded, apart from some that are 0. -/
structure Widened (coefficients : List IntegerCoefficient) (values : List Binary64) : Prop where
  whole : ∀ x ∈ values, x.Denotes x.truncate
  same : ∀ P : Int → Prop, P 0 →
    ((∀ x ∈ values, P x.truncate) ↔ ∀ c ∈ coefficients, P (IntegerCoefficient.rounded c))

namespace Widened

variable {coefficients : List IntegerCoefficient} {values : List Binary64}

theorem bounds (widened : Widened coefficients values) :
    ∀ x ∈ values, -2 ^ 63 ≤ x.truncate ∧ x.truncate ≤ 2 ^ 63 :=
  (widened.same (fun n => -2 ^ 63 ≤ n ∧ n ≤ 2 ^ 63) (by decide)).mpr
    fun c _ => truncate_ofInt_bounds (natAbs_toInt_le c)

theorem held_iff (widened : Widened coefficients values) :
    firstUnheld .integer values = none ↔ ∀ c ∈ coefficients, c.toInt < 2 ^ 63 - 512 :=
  calc
    _ ↔ ∀ x ∈ values, x.truncate < 2 ^ 63 := by
      rw [firstUnheld_eq_none_iff]
      refine forall₂_congr fun x member => ?_
      simp only [CoefficientType.holds, decide_eq_true_eq, (widened.bounds x member).1, true_and]
    _ ↔ ∀ c ∈ coefficients, IntegerCoefficient.rounded c < 2 ^ 63 :=
      widened.same (· < 2 ^ 63) (by decide)
    _ ↔ _ := forall₂_congr fun c _ => truncate_ofInt_lt_iff (natAbs_toInt_le c)

/-- Nothing but 2^63 is refused. -/
theorem unheld (widened : Widened coefficients values) {x : Binary64}
    (first : firstUnheld .integer values = some x) : x = .ofInt (2 ^ 63) := by
  have member := List.mem_of_find?_eq_some first
  have outside := List.find?_some first
  simp only [CoefficientType.holds, Bool.not_eq_true', decide_eq_false_iff_not] at outside
  have number : x.truncate = 2 ^ 63 := by
    have := widened.bounds x member
    omega
  have denotes := widened.whole x member
  rw [number] at denotes
  exact denotes.eq_ofInt (by decide)

end Widened

private theorem widened_coefficients (g : QuadraticFunction IntegerCoefficient) :
    Widened g.coefficients g.toCanonical.coefficients := by
  rw [g.coefficients_toCanonical]
  constructor
  · exact List.forall_mem_map.mpr fun c _ => (widen_denotes_rounded c).self
  · exact fun P _ => List.forall_mem_map

private theorem wholeParts_of_distinct {g : QuadraticFunction IntegerCoefficient}
    (distinct : g.Distinct) :
    g.toCanonical.WholeParts :=
  distinct.toCanonical.wholeParts (widened_coefficients g).whole

private theorem widened_collected {g : QuadraticFunction IntegerCoefficient} (distinct : g.Distinct)
    (noProducts : g.quadraticTerms = []) :
    Widened g.coefficients g.toCanonical.collectedCoefficients := by
  have parts := wholeParts_of_distinct distinct
  constructor
  · simp only [collectedCoefficients, List.forall_mem_append, List.forall_mem_map,
      List.forall_mem_singleton]
    refine ⟨fun entry member => ?_, parts.constant⟩
    obtain ⟨n, denotes, -⟩ := parts.linear.collected member
    exact denotes.self
  · intro P zero
    have none : g.toCanonical.quadraticTerms = [] := by rw [toCanonical, noProducts, List.map_nil]
    exact (distinct.toCanonical.forall_collected_iff none zero).trans
      ((widened_coefficients g).same P zero)

theorem polynomial_rounded (g : QuadraticFunction IntegerCoefficient) :
    g.toCanonical.polynomial truncate = g.polynomial IntegerCoefficient.rounded :=
  g.polynomial_toCanonical

/-- The polynomial stays the same only if no coefficient is rounded. -/
theorem rounded_unaltered_iff {g : QuadraticFunction IntegerCoefficient} (distinct : g.Distinct) :
    g.polynomial IntegerCoefficient.rounded = g.polynomial Int64.toInt ↔
      ∀ c ∈ g.coefficients, Fits c.toInt := by
  rw [distinct.polynomial_eq_iff]
  apply forall₂_congr
  intro c _
  exact truncate_ofInt_eq_iff (natAbs_toInt_le c)

/-- What becomes of a function with integer coefficients that is stored as the objective and read
as a function of the same type. `polynomial` is its polynomial, given what each coefficient is read
as. -/
structure ReadsBackRounded (session : Session) {f : FunctionType} (g : f.Carrier)
    (coefficients : List IntegerCoefficient)
    (polynomial : (IntegerCoefficient → Int) → IntegerPolynomial) : Prop where
  isConversion :
    (session.step (.setObjective g)).objectiveAs f = convert f session.tolerance g
  /-- From half way between 2^63 - 1024 and 2^63 on, a coefficient is rounded to 2^63. -/
  succeeds_iff : Succeeds (convert f session.tolerance g) ↔
    ∀ c ∈ coefficients, c.toInt < 2 ^ 63 - 512
  refused : ∀ e, convert f session.tolerance g = .error e →
    e = .conversionImpossible f f (.inexactCoefficient (.ofInt (2 ^ 63)))
  rounded : ∀ h, convert f session.tolerance g = .ok h →
    f.polynomial h = polynomial IntegerCoefficient.rounded
  unaltered_iff : ∀ h, convert f session.tolerance g = .ok h →
    (f.polynomial h = polynomial Int64.toInt ↔ ∀ c ∈ coefficients, Fits c.toInt)

/-- The values that the type checks in turn decide whether the function is read back. -/
theorem readsBackRounded {session : Session} {f : FunctionType} {g result : f.Carrier}
    {coefficients : List IntegerCoefficient} {values : List Binary64}
    {polynomial : (IntegerCoefficient → Int) → IntegerPolynomial}
    (widened : Widened coefficients values)
    (read : f.ofCanonical session.tolerance (f.toCanonical g) =
      match firstUnheld .integer values with
      | some x => .error (.inexactCoefficient x)
      | none => .ok result)
    (denotes : firstUnheld .integer values = none →
      f.polynomial result = polynomial IntegerCoefficient.rounded)
    (unaltered : polynomial IntegerCoefficient.rounded = polynomial Int64.toInt ↔
      ∀ c ∈ coefficients, Fits c.toInt) :
    ReadsBackRounded session g coefficients polynomial := by
  have stored := congrArg (·.store.objective) (session.step_setObjective g)
  have isConversion := (readsAsConversion stored).get f
  have outcome : convert f session.tolerance g =
      match firstUnheld .integer values with
      | some x => .error (.conversionImpossible f f (.inexactCoefficient x))
      | none => .ok result := by
    rw [convert, convertCanonical, read]
    cases firstUnheld .integer values <;> rfl
  have checked := widened.held_iff
  cases first : firstUnheld .integer values with
  | none =>
    rw [first] at outcome
    refine ⟨isConversion, iff_of_true ⟨result, outcome⟩ (checked.mp first), ?_, ?_, ?_⟩
    · intro e failed
      cases outcome.symm.trans failed
    · intro h succeeded
      cases outcome.symm.trans succeeded
      exact denotes first
    · intro h succeeded
      cases outcome.symm.trans succeeded
      rw [denotes first]
      exact unaltered
  | some x =>
    rw [first] at outcome
    have large : ¬∀ c ∈ coefficients, c.toInt < 2 ^ 63 - 512 := by
      rw [← checked, first]
      exact Option.some_ne_none x
    refine ⟨isConversion, iff_of_false ?_ large, ?_, ?_, ?_⟩
    · rintro ⟨h, succeeded⟩
      cases outcome.symm.trans succeeded
    · intro e failed
      cases outcome.symm.trans failed
      rw [widened.unheld first]
    · intro h succeeded
      cases outcome.symm.trans succeeded
    · intro h succeeded
      cases outcome.symm.trans succeeded

variable {session : Session}

theorem affine_readsBackRounded (nonnegative : zero.le session.tolerance = true)
    (g : AffineFunction IntegerCoefficient) (distinct : (g.terms.map (·.var)).Nodup) :
    @ReadsBackRounded session (.affine .integer) g g.coefficients (g.polynomial ·) := by
  have apart := g.distinct_toQuadratic distinct
  have parts := wholeParts_of_distinct apart
  have noProducts : g.toQuadratic.toCanonical.productSums = [] := rfl
  have widened := widened_collected apart rfl
  have unaltered := rounded_unaltered_iff apart
  have read := parts.affine_ofCanonical (k := .integer) nonnegative
  rw [g.coefficients_toQuadratic] at widened unaltered
  rw [g.polynomial_toQuadratic, g.polynomial_toQuadratic] at unaltered
  rw [if_pos noProducts] at read
  refine readsBackRounded widened read ?_ unaltered
  intro held
  have denotes := polynomial_affineOfSums parts held noProducts
  rwa [polynomial_rounded, g.polynomial_toQuadratic] at denotes

theorem quadratic_readsBackRounded (nonnegative : zero.le session.tolerance = true)
    (g : QuadraticFunction IntegerCoefficient) (distinct : g.Distinct) :
    @ReadsBackRounded session (.quadratic .integer) g g.coefficients (g.polynomial ·) := by
  have parts := wholeParts_of_distinct distinct
  have read := parts.quadratic_ofCanonical (k := .integer) nonnegative
  refine readsBackRounded (widened_coefficients g) read ?_ (rounded_unaltered_iff distinct)
  intro held
  have denotes := polynomial_quadraticOfTerms parts held
  rwa [polynomial_rounded] at denotes

/-- An objective with integer coefficients is read back with each of them rounded to a double. -/
theorem integer_objective_rounded (session : Session)
    (nonnegative : zero.le session.tolerance = true) :
    (∀ g : AffineFunction IntegerCoefficient, (g.terms.map (·.var)).Nodup →
      @ReadsBackRounded session (.affine .integer) g g.coefficients (g.polynomial ·)) ∧
    ∀ g : QuadraticFunction IntegerCoefficient, g.Distinct →
      @ReadsBackRounded session (.quadratic .integer) g g.coefficients (g.polynomial ·) :=
  ⟨affine_readsBackRounded nonnegative, quadratic_readsBackRounded nonnegative⟩

private theorem default_tolerance_nonnegative : zero.le (Session.tolerance {}) = true := by
  decide +kernel

/-- The function `c x1`. -/
def multiple (c : IntegerCoefficient) : AffineFunction IntegerCoefficient := ⟨[⟨c, ⟨1⟩⟩], 0⟩

private theorem distinct_multiple (c : IntegerCoefficient) :
    ((multiple c).terms.map (·.var)).Nodup :=
  List.nodup_singleton _

private theorem forall_mem_coefficients_multiple {c : IntegerCoefficient}
    {P : IntegerCoefficient → Prop}
    (own : P c) (constant : P 0) : ∀ d ∈ (multiple c).coefficients, P d :=
  List.forall_mem_cons.mpr ⟨own, List.forall_mem_singleton.mpr constant⟩

/-- The double after 2^53 comes back as it was. -/
theorem even_multiple_reads_back :
    zero.le (Session.tolerance {}) = true ∧
      ((multiple 9007199254740994).terms.map (·.var)).Nodup ∧
      ∃ h, (Session.step {} (@Event.setObjective (.affine .integer)
          (multiple 9007199254740994))).objectiveAs (.affine .integer) = .ok h ∧
        FunctionType.polynomial (.affine .integer) h =
          (multiple 9007199254740994).polynomial Int64.toInt := by
  have distinct := distinct_multiple 9007199254740994
  have back := (integer_objective_rounded {} default_tolerance_nonnegative).1 _ distinct
  have even : Fits 9007199254740994 :=
    (truncate_ofInt_eq_iff (by decide)).mp (by decide +kernel)
  obtain ⟨h, converted⟩ := back.succeeds_iff.mpr
    (forall_mem_coefficients_multiple (by decide) (by decide))
  refine ⟨default_tolerance_nonnegative, distinct, h, back.isConversion.trans converted, ?_⟩
  exact (back.unaltered_iff h converted).mpr
    (forall_mem_coefficients_multiple even denotes_zero.fits)

/-- Half way between two doubles a coefficient comes back as another one, and is not refused. -/
theorem odd_multiple_altered :
    zero.le (Session.tolerance {}) = true ∧
      ((multiple 9007199254740993).terms.map (·.var)).Nodup ∧
      ∃ h, (Session.step {} (@Event.setObjective (.affine .integer)
          (multiple 9007199254740993))).objectiveAs (.affine .integer) = .ok h ∧
        FunctionType.polynomial (.affine .integer) h ≠
          (multiple 9007199254740993).polynomial Int64.toInt := by
  have distinct := distinct_multiple 9007199254740993
  have back := @affine_readsBackRounded {} default_tolerance_nonnegative _ distinct
  obtain ⟨h, converted⟩ := back.succeeds_iff.mpr
    (forall_mem_coefficients_multiple (by decide) (by decide))
  refine ⟨default_tolerance_nonnegative, distinct, h, back.isConversion.trans converted, ?_⟩
  intro same
  have fits := (back.unaltered_iff h converted).mp same 9007199254740993 List.mem_cons_self
  have number : (9007199254740993 : IntegerCoefficient).toInt = 9007199254740993 := by decide
  have kept := (truncate_ofInt_eq_iff (natAbs_toInt_le 9007199254740993)).mpr fits
  have rounded : (ofInt 9007199254740993).truncate = 9007199254740992 := by decide +kernel
  rw [number, rounded] at kept
  exact absurd kept (by decide)

end SolverProtocol
