import SolverProtocol.Configuration
import SolverProtocol.Proofs.Function.Narrowing
import SolverProtocol.Proofs.Function.Sums

/-! What was read from a canonical form is read again from its own. It comes back as it is, apart
from terms of integer functions whose coefficient was narrowed to 0: these are left out the second
time, and nothing changes from then on. -/

namespace SolverProtocol

open Number Binary64

/-- The function without the terms whose coefficient is 0. -/
def AffineFunction.withoutZeros {T : Type} [Coefficient T] (g : AffineFunction T) :
    AffineFunction T :=
  { g with terms := g.terms.filter fun term => !(Coefficient.widen term.coefficient).equal .zero }

theorem AffineFunction.withoutZeros_eq_self_iff {T : Type} [Coefficient T]
    {g : AffineFunction T} :
    g.withoutZeros = g ↔
      ∀ term ∈ g.terms, (Coefficient.widen term.coefficient).equal .zero = false := by
  obtain ⟨terms, constant⟩ := g
  simp only [withoutZeros, AffineFunction.mk.injEq, and_true, List.filter_eq_self,
    Bool.not_eq_true']

theorem AffineFunction.withoutZeros_withoutZeros {T : Type} [Coefficient T]
    (g : AffineFunction T) : g.withoutZeros.withoutZeros = g.withoutZeros := by
  rw [withoutZeros_eq_self_iff]
  intro term member
  simpa using (List.mem_filter.mp member).2

section Affine

variable {k : CoefficientType} {tolerance : Binary64} {q : Canonical}
  {g : AffineFunction k.Carrier}

/-- The sums that are left have variables of their own, and so have the terms that stand for
them. -/
private theorem AffineFunction.nodup_ofCanonical
    (read : AffineFunction.ofCanonical tolerance q = .ok g) : (g.terms.map (·.var)).Nodup := by
  obtain ⟨-, each, -⟩ := ofCanonical_eq_ok_iff.mp read
  have same : g.terms.map (·.var) = q.variableSums.map Prod.fst := by
    generalize g.terms = terms, q.variableSums = sums at each
    induction each with
    | nil => rfl
    | cons stands rest ih => rw [List.map_cons, List.map_cons, ih, stands.1]
  rw [same]
  exact nodup_keys_sumByKey _

private theorem AffineFunction.variableSums_toCanonical (distinct : (g.terms.map (·.var)).Nodup) :
    g.toCanonical.variableSums =
      g.withoutZeros.terms.map fun term => (term.var, Coefficient.widen term.coefficient) := by
  have keys : (((g.toCanonical.affineTerms.map fun t => (t.var, t.coefficient))).map
      Prod.fst).Nodup := by
    simpa [toCanonical, AffineTerm.widen, Function.comp_def] using distinct
  rw [QuadraticFunction.variableSums, sumByKey_of_nodup keys]
  simp [toCanonical, AffineTerm.widen, withoutZeros, List.filter_map, Function.comp_def]

/-- A term of the result stands for a sum other than 0. -/
private theorem AffineFunction.exists_sum (read : AffineFunction.ofCanonical tolerance q = .ok g)
    {term : AffineTerm k.Carrier} (member : term ∈ g.terms) :
    ∃ sum, (term.var, sum) ∈ q.variableSums ∧ sum.equal .zero = false ∧
      Coefficient.narrow? tolerance sum = some term.coefficient := by
  obtain ⟨-, each, -⟩ := ofCanonical_eq_ok_iff.mp read
  obtain ⟨⟨x, sum⟩, present, same, narrowed⟩ := exists_of_forall₂_right each member
  obtain ⟨-, -, nonzero⟩ := mem_sumByKey_iff.mp present
  exact ⟨sum, same ▸ present, nonzero, narrowed⟩

theorem AffineFunction.ofCanonical_toCanonical (nonnegative : zero.le tolerance = true)
    (read : AffineFunction.ofCanonical tolerance q = .ok g) :
    AffineFunction.ofCanonical tolerance g.toCanonical = .ok g.withoutZeros := by
  obtain ⟨-, -, constant⟩ := ofCanonical_eq_ok_iff.mp read
  refine ofCanonical_eq_ok_iff.mpr ⟨rfl, ?_, k.narrow?_widened nonnegative constant⟩
  rw [variableSums_toCanonical (nodup_ofCanonical read), List.forall₂_map_left_iff,
    List.forall₂_same]
  intro term member
  obtain ⟨sum, -, -, narrowed⟩ := exists_sum read (List.mem_of_mem_filter member)
  exact ⟨rfl, k.narrow?_widened nonnegative narrowed⟩

end Affine

theorem SingleVariable.ofCanonical_toCanonical {tolerance : Binary64}
    (nonnegative : zero.le tolerance = true) (g : SingleVariable) :
    SingleVariable.ofCanonical tolerance g.toCanonical = .ok g := by
  have unit : one.equal zero = false := by decide +kernel
  have distinct : ([(g.var, one)].map Prod.fst).Nodup := List.nodup_singleton _
  have sums : g.toCanonical.variableSums = [(g.var, one)] := by
    simp only [QuadraticFunction.variableSums, toCanonical, List.map_cons, List.map_nil,
      sumByKey_of_nodup distinct, List.filter_cons, unit, Bool.not_false, if_true, List.filter_nil]
  refine ofCanonical_eq_ok_iff.mpr ⟨rfl, one, sums, ?_, ?_⟩
  · exact (denotes_one.sub denotes_one denotes_zero.fits).abs_le nonnegative
  · exact denotes_zero.abs_le nonnegative

theorem QuadraticFunction.ofCanonical_toCanonical {k : CoefficientType} {tolerance : Binary64}
    {q : Canonical} {g : QuadraticFunction k.Carrier} (nonnegative : zero.le tolerance = true)
    (read : QuadraticFunction.ofCanonical tolerance q = .ok g) :
    QuadraticFunction.ofCanonical tolerance g.toCanonical = .ok g := by
  obtain ⟨ofAffine, ofQuadratic, constant⟩ := ofCanonical_eq_ok_iff.mp read
  refine ofCanonical_eq_ok_iff.mpr ⟨?_, ?_, k.narrow?_widened nonnegative constant⟩
  · rw [toCanonical, List.forall₂_map_left_iff, List.forall₂_same]
    intro term member
    obtain ⟨t, -, -, narrowed⟩ := exists_of_forall₂_right ofAffine member
    exact ⟨rfl, k.narrow?_widened nonnegative narrowed⟩
  · rw [toCanonical, List.forall₂_map_left_iff, List.forall₂_same]
    intro term member
    obtain ⟨t, -, -, -, narrowed⟩ := exists_of_forall₂_right ofQuadratic member
    exact ⟨rfl, rfl, k.narrow?_widened nonnegative narrowed⟩

section Integers

variable {tolerance x : Binary64} {q : Canonical} {c : Int64}

private theorem widen_equal_zero_iff (narrowed : narrowInteger? tolerance x = some c) :
    (ofInt c.toInt).equal zero = true ↔ c = 0 := by
  obtain ⟨-, -, denotes⟩ := narrowInteger?_eq_some_iff.mp narrowed
  rw [(denotes_ofInt denotes.fits).equal_iff denotes_zero]
  exact ⟨fun same => Int64.toInt_inj.mp same, fun same => same ▸ rfl⟩

private theorem abs_le_of_narrowed_to_zero (nonnegative : zero.le tolerance = true)
    (narrowed : narrowInteger? tolerance x = some 0) : x.abs.le tolerance = true := by
  obtain ⟨finite, near, origin⟩ := narrowInteger?_eq_some_iff.mp narrowed
  obtain ⟨-, b, -, place, -⟩ := le_eq_true_iff.mp nonnegative
  have size := (position_abs_sub_zero origin).trans (position_abs finite)
  rw [← abs_sub_zero_le origin]
  exact le_of_not_lt size place near

private theorem ofCanonical_of_single {y : VariableIndex} {constant : Int64}
    (noProducts : q.productSums = []) (sum : q.variableSums = [(y, x)])
    (narrowed : narrowInteger? tolerance x = some c)
    (kept : narrowInteger? tolerance q.constant = some constant) :
    FunctionType.ofCanonical (.affine .integer) tolerance q = .ok ⟨[⟨c, y⟩], constant⟩ := by
  refine AffineFunction.ofCanonical_eq_ok_iff.mpr ⟨noProducts, ?_, kept⟩
  rw [sum]
  exact .cons ⟨rfl, narrowed⟩ .nil

end Integers

/-- What becomes of the functions that `q` is read as when they are read again. -/
structure Settles (tolerance : Binary64) (q : Canonical) : Prop where
  unchanged : ∀ f : FunctionType, f ≠ .affine .integer → ∀ g : f.Carrier,
    f.ofCanonical tolerance q = .ok g → f.ofCanonical tolerance (f.toCanonical g) = .ok g
  zerosLeftOut : ∀ g : (FunctionType.affine .integer).Carrier,
    FunctionType.ofCanonical (.affine .integer) tolerance q = .ok g →
      FunctionType.ofCanonical (.affine .integer) tolerance g.toCanonical = .ok g.withoutZeros
  unchanged_iff : ∀ g : (FunctionType.affine .integer).Carrier,
    FunctionType.ofCanonical (.affine .integer) tolerance q = .ok g →
      (FunctionType.ofCanonical (.affine .integer) tolerance g.toCanonical = .ok g ↔
        ∀ term ∈ g.terms, term.coefficient ≠ 0)
  /-- From the second time on nothing changes. -/
  settled : ∀ (f : FunctionType) (g h : f.Carrier), f.ofCanonical tolerance q = .ok g →
    f.ofCanonical tolerance (f.toCanonical g) = .ok h →
      f.ofCanonical tolerance (f.toCanonical h) = .ok h
  distinct : ∀ (k : CoefficientType) (g : (FunctionType.affine k).Carrier),
    FunctionType.ofCanonical (.affine k) tolerance q = .ok g → (g.terms.map (·.var)).Nodup
  nonzero : ∀ g : (FunctionType.affine .real).Carrier,
    FunctionType.ofCanonical (.affine .real) tolerance q = .ok g →
      ∀ term ∈ g.terms, term.coefficient.equal zero = false
  /-- A coefficient is 0 only where a sum other than 0 was narrowed to it. -/
  narrowed : ∀ g : (FunctionType.affine .integer).Carrier,
    FunctionType.ofCanonical (.affine .integer) tolerance q = .ok g →
      ∀ term ∈ g.terms, term.coefficient = 0 →
        ∃ sum, (term.var, sum) ∈ q.variableSums ∧ sum.equal zero = false ∧
          sum.abs.le tolerance = true

section Again

variable {tolerance : Binary64} {q : Canonical}

private theorem nonzero_of_real {g : (FunctionType.affine .real).Carrier}
    (read : FunctionType.ofCanonical (.affine .real) tolerance q = .ok g) :
    ∀ term ∈ g.terms, term.coefficient.equal zero = false := by
  intro term member
  obtain ⟨sum, -, nonzero, same⟩ := AffineFunction.exists_sum read member
  obtain rfl := Option.some.inj same
  exact nonzero

theorem withoutZeros_integer_iff {g : (FunctionType.affine .integer).Carrier}
    (read : FunctionType.ofCanonical (.affine .integer) tolerance q = .ok g) :
    g.withoutZeros = g ↔ ∀ term ∈ g.terms, term.coefficient ≠ 0 := by
  rw [AffineFunction.withoutZeros_eq_self_iff]
  refine forall₂_congr fun term member => ?_
  obtain ⟨sum, -, -, narrowed⟩ := AffineFunction.exists_sum read member
  rw [← Bool.not_eq_true]
  exact not_congr (widen_equal_zero_iff narrowed)

private theorem unchanged_of_other (nonnegative : zero.le tolerance = true) {f : FunctionType}
    (other : f ≠ .affine .integer) {g : f.Carrier} (read : f.ofCanonical tolerance q = .ok g) :
    f.ofCanonical tolerance (f.toCanonical g) = .ok g := by
  cases f with
  | singleVariable => exact g.ofCanonical_toCanonical nonnegative
  | affine k =>
    cases k with
    | real =>
      have same := AffineFunction.withoutZeros_eq_self_iff.mpr (nonzero_of_real read)
      exact (AffineFunction.ofCanonical_toCanonical nonnegative read).trans (congrArg _ same)
    | integer => exact absurd rfl other
  | quadratic k => exact QuadraticFunction.ofCanonical_toCanonical nonnegative read

theorem unchanged_from_second (nonnegative : zero.le tolerance = true) {f : FunctionType}
    {g h : f.Carrier} (first : f.ofCanonical tolerance q = .ok g)
    (second : f.ofCanonical tolerance (f.toCanonical g) = .ok h) :
    f.ofCanonical tolerance (f.toCanonical h) = .ok h := by
  by_cases integers : f = .affine .integer
  · subst integers
    obtain rfl : g.withoutZeros = h :=
      Except.ok.inj ((AffineFunction.ofCanonical_toCanonical nonnegative first).symm.trans second)
    have third := AffineFunction.ofCanonical_toCanonical nonnegative second
    rwa [g.withoutZeros_withoutZeros] at third
  · exact unchanged_of_other nonnegative integers second

/-- Reading a function again changes nothing but leaves out integers that were narrowed to 0. -/
theorem conversion_settles (nonnegative : zero.le tolerance = true) (q : Canonical) :
    Settles tolerance q where
  unchanged f other g read := unchanged_of_other nonnegative other read
  zerosLeftOut g read := AffineFunction.ofCanonical_toCanonical nonnegative read
  unchanged_iff g read := by
    have again := AffineFunction.ofCanonical_toCanonical nonnegative read
    rw [← withoutZeros_integer_iff read]
    constructor
    · exact fun same => Except.ok.inj (again.symm.trans same)
    · exact fun same => again.trans (congrArg Except.ok same)
  settled f g h first second := unchanged_from_second nonnegative first second
  distinct k g read := AffineFunction.nodup_ofCanonical read
  nonzero g read := nonzero_of_real read
  narrowed g read term member none := by
    obtain ⟨sum, listed, nonzero, narrowed⟩ := AffineFunction.exists_sum read member
    rw [none] at narrowed
    exact ⟨sum, listed, nonzero, abs_le_of_narrowed_to_zero nonnegative narrowed⟩

end Again

/-- The function `10^-10 x1`. -/
def tinyMultiple : Canonical := ⟨[⟨Numeral.toBinary64 ⟨false, 1, -10⟩, ⟨1⟩⟩], [], zero⟩

/-- The function `0 x1`. -/
def zeroMultiple : AffineFunction CoefficientType.integer.Carrier := ⟨[⟨0, ⟨1⟩⟩], 0⟩

/-- The tolerance unless another one is set. -/
abbrev defaultTolerance : Binary64 := Configuration.conversionTolerance {}

private theorem zeroMultiple_stands : FunctionType.ofCanonical (.affine .integer) defaultTolerance
    tinyMultiple = .ok zeroMultiple := by
  have sums : tinyMultiple.variableSums = [(⟨1⟩, Numeral.toBinary64 ⟨false, 1, -10⟩)] := by
    decide +kernel
  exact ofCanonical_of_single rfl sums (by decide +kernel) (by decide +kernel)

theorem tinyMultiple_settles :
    zero.le defaultTolerance = true ∧
      FunctionType.ofCanonical (.affine .integer) defaultTolerance tinyMultiple =
        .ok zeroMultiple ∧
      FunctionType.ofCanonical (.affine .integer) defaultTolerance zeroMultiple.toCanonical =
        .ok zeroMultiple.withoutZeros := by
  have nonnegative : zero.le defaultTolerance = true := by decide +kernel
  have settles := conversion_settles nonnegative tinyMultiple
  exact ⟨nonnegative, zeroMultiple_stands, settles.zerosLeftOut _ zeroMultiple_stands⟩

/-- The term that was narrowed to 0 is not there the second time. -/
theorem zeroMultiple_not_kept :
    zero.le defaultTolerance = true ∧
      FunctionType.ofCanonical (.affine .integer) defaultTolerance tinyMultiple =
        .ok zeroMultiple ∧
      FunctionType.ofCanonical (.affine .integer) defaultTolerance zeroMultiple.toCanonical ≠
        .ok zeroMultiple := by
  have nonnegative : zero.le defaultTolerance = true := by decide +kernel
  refine ⟨nonnegative, zeroMultiple_stands, fun same => ?_⟩
  have again := AffineFunction.ofCanonical_toCanonical nonnegative zeroMultiple_stands
  have kept := (withoutZeros_integer_iff zeroMultiple_stands).mp
    (Except.ok.inj (again.symm.trans same))
  have member : ⟨0, ⟨1⟩⟩ ∈ zeroMultiple.terms := List.mem_singleton_self _
  exact kept _ member rfl

end SolverProtocol
