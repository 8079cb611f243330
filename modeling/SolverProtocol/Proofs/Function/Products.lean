import Mathlib.Data.Finset.Card
import Mathlib.Data.Sym.Sym2
import SolverProtocol.Proofs.Function.Narrowing
import SolverProtocol.Proofs.Function.Sums

/-! The types without products judge a function by its products, not by its quadratic terms: all
that counts is for how many unordered pairs of variables the coefficients do not cancel. -/

namespace SolverProtocol

open Number Binary64

namespace QuadraticTerm

variable {T : Type}

/-- The variables of the term, in no order. -/
def factors (t : QuadraticTerm T) : Sym2 VariableIndex := s(t.first, t.second)

/-- The same term with its variables exchanged. -/
def swap (t : QuadraticTerm T) : QuadraticTerm T := ⟨t.coefficient, t.second, t.first⟩

private theorem factors_swap (t : QuadraticTerm T) : t.swap.factors = t.factors := Sym2.eq_swap

theorem factors_product (t : QuadraticTerm T) : s(t.product.1, t.product.2) = t.factors := by
  unfold product
  split
  · rfl
  · exact Sym2.eq_swap

/-- Variables in ascending order stand for their product. -/
theorem product_eq_iff {t u : QuadraticTerm T} : t.product = u.product ↔ t.factors = u.factors := by
  constructor
  · intro same
    rw [← t.factors_product, ← u.factors_product, same]
  · intro same
    obtain ⟨first, second⟩ | ⟨first, second⟩ := Sym2.eq_iff.mp same
    · rw [product, product, first, second]
    · rw [product, product, first, second]
      rcases Nat.lt_trichotomy u.second.value u.first.value with below | equal | above
      · rw [if_pos below.le, if_neg (Nat.not_le_of_lt below)]
      · rw [if_pos equal.le, if_pos equal.ge]
        exact congrArg₂ Prod.mk (congrArg VariableIndex.mk equal)
          (congrArg VariableIndex.mk equal.symm)
      · rw [if_neg (Nat.not_le_of_lt above), if_pos above.le]

end QuadraticTerm

/-- The coefficients of the terms in one product, added from left to right starting from zero. -/
def productSum (terms : List (QuadraticTerm Binary64)) (pair : Sym2 VariableIndex) : Binary64 :=
  ((terms.filter fun t => decide (t.factors = pair)).map (·.coefficient)).foldl Binary64.add zero

/-- The pairs of variables whose product keeps a coefficient other than zero. -/
def remainingProducts (terms : List (QuadraticTerm Binary64)) : Finset (Sym2 VariableIndex) :=
  (terms.map (·.factors)).toFinset.filter fun pair => (productSum terms pair).equal zero = false

section Products

variable {terms others : List (QuadraticTerm Binary64)} {pair : Sym2 VariableIndex}

private theorem productSum_of_not_mem (unknown : pair ∉ terms.map (·.factors)) :
    productSum terms pair = zero := by
  have nothing : terms.filter (fun t => decide (t.factors = pair)) = [] := by
    rw [List.filter_eq_nil_iff]
    intro t member same
    exact unknown (List.mem_map.mpr ⟨t, member, of_decide_eq_true same⟩)
  rw [productSum, nothing]
  rfl

theorem mem_remainingProducts_iff :
    pair ∈ remainingProducts terms ↔ (productSum terms pair).equal zero = false := by
  rw [remainingProducts, Finset.mem_filter, List.mem_toFinset, and_iff_right_iff_imp]
  intro nonzero
  by_contra unknown
  rw [productSum_of_not_mem unknown, (denotes_zero.equal_iff denotes_zero).mpr rfl] at nonzero
  cases nonzero

private theorem remainingProducts_congr
    (same : ∀ pair, productSum others pair = productSum terms pair) :
    remainingProducts others = remainingProducts terms := by
  ext pair
  rw [mem_remainingProducts_iff, mem_remainingProducts_iff, same]

theorem productSum_exchanged
    (exchanged : List.Forall₂ (fun t u => u = t ∨ u = QuadraticTerm.swap t) terms others) :
    productSum others pair = productSum terms pair := by
  have same : (others.filter fun t => decide (t.factors = pair)).map (·.coefficient) =
      (terms.filter fun t => decide (t.factors = pair)).map (·.coefficient) := by
    induction exchanged with
    | nil => rfl
    | @cons t u terms others here rest ih =>
      have factors : u.factors = t.factors := by
        rcases here with rfl | rfl
        · rfl
        · exact t.factors_swap
      have coefficient : u.coefficient = t.coefficient := by
        rcases here with rfl | rfl <;> rfl
      rw [List.filter_cons, List.filter_cons, factors]
      split
      · rw [List.map_cons, List.map_cons, coefficient, ih]
      · exact ih
  rw [productSum, productSum, same]

theorem sumUnder_product (terms : List (QuadraticTerm Binary64)) (t : QuadraticTerm Binary64) :
    sumUnder (terms.map fun u => (u.product, u.coefficient)) t.product =
      productSum terms t.factors := by
  simp only [sumUnder, productSum, List.filter_map, List.map_map, Function.comp_def,
    QuadraticTerm.product_eq_iff]

variable {q : Canonical}

private theorem exists_term_of_mem {entry : (VariableIndex × VariableIndex) × Binary64}
    (member : entry ∈ q.productSums) :
    ∃ t ∈ q.quadraticTerms, t.product = entry.1 ∧
      (productSum q.quadraticTerms t.factors).equal zero = false := by
  obtain ⟨key, sum⟩ := entry
  obtain ⟨known, rfl, nonzero⟩ := mem_sumByKey_iff.mp member
  rw [List.map_map] at known
  obtain ⟨t, listed, rfl⟩ := List.mem_map.mp known
  refine ⟨t, listed, rfl, ?_⟩
  rwa [← sumUnder_product]

/-- Each product that is left in the sums is a remaining one, and the other way round. -/
private theorem mem_factors_productSums_iff :
    pair ∈ q.productSums.map (fun entry => s(entry.1.1, entry.1.2)) ↔
      pair ∈ remainingProducts q.quadraticTerms := by
  constructor
  · intro listed
    obtain ⟨entry, member, rfl⟩ := List.mem_map.mp listed
    obtain ⟨t, -, key, nonzero⟩ := exists_term_of_mem member
    rw [← key, t.factors_product]
    exact mem_remainingProducts_iff.mpr nonzero
  · intro remaining
    have nonzero := mem_remainingProducts_iff.mp remaining
    obtain ⟨known, -⟩ := Finset.mem_filter.mp remaining
    obtain ⟨t, member, rfl⟩ := List.mem_map.mp (List.mem_toFinset.mp known)
    have listed : (t.product, productSum q.quadraticTerms t.factors) ∈ q.productSums := by
      refine mem_sumByKey_iff.mpr ⟨?_, (sumUnder_product ..).symm, nonzero⟩
      rw [List.map_map]
      exact List.mem_map_of_mem member
    exact List.mem_map.mpr ⟨_, listed, t.factors_product⟩

private theorem nodup_factors_productSums (q : Canonical) :
    (q.productSums.map fun entry => s(entry.1.1, entry.1.2)).Nodup := by
  have keys : (q.productSums.map Prod.fst).Nodup := nodup_keys_sumByKey _
  apply List.Nodup.map_on _ (List.Nodup.of_map _ keys)
  intro first listed second other same
  obtain ⟨t, -, left, -⟩ := exists_term_of_mem listed
  obtain ⟨u, -, right, -⟩ := exists_term_of_mem other
  rw [← left, ← right, t.factors_product, u.factors_product] at same
  apply List.inj_on_of_nodup_map keys listed other
  rw [← left, ← right]
  exact QuadraticTerm.product_eq_iff.mpr same

theorem length_productSums (q : Canonical) :
    q.productSums.length = (remainingProducts q.quadraticTerms).card := by
  have same : (q.productSums.map fun entry => s(entry.1.1, entry.1.2)).toFinset =
      remainingProducts q.quadraticTerms := by
    ext pair
    rw [List.mem_toFinset, mem_factors_productSums_iff]
  rw [← same, List.toFinset_card_of_nodup (nodup_factors_productSums q), List.length_map]

end Products

section Refusals

variable {T : Type} [Coefficient T] {tolerance : Binary64} {q : Canonical} {e : ConversionError}

theorem SingleVariable.refused_of_no_products (none : q.productSums = [])
    (failed : SingleVariable.ofCanonical tolerance q = .error e) : e = .notSingleVariable := by
  rw [SingleVariable.ofCanonical, q.requireNoProducts_eq, if_pos none] at failed
  rcases bind_eq_error_iff.mp failed with passed | ⟨-, -, failed⟩
  · cases passed
  · split at failed
    · split at failed <;> cases failed
      rfl
    · cases failed
      rfl

theorem AffineFunction.refused_of_no_products (none : q.productSums = [])
    (failed : (AffineFunction.ofCanonical tolerance q : Except _ (AffineFunction T)) = .error e) :
    ∃ value, e = .inexactCoefficient value := by
  rw [AffineFunction.ofCanonical, q.requireNoProducts_eq, if_pos none] at failed
  rcases bind_eq_error_iff.mp failed with passed | ⟨-, -, failed⟩
  · cases passed
  rcases bind_eq_error_iff.mp failed with ofTerms | ⟨terms, -, failed⟩
  · obtain ⟨entry, -, ofTerm⟩ := exists_of_mapM_eq_error ofTerms
    rcases bind_eq_error_iff.mp ofTerm with narrowing | ⟨coefficient, -, done⟩
    · exact ⟨_, (narrow_eq_error_iff.mp narrowing).2⟩
    · cases done
  · rcases bind_eq_error_iff.mp failed with narrowing | ⟨constant, -, done⟩
    · exact ⟨_, (narrow_eq_error_iff.mp narrowing).2⟩
    · cases done

end Refusals

namespace FunctionType

variable {f : FunctionType} {tolerance : Binary64} {q : Canonical}

/-- Functions of this type have no quadratic terms. -/
def IsLinear : FunctionType → Prop
  | .quadratic _ => False
  | _ => True

private theorem IsLinear.ofCanonical_of_products (linear : f.IsLinear)
    (present : q.productSums ≠ []) :
    f.ofCanonical tolerance q = .error (.quadraticTerms q.productSums.length) := by
  cases f with
  | singleVariable =>
    rw [ofCanonical, SingleVariable.ofCanonical, q.requireNoProducts_eq, if_neg present]
    rfl
  | affine k =>
    rw [ofCanonical, AffineFunction.ofCanonical, q.requireNoProducts_eq, if_neg present]
    rfl
  | quadratic k => exact linear.elim

private theorem IsLinear.ofCanonical_of_no_products (linear : f.IsLinear)
    (none : q.productSums = []) :
    f.ofCanonical tolerance q = f.ofCanonical tolerance { q with quadraticTerms := [] } := by
  cases f with
  | singleVariable =>
    rw [ofCanonical, SingleVariable.ofCanonical, q.requireNoProducts_eq, if_pos none]
    rfl
  | affine k =>
    rw [ofCanonical, AffineFunction.ofCanonical, q.requireNoProducts_eq, if_pos none]
    rfl
  | quadratic k => exact linear.elim

/-- The products are looked at first, and then never again. -/
theorem IsLinear.ofCanonical_eq (linear : f.IsLinear) (tolerance : Binary64) (q : Canonical) :
    f.ofCanonical tolerance q =
      if (remainingProducts q.quadraticTerms).card = 0 then
        f.ofCanonical tolerance { q with quadraticTerms := [] }
      else .error (.quadraticTerms (remainingProducts q.quadraticTerms).card) := by
  have count := length_productSums q
  by_cases none : q.productSums = []
  · rw [none, List.length_nil] at count
    rw [if_pos count.symm, linear.ofCanonical_of_no_products none]
  · rw [if_neg (count ▸ List.length_eq_zero_iff.not.mpr none), ← count]
    exact linear.ofCanonical_of_products none

/-- Without products there are other reasons for a refusal. -/
private theorem IsLinear.refused_otherwise (linear : f.IsLinear) (none : q.productSums = [])
    {e : ConversionError} (failed : f.ofCanonical tolerance q = .error e) :
    e = .notSingleVariable ∨ ∃ value, e = .inexactCoefficient value := by
  cases f with
  | singleVariable => exact .inl (SingleVariable.refused_of_no_products none failed)
  | affine k => exact .inr (AffineFunction.refused_of_no_products none failed)
  | quadratic k => exact linear.elim

end FunctionType

/-- How a type of functions judges the quadratic terms of `q`. -/
structure JudgesByProducts (f : FunctionType) (tolerance : Binary64) (q : Canonical) : Prop where
  /-- Whatever else there is to complain about, products come first. -/
  refused_iff : ∀ count, f.ofCanonical tolerance q = .error (.quadraticTerms count) ↔
    count = (remainingProducts q.quadraticTerms).card ∧ 0 < count
  unaffected : (remainingProducts q.quadraticTerms).card = 0 → ∀ terms,
    (remainingProducts terms).card = 0 →
      f.ofCanonical tolerance { q with quadraticTerms := terms } = f.ofCanonical tolerance q
  exchanged : ∀ terms, List.Forall₂ (fun t u => u = t ∨ u = QuadraticTerm.swap t)
    q.quadraticTerms terms →
      remainingProducts terms = remainingProducts q.quadraticTerms ∧
        f.ofCanonical tolerance { q with quadraticTerms := terms } = f.ofCanonical tolerance q
  /-- Only the order within each product matters. -/
  interleaved : ∀ terms, (∀ pair, terms.filter (fun t => decide (t.factors = pair)) =
    q.quadraticTerms.filter fun t => decide (t.factors = pair)) →
      remainingProducts terms = remainingProducts q.quadraticTerms ∧
        f.ofCanonical tolerance { q with quadraticTerms := terms } = f.ofCanonical tolerance q

theorem FunctionType.IsLinear.ofCanonical_congr {f : FunctionType} (linear : f.IsLinear)
    {tolerance : Binary64} {q : Canonical} {terms : List (QuadraticTerm Binary64)}
    (same : ∀ pair, productSum terms pair = productSum q.quadraticTerms pair) :
    remainingProducts terms = remainingProducts q.quadraticTerms ∧
      f.ofCanonical tolerance { q with quadraticTerms := terms } = f.ofCanonical tolerance q := by
  have remaining := remainingProducts_congr same
  refine ⟨remaining, ?_⟩
  rw [linear.ofCanonical_eq tolerance q, linear.ofCanonical_eq, remaining]

theorem judges_by_products {f : FunctionType} (linear : f.IsLinear) (tolerance : Binary64)
    (q : Canonical) : JudgesByProducts f tolerance q where
  refused_iff count := by
    rw [linear.ofCanonical_eq tolerance q]
    split
    · rename_i none
      rw [none]
      constructor
      · intro failed
        obtain other | ⟨value, other⟩ := linear.refused_otherwise rfl failed <;> cases other
      · exact fun both => absurd both.1 both.2.ne'
    · rename_i present
      rw [Except.error.injEq, ConversionError.quadraticTerms.injEq, eq_comm]
      exact ⟨fun same => ⟨same, same ▸ Nat.pos_of_ne_zero present⟩, fun both => both.1⟩
  unaffected none terms noneEither := by
    rw [linear.ofCanonical_eq tolerance q, linear.ofCanonical_eq, if_pos none, if_pos noneEither]
  exchanged terms each := linear.ofCanonical_congr fun _ => productSum_exchanged each
  interleaved terms each := linear.ofCanonical_congr fun pair => by
    rw [productSum, productSum, each pair]

/-- The terms in one product cancel, those in the other one do not. -/
def mixedProducts : List (QuadraticTerm Binary64) :=
  [⟨ofInt 2, ⟨1⟩, ⟨2⟩⟩, ⟨one, ⟨3⟩, ⟨1⟩⟩, ⟨ofInt (-2), ⟨2⟩, ⟨1⟩⟩, ⟨one, ⟨1⟩, ⟨3⟩⟩]

theorem mixedProducts_refused :
    FunctionType.singleVariable.IsLinear ∧ (remainingProducts mixedProducts).card = 1 ∧
      FunctionType.singleVariable.ofCanonical zero ⟨[], mixedProducts, zero⟩ =
        .error (.quadraticTerms 1) := by
  have count : (remainingProducts mixedProducts).card = 1 := by decide +kernel
  have judged := judges_by_products (f := .singleVariable) trivial zero ⟨[], mixedProducts, zero⟩
  exact ⟨trivial, count, (judged.refused_iff 1).mpr ⟨count.symm, Nat.one_pos⟩⟩

end SolverProtocol
