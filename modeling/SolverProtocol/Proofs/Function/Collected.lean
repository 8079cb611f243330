import SolverProtocol.Proofs.Function.Narrowing
import SolverProtocol.Proofs.Function.Sums

namespace SolverProtocol

open Number Binary64

section Keys

variable {κ : Type} [DecidableEq κ] {terms : List (κ × Binary64)}

private theorem mem_keys_sums_iff {key : κ} :
    key ∈ (sums terms).keys ↔ key ∈ terms.map Prod.fst := by
  rw [OrderedMap.mem_keys_iff, find?_sums]
  split <;> simp [*]

/-- A key keeps the place that it has when it is first seen. -/
theorem pairwise_keys_sums (terms : List (κ × Binary64)) :
    (sums terms).keys.Pairwise fun a b =>
      (terms.map Prod.fst).idxOf a < (terms.map Prod.fst).idxOf b := by
  induction terms using List.reverseRecOn with
  | nil => exact .nil
  | append_singleton terms term ih =>
    have earlier : (sums terms).keys.Pairwise fun a b =>
        ((terms ++ [term]).map Prod.fst).idxOf a < ((terms ++ [term]).map Prod.fst).idxOf b := by
      apply ih.imp_of_mem
      intro a b first second order
      rw [mem_keys_sums_iff] at first second
      rwa [List.map_append, List.idxOf_append_of_mem first, List.idxOf_append_of_mem second]
    rw [sums_concat, OrderedMap.keys_insert]
    split
    · exact earlier
    · rename_i fresh
      rw [List.pairwise_append]
      refine ⟨earlier, List.pairwise_singleton .., ?_⟩
      intro a known b new
      obtain rfl := List.mem_singleton.mp new
      rw [mem_keys_sums_iff] at known fresh
      rw [List.map_append, List.idxOf_append_of_mem known, List.idxOf_append_of_notMem fresh]
      exact Nat.lt_add_right _ (List.idxOf_lt_length_of_mem known)

/-- Leaving out what cancels does not change the order of the rest. -/
theorem pairwise_sumByKey (terms : List (κ × Binary64)) :
    (sumByKey terms).Pairwise fun a b =>
      (terms.map Prod.fst).idxOf a.1 < (terms.map Prod.fst).idxOf b.1 := by
  rw [sumByKey_eq]
  exact (List.pairwise_map.mp (pairwise_keys_sums terms)).sublist List.filter_sublist

end Keys

/-- The coefficients of the variable, added from left to right starting from zero. -/
def variableSum (terms : List (AffineTerm Binary64)) (x : VariableIndex) : Binary64 :=
  ((terms.filter fun t => decide (t.var = x)).map (·.coefficient)).foldl Binary64.add zero

private theorem sumUnder_var (terms : List (AffineTerm Binary64)) (x : VariableIndex) :
    sumUnder (terms.map fun t => (t.var, t.coefficient)) x = variableSum terms x := by
  simp only [sumUnder, variableSum, List.filter_map, List.map_map, Function.comp_def]

theorem mem_variableSums_iff {q : Canonical} {x : VariableIndex} {sum : Binary64} :
    (x, sum) ∈ q.variableSums ↔ (∃ t ∈ q.affineTerms, t.var = x) ∧
      sum = variableSum q.affineTerms x ∧ sum.equal zero = false := by
  rw [QuadraticFunction.variableSums, mem_sumByKey_iff, sumUnder_var, List.map_map, List.mem_map]
  rfl

section Refusal

variable (T : Type) [Coefficient T] {tolerance : Binary64} {q : Canonical} {e : ConversionError}

/-- No coefficient stands for the sum, but one does for each sum before it. -/
def FirstRefused (tolerance : Binary64) (sums : List (VariableIndex × Binary64))
    (sum : Binary64) : Prop :=
  ∃ before x after, sums = before ++ (x, sum) :: after ∧
    Coefficient.narrow? (T := T) tolerance sum = none ∧
      ∀ entry ∈ before, Coefficient.narrow? (T := T) tolerance entry.2 ≠ none

variable {T}

private theorem narrow_term_eq_error_iff {entry : VariableIndex × Binary64} :
    (do return (⟨← narrow tolerance entry.2, entry.1⟩ : AffineTerm T)) = .error e ↔
      Coefficient.narrow? (T := T) tolerance entry.2 = none ∧ e = .inexactCoefficient entry.2 := by
  rw [bind_eq_error_iff, narrow_eq_error_iff]
  simp [pure, Except.pure]

private theorem exists_narrow_term_iff {entry : VariableIndex × Binary64} :
    (∃ term, (do return (⟨← narrow tolerance entry.2, entry.1⟩ : AffineTerm T)) = .ok term) ↔
      Coefficient.narrow? (T := T) tolerance entry.2 ≠ none := by
  simp only [AffineTerm.standsFor_iff, Prod.eta, AffineTerm.exists_standsFor_iff,
    Option.ne_none_iff_exists']

private theorem narrow_terms_eq_error_iff {sums : List (VariableIndex × Binary64)} :
    (sums.mapM fun entry => do
      return (⟨← narrow tolerance entry.2, entry.1⟩ : AffineTerm T)) = .error e ↔
        ∃ sum, FirstRefused T tolerance sums sum ∧ e = .inexactCoefficient sum := by
  simp only [mapM_eq_error_iff, exists_narrow_term_iff, narrow_term_eq_error_iff, FirstRefused]
  constructor
  · intro split
    obtain ⟨before, ⟨x, sum⟩, after, same, passed, refused, reason⟩ := split
    exact ⟨sum, ⟨before, x, after, same, refused, passed⟩, reason⟩
  · intro split
    obtain ⟨sum, ⟨before, x, after, same, refused, passed⟩, reason⟩ := split
    exact ⟨before, (x, sum), after, same, passed, refused, reason⟩

/-- The constant is looked at when all sums have passed. -/
theorem AffineFunction.ofCanonical_eq_error_iff (noProducts : q.productSums = []) :
    (AffineFunction.ofCanonical tolerance q : Except _ (AffineFunction T)) = .error e ↔
      (∃ sum, FirstRefused T tolerance q.variableSums sum ∧ e = .inexactCoefficient sum) ∨
        (∀ entry ∈ q.variableSums, Coefficient.narrow? (T := T) tolerance entry.2 ≠ none) ∧
          Coefficient.narrow? (T := T) tolerance q.constant = none ∧
            e = .inexactCoefficient q.constant := by
  have steps : (AffineFunction.ofCanonical tolerance q : Except _ (AffineFunction T)) = do
      let terms ← q.variableSums.mapM fun entry => do
        return (⟨← narrow tolerance entry.2, entry.1⟩ : AffineTerm T)
      return ⟨terms, ← narrow tolerance q.constant⟩ := by
    rw [AffineFunction.ofCanonical, q.requireNoProducts_eq, if_pos noProducts]
    rfl
  rw [steps, bind_eq_error_iff, narrow_terms_eq_error_iff]
  refine or_congr_right ?_
  constructor
  · intro passed
    obtain ⟨terms, done, failed⟩ := passed
    obtain refused | ⟨constant, -, finished⟩ := bind_eq_error_iff.mp failed
    · refine ⟨fun entry member => ?_, narrow_eq_error_iff.mp refused⟩
      exact exists_narrow_term_iff.mp (exists_mapM_iff.mp ⟨terms, done⟩ entry member)
    · cases finished
  · intro last
    obtain ⟨passed, refused⟩ := last
    obtain ⟨terms, done⟩ := exists_mapM_iff.mpr fun entry member =>
      exists_narrow_term_iff.mpr (passed entry member)
    exact ⟨terms, done, bind_eq_error_iff.mpr (.inl (narrow_eq_error_iff.mpr refused))⟩

end Refusal

/-- What collecting the terms of `q` under their variables leaves. -/
structure CollectsVariables (q : Canonical) : Prop where
  nodup : (q.variableSums.map Prod.fst).Nodup
  mem_iff : ∀ x sum, (x, sum) ∈ q.variableSums ↔ (∃ t ∈ q.affineTerms, t.var = x) ∧
    sum = variableSum q.affineTerms x ∧ sum.equal zero = false
  /-- The order is that of the first terms of the variables, also of those that are not left. -/
  ordered : q.variableSums.Pairwise fun a b =>
    (q.affineTerms.map (·.var)).idxOf a.1 < (q.affineTerms.map (·.var)).idxOf b.1
  refused_iff : q.productSums = [] → ∀ tolerance e,
    (AffineFunction.ofCanonical tolerance q : Except _ (AffineFunction Int64)) = .error e ↔
      (∃ sum, FirstRefused Int64 tolerance q.variableSums sum ∧ e = .inexactCoefficient sum) ∨
        (∀ entry ∈ q.variableSums, narrowInteger? tolerance entry.2 ≠ none) ∧
          narrowInteger? tolerance q.constant = none ∧ e = .inexactCoefficient q.constant

theorem collects_variables (q : Canonical) : CollectsVariables q where
  nodup := nodup_keys_sumByKey _
  mem_iff x sum := mem_variableSums_iff
  ordered := by
    have order := pairwise_sumByKey (q.affineTerms.map fun t => (t.var, t.coefficient))
    rwa [List.map_map] at order
  refused_iff noProducts tolerance e := AffineFunction.ofCanonical_eq_error_iff noProducts

/-- The variable that comes first cancels, and the others keep their order. -/
example : QuadraticFunction.variableSums ⟨[⟨one, ⟨2⟩⟩, ⟨ofInt 2, ⟨3⟩⟩, ⟨one, ⟨1⟩⟩,
    ⟨ofInt (-1), ⟨2⟩⟩, ⟨ofInt 2, ⟨3⟩⟩], [], zero⟩ = [(⟨3⟩, ofInt 4), (⟨1⟩, one)] := by
  decide +kernel

end SolverProtocol
