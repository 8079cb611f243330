import Mathlib.Algebra.Order.BigOperators.Group.List
import Mathlib.Data.List.Induction
import Mathlib.Data.List.Nodup
import SolverProtocol.Function.Canonical
import SolverProtocol.Proofs.Number.Whole

namespace SolverProtocol

open Number

section Entries

variable {κ α M : Type} [DecidableEq κ] [AddCommMonoid M]

/-- Inserting changes a sum over the entries by what is put in and what was there before. -/
private theorem OrderedMap.Entries.sum_insert (weight : κ → α → M) (key : κ) (value : α)
    (entries : List (κ × α)) :
    ((insert key value entries).map fun entry => weight entry.1 entry.2).sum +
        ((find? key entries).map (weight key)).getD 0 =
      (entries.map fun entry => weight entry.1 entry.2).sum + weight key value := by
  induction entries with
  | nil => simp [insert, find?]
  | cons entry rest ih =>
    rcases entry with ⟨k, old⟩
    by_cases same : k = key
    · subst same
      simp [insert, find?, add_comm, add_left_comm]
    · simp only [insert, find?, if_neg same, List.map_cons, List.sum_cons, add_assoc, ih]

end Entries

section Sums

variable {κ : Type} [DecidableEq κ]

/-- The coefficients under a key, added from left to right starting from zero. -/
def sumUnder (terms : List (κ × Binary64)) (key : κ) : Binary64 :=
  ((terms.filter fun term => decide (term.1 = key)).map Prod.snd).foldl Binary64.add .zero

/-- The sum under each key that occurs, be it zero or not. -/
def sums (terms : List (κ × Binary64)) : OrderedMap κ Binary64 :=
  terms.foldl
    (fun sums term => sums.insert term.1 (((sums.find? term.1).getD .zero).add term.2)) .empty

theorem sumByKey_eq (terms : List (κ × Binary64)) :
    sumByKey terms = (sums terms).entries.filter fun term => !term.2.equal .zero := rfl

theorem sums_concat (terms : List (κ × Binary64)) (term : κ × Binary64) :
    sums (terms ++ [term]) =
      (sums terms).insert term.1 ((((sums terms).find? term.1).getD .zero).add term.2) := by
  simp [sums]

private theorem sumUnder_concat (terms : List (κ × Binary64)) (term : κ × Binary64) (key : κ) :
    sumUnder (terms ++ [term]) key =
      if term.1 = key then (sumUnder terms key).add term.2 else sumUnder terms key := by
  by_cases same : term.1 = key <;> simp [sumUnder, same]

private theorem filter_of_not_mem {terms : List (κ × Binary64)} {key : κ}
    (unknown : key ∉ terms.map Prod.fst) :
    terms.filter (fun term => decide (term.1 = key)) = [] := by
  rw [List.filter_eq_nil_iff]
  rintro term member same
  exact unknown (of_decide_eq_true same ▸ List.mem_map_of_mem member)

theorem sumUnder_of_not_mem {terms : List (κ × Binary64)} {key : κ}
    (unknown : key ∉ terms.map Prod.fst) : sumUnder terms key = .zero := by
  simp [sumUnder, filter_of_not_mem unknown]

theorem find?_sums (terms : List (κ × Binary64)) (key : κ) :
    (sums terms).find? key =
      if key ∈ terms.map Prod.fst then some (sumUnder terms key) else none := by
  induction terms using List.reverseRecOn with
  | nil => rfl
  | append_singleton terms term ih =>
    rw [sums_concat, OrderedMap.find?_insert, sumUnder_concat]
    simp only [List.map_append, List.map_cons, List.map_nil, List.mem_append, List.mem_singleton]
    by_cases same : term.1 = key
    · subst same
      by_cases known : term.1 ∈ terms.map Prod.fst
      · simp [ih, known]
      · simp [ih, known, sumUnder_of_not_mem known]
    · have other : key ≠ term.1 := fun here => same here.symm
      simp only [if_neg same, ih, other, or_false]

private theorem getD_find?_sums (terms : List (κ × Binary64)) (key : κ) :
    ((sums terms).find? key).getD .zero = sumUnder terms key := by
  rw [find?_sums]
  split
  · rfl
  · rename_i unknown
    exact (sumUnder_of_not_mem unknown).symm

theorem mem_sumByKey_iff {terms : List (κ × Binary64)} {key : κ} {sum : Binary64} :
    (key, sum) ∈ sumByKey terms ↔
      key ∈ terms.map Prod.fst ∧ sum = sumUnder terms key ∧ sum.equal .zero = false := by
  rw [sumByKey_eq, List.mem_filter, ← OrderedMap.find?_eq_some_iff, find?_sums,
    Bool.not_eq_true']
  split
  · rename_i known
    rw [Option.some.injEq, eq_comm, and_iff_right known]
  · rename_i unknown
    simp only [reduceCtorEq, unknown, false_and]

theorem nodup_keys_sumByKey (terms : List (κ × Binary64)) :
    ((sumByKey terms).map Prod.fst).Nodup := by
  rw [sumByKey_eq]
  exact (sums terms).nodup_keys.sublist (List.filter_sublist.map _)

private theorem sums_of_nodup {terms : List (κ × Binary64)}
    (distinct : (terms.map Prod.fst).Nodup) :
    (sums terms).entries = terms.map fun term => (term.1, Binary64.zero.add term.2) := by
  induction terms using List.reverseRecOn with
  | nil => rfl
  | append_singleton terms term ih =>
    rw [List.map_append, List.nodup_append] at distinct
    obtain ⟨earlier, -, apart⟩ := distinct
    have fresh : term.1 ∉ terms.map Prod.fst := fun known => apart _ known _ (by simp) rfl
    have entries := ih earlier
    have unknown : term.1 ∉ (sums terms).entries.map Prod.fst := by
      rw [entries, List.map_map]
      exact fresh
    rw [sums_concat, getD_find?_sums, sumUnder_of_not_mem fresh, List.map_append, ← entries]
    exact OrderedMap.Entries.insert_of_not_mem _ unknown

/-- Collecting distinct keys only leaves out the coefficients that are zero. -/
theorem sumByKey_of_nodup {terms : List (κ × Binary64)} (distinct : (terms.map Prod.fst).Nodup) :
    sumByKey terms = terms.filter fun term => !term.2.equal .zero := by
  rw [sumByKey_eq, sums_of_nodup distinct, List.filter_map]
  simp only [Function.comp_def, Binary64.equal_zero_add]
  refine (List.map_congr_left fun term member => ?_).trans (List.map_id _)
  have nonzero : term.2.equal .zero = false := by simpa using (List.mem_filter.mp member).2
  rw [Binary64.zero_add nonzero]
  rfl

end Sums

section Whole

variable {κ : Type} [DecidableEq κ] {terms : List (κ × Binary64)}

/-- Every coefficient is an integer. -/
def WholeTerms (terms : List (κ × Binary64)) : Prop :=
  ∀ term ∈ terms, term.2.Denotes term.2.truncate

/-- Every coefficient is an integer, and no sum is rounded while they are added up in turn. -/
inductive ExactSums : List (κ × Binary64) → Prop where
  | nil : ExactSums []
  | concat {terms : List (κ × Binary64)} {term : κ × Binary64} {m n : Int}
      (earlier : ExactSums terms) (sum : (sumUnder terms term.1).Denotes m)
      (last : term.2.Denotes n) (fits : Binary64.Fits (m + n)) : ExactSums (terms ++ [term])

theorem ExactSums.whole (exact : ExactSums terms) : WholeTerms terms := by
  induction exact with
  | nil => exact fun _ member => absurd member List.not_mem_nil
  | concat earlier sum last fits ih =>
    intro term member
    rcases List.mem_append.mp member with old | new
    · exact ih term old
    · exact List.mem_singleton.mp new ▸ last.self

theorem ExactSums.denotes (exact : ExactSums terms) (key : κ) :
    ∃ n, (sumUnder terms key).Denotes n := by
  induction exact with
  | nil => exact ⟨0, Binary64.denotes_zero⟩
  | concat earlier sum last fits ih =>
    rw [sumUnder_concat]
    split
    · rename_i same
      exact ⟨_, (same ▸ sum).add last fits⟩
    · exact ih

/-- What is left after collecting are integers other than 0. -/
theorem ExactSums.collected (exact : ExactSums terms) {entry : κ × Binary64}
    (member : entry ∈ sumByKey terms) : ∃ n, entry.2.Denotes n ∧ n ≠ 0 := by
  obtain ⟨-, same, nonzero⟩ := mem_sumByKey_iff.mp member
  obtain ⟨n, denotes⟩ := exact.denotes entry.1
  rw [← same] at denotes
  refine ⟨n, denotes, ?_⟩
  rintro rfl
  have cancelled := (denotes.equal_iff Binary64.denotes_zero).mpr rfl
  exact Bool.false_ne_true (nonzero.symm.trans cancelled)

/-- The sizes of integer coefficients together. -/
def totalSize (terms : List (κ × Binary64)) : Nat :=
  (terms.map fun term => term.2.truncate.natAbs).sum

omit [DecidableEq κ] in
private theorem totalSize_concat (terms : List (κ × Binary64)) (term : κ × Binary64) :
    totalSize (terms ++ [term]) = totalSize terms + term.2.truncate.natAbs := by
  simp [totalSize]

omit [DecidableEq κ] in
theorem size_le_totalSize {term : κ × Binary64} (member : term ∈ terms) :
    term.2.truncate.natAbs ≤ totalSize terms :=
  List.single_le_sum (by simp) _ (List.mem_map.mpr ⟨term, member, rfl⟩)

/-- No sum of integers is rounded as long as their sizes together are small. -/
private theorem sumUnder_whole (whole : WholeTerms terms)
    (small : totalSize terms ≤ Binary64.exactLimit)
    (key : κ) : ∃ n, (sumUnder terms key).Denotes n ∧ n.natAbs ≤ totalSize terms := by
  induction terms using List.reverseRecOn with
  | nil => exact ⟨0, Binary64.denotes_zero, Nat.le_refl _⟩
  | append_singleton terms term ih =>
    rw [totalSize_concat] at small ⊢
    have earlier : WholeTerms terms := fun other member => whole other (by simp [member])
    obtain ⟨n, denotes, bound⟩ := ih earlier (by omega)
    rw [sumUnder_concat]
    split
    · have last := whole term (by simp)
      have sum := denotes.add last (Binary64.fits_of_le (by omega))
      exact ⟨_, sum, by omega⟩
    · exact ⟨n, denotes, by omega⟩

theorem exactSums_of_small (whole : WholeTerms terms)
    (small : totalSize terms ≤ Binary64.exactLimit) : ExactSums terms := by
  induction terms using List.reverseRecOn with
  | nil => exact .nil
  | append_singleton terms term ih =>
    rw [totalSize_concat] at small
    have earlier : WholeTerms terms := fun other member => whole other (by simp [member])
    obtain ⟨m, sum, bound⟩ := sumUnder_whole earlier (by omega) term.1
    exact (ih earlier (by omega)).concat sum (whole term (by simp))
      (Binary64.fits_of_le (by omega))

theorem sumByKey_whole (whole : WholeTerms terms)
    (small : totalSize terms ≤ Binary64.exactLimit) {entry : κ × Binary64}
    (member : entry ∈ sumByKey terms) :
    ∃ n, entry.2.Denotes n ∧ n ≠ 0 ∧ n.natAbs ≤ totalSize terms := by
  obtain ⟨n, denotes, nonzero⟩ := (exactSums_of_small whole small).collected member
  obtain ⟨-, same, -⟩ := mem_sumByKey_iff.mp member
  obtain ⟨m, sum, bound⟩ := sumUnder_whole whole small entry.1
  rw [← same] at sum
  exact ⟨n, denotes, nonzero, denotes.truncate ▸ sum.truncate ▸ bound⟩

theorem exactSums_of_nodup (whole : WholeTerms terms) (distinct : (terms.map Prod.fst).Nodup) :
    ExactSums terms := by
  induction terms using List.reverseRecOn with
  | nil => exact .nil
  | append_singleton terms term ih =>
    rw [List.map_append, List.nodup_append] at distinct
    obtain ⟨nodup, -, apart⟩ := distinct
    have earlier : WholeTerms terms := fun other member => whole other (by simp [member])
    have last := whole term (by simp)
    have fresh : term.1 ∉ terms.map Prod.fst := fun known => apart _ known _ (by simp) rfl
    have sum : (sumUnder terms term.1).Denotes 0 :=
      (sumUnder_of_not_mem fresh).symm ▸ Binary64.denotes_zero
    exact (ih earlier nodup).concat sum last (by rw [Int.zero_add]; exact last.fits)

/-- Under distinct keys collecting only leaves out the coefficients that are 0. -/
theorem forall_collected_iff (distinct : (terms.map Prod.fst).Nodup) {P : Int → Prop}
    (zero : P 0) :
    (∀ entry ∈ sumByKey terms, P entry.2.truncate) ↔ ∀ term ∈ terms, P term.2.truncate := by
  rw [sumByKey_of_nodup distinct]
  constructor
  · intro each term member
    by_cases nothing : term.2.equal .zero = true
    · rw [(Binary64.equal_zero_iff.mp nothing).truncate]
      exact zero
    · exact each term (List.mem_filter.mpr ⟨member, by simpa using nothing⟩)
  · intro each entry member
    exact each entry (List.mem_of_mem_filter member)

end Whole

section Collecting

variable {κ M : Type} [DecidableEq κ] [AddCommGroup M] {terms : List (κ × Binary64)}

/-- What the coefficients contribute together. -/
def contribution (weight : κ → Int →+ M) (terms : List (κ × Binary64)) : M :=
  (terms.map fun term => weight term.1 term.2.truncate).sum

omit [DecidableEq κ] in
private theorem contribution_concat (weight : κ → Int →+ M) (terms : List (κ × Binary64))
    (term : κ × Binary64) :
    contribution weight (terms ++ [term]) =
      contribution weight terms + weight term.1 term.2.truncate := by
  simp [contribution]

private theorem contribution_sums (weight : κ → Int →+ M) (exact : ExactSums terms) :
    contribution weight (sums terms).entries = contribution weight terms := by
  induction exact with
  | nil => rfl
  | @concat terms term m n earlier denotes last fits before =>
    have sum := denotes.add last fits
    have inserted := OrderedMap.Entries.sum_insert (fun key value => weight key value.truncate)
      term.1 ((sumUnder terms term.1).add term.2) (sums terms).entries
    -- what was there before is the sum so far, be it that the key is new
    have old : (((sums terms).find? term.1).map fun value => weight term.1 value.truncate).getD 0 =
        weight term.1 m := by
      rw [← denotes.truncate, ← getD_find?_sums]
      cases (sums terms).find? term.1 with
      | none => simp [Binary64.denotes_zero.truncate]
      | some value => rfl
    rw [contribution_concat, ← before, sums_concat, getD_find?_sums, last.truncate]
    apply add_right_cancel (b := weight term.1 m)
    calc
      _ = contribution weight (sums terms).entries +
          weight term.1 ((sumUnder terms term.1).add term.2).truncate := old ▸ inserted
      _ = contribution weight (sums terms).entries + weight term.1 n + weight term.1 m := by
        rw [sum.truncate, map_add, add_comm (weight term.1 m), add_assoc]

/-- Collecting integer terms under their keys changes nothing that they contribute. -/
theorem contribution_sumByKey (weight : κ → Int →+ M) (exact : ExactSums terms) :
    contribution weight (sumByKey terms) = contribution weight terms := by
  rw [← contribution_sums weight exact, sumByKey_eq, contribution, contribution]
  have denotes : ∀ entry ∈ (sums terms).entries, ∃ n, entry.2.Denotes n := by
    intro entry member
    have found := OrderedMap.find?_eq_some_iff.mpr member
    rw [find?_sums] at found
    split at found
    · exact Option.some.inj found ▸ exact.denotes entry.1
    · cases found
  generalize (sums terms).entries = entries at denotes ⊢
  induction entries with
  | nil => rfl
  | cons entry rest ih =>
    have later := ih fun other member => denotes other (List.mem_cons_of_mem _ member)
    obtain ⟨n, value⟩ := denotes entry List.mem_cons_self
    by_cases cancelled : entry.2.equal .zero = true
    · have none : n = 0 := (value.equal_iff Binary64.denotes_zero).mp cancelled
      subst none
      simp [cancelled, later, value.truncate]
    · simp [cancelled, later]

end Collecting

end SolverProtocol
