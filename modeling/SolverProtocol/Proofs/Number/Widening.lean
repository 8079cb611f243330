import SolverProtocol.Proofs.Number.Whole

/-! Integers of 64 bits written as doubles. Those that are no doubles are rounded to an integer
nearby, and the largest of them to 2^63, which is outside of their range. -/

namespace SolverProtocol.Number

private theorem divNearestEven_mul_right (num den : Nat) {unit : Nat} (positive : 0 < unit) :
    divNearestEven (num * unit) (den * unit) = divNearestEven num den := by
  have below (a b : Nat) : 2 * (a * unit) < b * unit ↔ 2 * a < b := by
    rw [← Nat.mul_assoc]
    exact Nat.mul_lt_mul_right positive
  have above (a b : Nat) : b * unit < 2 * (a * unit) ↔ b < 2 * a := by
    rw [← Nat.mul_assoc]
    exact Nat.mul_lt_mul_right positive
  simp only [divNearestEven, Nat.mul_mod_mul_right, Nat.mul_div_mul_right _ _ positive, below,
    above]

private theorem surplus_mul_two_pow {n : Nat} (large : 1 <<< precision ≤ n) (k : Nat) :
    surplus (n * 2 ^ k) = surplus n + k := by
  have positive : n ≠ 0 := by
    rintro rfl
    exact absurd large (by decide)
  have digits : precision ≤ n.log2 := by
    rw [Nat.le_log2 positive]
    rwa [Nat.shiftLeft_eq, Nat.one_mul] at large
  have shifted : (n * 2 ^ k).log2 = n.log2 + k := by
    rw [Nat.log2_eq_iff (Nat.mul_ne_zero positive (Nat.two_pow_pos k).ne'), Nat.pow_add,
      Nat.add_right_comm, Nat.pow_add _ _ k]
    exact ⟨Nat.mul_le_mul_right _ (Nat.log2_self_le positive),
      Nat.mul_lt_mul_of_pos_right Nat.lt_log2_self (Nat.two_pow_pos k)⟩
  simp only [surplus, shifted]
  omega

theorem nearest_eq (n : Nat) : nearest n 1 = divNearestEven n (2 ^ surplus n) * 2 ^ surplus n := by
  simp only [nearest, Nat.div_one, Nat.shiftLeft_eq, Nat.one_mul]

/-- Rounding does not depend on the unit, as long as that is a power of 2. -/
private theorem nearest_mul_two_pow (n k : Nat) : nearest (n * 2 ^ k) 1 = nearest n 1 * 2 ^ k := by
  rcases Nat.lt_or_ge n (1 <<< precision) with few | large
  · have short : Representable n := ⟨n, 0, few, rfl⟩
    have shifted : Representable (n * 2 ^ k) := ⟨n, k, few, (Nat.shiftLeft_eq ..).symm⟩
    rw [nearest_self short, nearest_self shifted]
  · rw [nearest_eq, nearest_eq, surplus_mul_two_pow large, Nat.pow_add,
      divNearestEven_mul_right _ _ (Nat.two_pow_pos k), Nat.mul_assoc]

/-- Rounding does not pass a power of 2. -/
theorem nearest_le_two_pow {n k : Nat} (bound : n ≤ 2 ^ k) : nearest n 1 ≤ 2 ^ k := by
  rcases Nat.lt_or_eq_of_le bound with below | rfl
  · have within : surplus n ≤ k := by
      by_cases zero : n = 0
      · subst zero
        exact Nat.zero_le k
      · have digits := (Nat.log2_lt zero).mpr below
        simp only [surplus, precision]
        omega
    have split : 2 ^ surplus n * 2 ^ (k - surplus n) = 2 ^ k := by
      rw [← Nat.pow_add, Nat.add_sub_cancel' within]
    have quotient : n / 2 ^ surplus n < 2 ^ (k - surplus n) :=
      Nat.div_lt_of_lt_mul (split.symm ▸ below)
    rw [nearest_eq, ← split, Nat.mul_comm]
    exact Nat.mul_le_mul_left _ ((divNearestEven_le _ _).trans quotient)
  · exact (nearest_self ⟨1, k, by decide, by rw [Nat.shiftLeft_eq, Nat.one_mul]⟩).le

/-- The largest double below 2^63 is 2^63 - 1024, and from half way on 2^63 is nearest. -/
theorem nearest_lt_iff {n : Nat} (bound : n ≤ 2 ^ 63) :
    nearest n 1 < 2 ^ 63 ↔ n < 2 ^ 63 - 512 := by
  rcases Nat.lt_or_ge n (2 ^ 62) with small | large
  · have rounded := nearest_le_two_pow small.le
    omega
  · rcases Nat.lt_or_eq_of_le bound with below | rfl
    · have digits : n.log2 = 62 := (Nat.log2_eq_iff (by omega)).mpr ⟨large, below⟩
      have digitsLost : surplus n = 10 := by simp only [surplus, digits, precision]
      rw [nearest_eq, digitsLost]
      unfold divNearestEven
      split
      · omega
      · split <;> omega
    · have power : nearest (2 ^ 63) 1 = 2 ^ 63 := nearest_self ⟨1, 63, by decide, by decide⟩
      omega

namespace Binary64

/-- The integer that the nearest double is. -/
theorem denotes_ofInt_nearest {n : Int} (bound : n.natAbs ≤ 2 ^ 63) :
    (ofInt n).Denotes (signed (decide (n < 0)) (nearest n.natAbs 1)) := by
  have size := nearest_le_two_pow bound
  have scaled : nearest (n.natAbs * unitsPerOne) 1 = nearest n.natAbs 1 * unitsPerOne := by
    obtain ⟨k, unit⟩ : ∃ k, unitsPerOne = 1 <<< k := ⟨1074, rfl⟩
    rw [unit, Nat.one_shiftLeft, nearest_mul_two_pow]
  have finite : nearest (n.natAbs * unitsPerOne) 1 < unitsLimit := by
    have limit : 2 ^ 63 * unitsPerOne < unitsLimit := by decide +kernel
    rw [scaled]
    exact (Nat.mul_le_mul_right _ size).trans_lt limit
  refine ⟨decide (n < 0), ⟨_, representable_nearest _ _, finite⟩, dif_pos finite, ?_⟩
  simp only [scaled, signed_mul]

/-- Only an integer that is a double is left as it is. -/
theorem truncate_ofInt_eq_iff {n : Int} (bound : n.natAbs ≤ 2 ^ 63) :
    (ofInt n).truncate = n ↔ Fits n := by
  constructor
  · intro same
    have denotes := (denotes_ofInt_nearest bound).self
    rw [same] at denotes
    exact denotes.fits
  · exact fun fits => (denotes_ofInt fits).truncate

/-- Apart from the sign of 0, an integer is one double at most. -/
theorem Denotes.eq_ofInt {x : Binary64} {n : Int} (same : x.Denotes n) (nonzero : n ≠ 0) :
    x = ofInt n := by
  have fits := same.fits
  obtain ⟨negative, ⟨units, representable, bound⟩, rfl, scaled⟩ := same
  obtain rfl := units_eq scaled
  have sign : negative = decide (n < 0) := by
    have kept := sign_eq scaled
    cases negative <;> simp only [signed, if_true, if_false, Bool.false_eq_true] at kept
    · exact (decide_eq_false (by omega)).symm
    · exact (decide_eq_true (by omega)).symm
  rw [ofInt, round_self _ fits.1 fits.2, sign]

theorem truncate_ofInt_bounds {n : Int} (bound : n.natAbs ≤ 2 ^ 63) :
    -2 ^ 63 ≤ (ofInt n).truncate ∧ (ofInt n).truncate ≤ 2 ^ 63 := by
  have size := nearest_le_two_pow bound
  rw [(denotes_ofInt_nearest bound).truncate, signed]
  split <;> omega

theorem truncate_ofInt_lt_iff {n : Int} (bound : n.natAbs ≤ 2 ^ 63) :
    (ofInt n).truncate < 2 ^ 63 ↔ n < 2 ^ 63 - 512 := by
  have size := nearest_le_two_pow bound
  have threshold := nearest_lt_iff bound
  rw [(denotes_ofInt_nearest bound).truncate, signed]
  split
  · rename_i negative
    have := of_decide_eq_true negative
    omega
  · rename_i nonnegative
    have := of_decide_eq_false (Bool.eq_false_iff.mpr nonnegative)
    omega

end Binary64

end SolverProtocol.Number
