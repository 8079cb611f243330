import SolverProtocol.Proofs.Number.Widening

namespace SolverProtocol.Number

private theorem div_le_divNearestEven (num den : Nat) : num / den ≤ divNearestEven num den := by
  unfold divNearestEven
  split
  · exact Nat.le_refl _
  · split <;> omega

theorem divNearestEven_mono {num other den : Nat} (order : num ≤ other) :
    divNearestEven num den ≤ divNearestEven other den := by
  rcases Nat.lt_or_eq_of_le (Nat.div_le_div_right (c := den) order) with below | same
  · calc
      divNearestEven num den ≤ num / den + 1 := divNearestEven_le num den
      _ ≤ other / den := below
      _ ≤ divNearestEven other den := div_le_divNearestEven other den
  · have first := Nat.div_add_mod num den
    have second := Nat.div_add_mod other den
    rw [same] at first
    unfold divNearestEven
    rw [same]
    split_ifs <;> omega

/-- Rounding does not pass a power of 2 downwards either. -/
private theorem two_pow_le_nearest {n k : Nat} (within : surplus n ≤ k) (bound : 2 ^ k ≤ n) :
    2 ^ k ≤ nearest n 1 := by
  have split : 2 ^ (k - surplus n) * 2 ^ surplus n = 2 ^ k := by
    rw [← Nat.pow_add, Nat.sub_add_cancel within]
  have quotient : 2 ^ (k - surplus n) ≤ n / 2 ^ surplus n := by
    rw [Nat.le_div_iff_mul_le (Nat.two_pow_pos _), split]
    exact bound
  rw [nearest_eq, ← split]
  exact Nat.mul_le_mul_right _ (quotient.trans (div_le_divNearestEven ..))

theorem nearest_mono {n other : Nat} (order : n ≤ other) : nearest n 1 ≤ nearest other 1 := by
  rcases Nat.eq_zero_or_pos other with rfl | positive
  · rw [Nat.le_zero.mp order]
  · -- either a power of 2 lies between them, or both lose the same digits
    rcases Nat.lt_or_ge n (2 ^ other.log2) with below | above
    · have lost : surplus other ≤ other.log2 := by
        simp only [surplus, precision]
        omega
      calc
        nearest n 1 ≤ 2 ^ other.log2 := nearest_le_two_pow below.le
        _ ≤ nearest other 1 := two_pow_le_nearest lost (Nat.log2_self_le positive.ne')
    · have nonzero : n ≠ 0 := (Nat.lt_of_lt_of_le (Nat.two_pow_pos _) above).ne'
      have digits : n.log2 = other.log2 :=
        (Nat.log2_eq_iff nonzero).mpr ⟨above, order.trans_lt Nat.lt_log2_self⟩
      have lost : surplus n = surplus other := by simp only [surplus, digits]
      rw [nearest_eq, nearest_eq, lost]
      exact Nat.mul_le_mul_right _ (divNearestEven_mono order)

/-- A quotient rounded half up is at most half a step away. -/
theorem divHalfUp_bounds (n : Nat) {den : Nat} (positive : 0 < den) :
    2 * (divHalfUp n den * den) ≤ 2 * n + den ∧ 2 * n < 2 * (divHalfUp n den * den) + den := by
  have division := Nat.div_add_mod (2 * n + den) (2 * den)
  have remainder := Nat.mod_lt (2 * n + den) (Nat.mul_pos two_pos positive)
  have step : 2 * den * divHalfUp n den = 2 * (divHalfUp n den * den) := by ring
  rw [divHalfUp] at step ⊢
  omega

namespace Binary64

/-- The units of 2^-1074 in 1/2. -/
def unitsPerHalf : Nat := 1 <<< 1073

private theorem two_mul_unitsPerHalf : 2 * unitsPerHalf = unitsPerOne := by decide +kernel

private theorem shiftLeft_le_unitsPerHalf {significand k : Nat}
    (short : significand < 1 <<< precision)
    (small : k < 1074) : significand <<< k ≤ exactLimit * unitsPerHalf := by
  obtain ⟨last, unit, within⟩ : ∃ last, unitsPerHalf = 1 <<< last ∧ k ≤ last :=
    ⟨1073, rfl, Nat.le_of_lt_succ small⟩
  rw [unit, Nat.one_shiftLeft, Nat.shiftLeft_eq]
  exact Nat.mul_le_mul short.le (Nat.pow_le_pow_right two_pos within)

/-- What has so few digits is rounded to a small integer, or is an integer as it is. -/
private theorem divHalfUp_small_or_exact {n : Nat} (few : Representable n) :
    divHalfUp n unitsPerOne ≤ exactLimit ∨ divHalfUp n unitsPerOne * unitsPerOne = n := by
  obtain ⟨significand, k, short, rfl⟩ := few
  rcases Nat.lt_or_ge k 1074 with small | large
  · left
    have size := shiftLeft_le_unitsPerHalf short small
    have half := two_mul_unitsPerHalf
    have above := (divHalfUp_bounds (significand <<< k) unitsPerOne_pos).1
    apply Nat.le_of_mul_le_mul_right _ unitsPerOne_pos
    rw [← half] at above ⊢
    generalize divHalfUp (significand <<< k) (2 * unitsPerHalf) * (2 * unitsPerHalf) = rounded at *
    generalize significand <<< k = n at *
    generalize unitsPerHalf = h at *
    simp only [exactLimit] at *
    omega
  · right
    obtain ⟨digits, unit, within⟩ : ∃ digits, unitsPerOne = 1 <<< digits ∧ digits ≤ k :=
      ⟨1074, rfl, large⟩
    have whole : significand <<< k = significand <<< (k - digits) * unitsPerOne := by
      rw [unit, Nat.one_shiftLeft, ← Nat.shiftLeft_eq, ← Nat.shiftLeft_add,
        Nat.sub_add_cancel within]
    rw [whole, divHalfUp_mul _ unitsPerOne_pos]

private theorem fits_divHalfUp (negative : Bool) (m : Magnitude) :
    Fits (signed negative (divHalfUp m.units unitsPerOne)) := by
  rcases divHalfUp_small_or_exact m.representable with small | exact
  · apply fits_of_le
    rwa [natAbs_signed]
  · rw [Fits, natAbs_signed, exact]
    exact ⟨m.representable, m.lt_limit⟩

theorem denotes_divHalfUp (negative : Bool) (m : Magnitude) :
    (finite negative m).roundAway.Denotes (signed negative (divHalfUp m.units unitsPerOne)) := by
  have denotes := denotes_round (fits_divHalfUp negative m)
    (congrArg (signed negative) (natAbs_signed ..))
  rwa [natAbs_signed] at denotes

/-- The finite doubles counted in units of 2^-1074. -/
def units : Binary64 → Int
  | .finite negative m => signed negative m.units
  | _ => 0

variable {x y z : Binary64} {n : Int}

theorem exists_eq_finite (finite : x.isFinite = true) :
    ∃ negative m, x = .finite negative m := by
  cases x with
  | finite negative m => exact ⟨negative, m, rfl⟩
  | infinite negative => cases finite
  | nan => cases finite

theorem Denotes.isFinite (same : x.Denotes n) : x.isFinite = true := by
  obtain ⟨negative, m, rfl, -⟩ := same
  rfl

theorem Denotes.units_eq_mul (same : x.Denotes n) : x.units = n * unitsPerOne := by
  obtain ⟨negative, m, rfl, units⟩ := same
  exact units

theorem denotes_roundAway (finite : x.isFinite = true) :
    x.roundAway.Denotes x.roundAway.truncate := by
  obtain ⟨negative, m, rfl⟩ := exists_eq_finite finite
  exact (denotes_divHalfUp negative m).self

/-- Rounding to an integer moves a double by a half at most. -/
theorem two_mul_natAbs_sub_roundAway_le (finite : x.isFinite = true) :
    2 * (x.units - x.roundAway.units).natAbs ≤ unitsPerOne := by
  obtain ⟨negative, m, rfl⟩ := exists_eq_finite finite
  obtain ⟨above, below⟩ := divHalfUp_bounds m.units unitsPerOne_pos
  rw [(denotes_divHalfUp negative m).units_eq_mul, ← signed_mul, units]
  cases negative <;> simp only [signed, Bool.false_eq_true, if_true, if_false] <;> omega

/-- No integer is closer to a double than the one to which it is rounded. -/
theorem natAbs_sub_roundAway_le (finite : x.isFinite = true) (n : Int) :
    (x.units - x.roundAway.units).natAbs ≤ (x.units - n * unitsPerOne).natAbs := by
  have half := two_mul_natAbs_sub_roundAway_le finite
  have rounded := (denotes_roundAway finite).units_eq_mul
  by_cases same : x.roundAway.truncate = n
  · rw [rounded, same]
  · have apart : unitsPerOne ≤ ((x.roundAway.truncate - n) * unitsPerOne).natAbs := by
      rw [mul_unitsPerOne_natAbs]
      exact Nat.le_mul_of_pos_left _ (Int.natAbs_pos.mpr (sub_ne_zero.mpr same))
    rw [Int.sub_mul, ← rounded] at apart
    omega

private theorem position_abs_round (negative : Bool) (n : Nat) :
    (round negative n 1).abs.position = some ((min (nearest n 1) unitsLimit : Nat) : Int) := by
  unfold round
  split
  · rename_i bound
    rw [Nat.min_eq_left bound.le]
    rfl
  · rename_i beyond
    rw [Nat.min_eq_right (Nat.le_of_not_lt beyond)]
    rfl

theorem signed_not (negative : Bool) (n : Nat) : signed (!negative) n = -signed negative n := by
  cases negative <;> simp [signed]

/-- The distance of two doubles is the exact one, rounded once. -/
theorem position_abs_sub (first : x.isFinite = true) (second : y.isFinite = true) :
    (x.sub y).abs.position =
      some ((min (nearest (x.units - y.units).natAbs 1) unitsLimit : Nat) : Int) := by
  obtain ⟨p, m, rfl⟩ := exists_eq_finite first
  obtain ⟨q, n, rfl⟩ := exists_eq_finite second
  simp only [sub, neg, add, signed_not, position_abs_round, units, Int.sub_eq_add_neg]

theorem position_abs (finite : x.isFinite = true) :
    x.abs.position = some (x.units.natAbs : Int) := by
  obtain ⟨negative, m, rfl⟩ := exists_eq_finite finite
  rw [units, natAbs_signed]
  rfl

theorem position_abs_sub_zero (origin : y.Denotes 0) :
    (x.sub y).abs.position = x.abs.position := by
  cases x with
  | finite negative m =>
    rw [position_abs_sub rfl origin.isFinite, position_abs rfl, origin.units_eq_mul, Int.zero_mul,
      Int.sub_zero, units, natAbs_signed, nearest_self m.representable,
      Nat.min_eq_left m.lt_limit.le]
  | infinite negative =>
    obtain ⟨sign, m, rfl, -⟩ := origin
    rfl
  | nan => rfl

theorem abs_sub_zero_le (origin : y.Denotes 0) : (x.sub y).abs.le z = x.abs.le z := by
  simp only [le, compareBy, position_abs_sub_zero origin]

/-- What is closer stays so after rounding. -/
theorem abs_sub_le_abs_sub (finite : x.isFinite = true) (first : y.isFinite = true)
    (second : z.isFinite = true)
    (closer : (x.units - y.units).natAbs ≤ (x.units - z.units).natAbs) :
    (x.sub y).abs.le (x.sub z).abs = true := by
  have order := min_le_min_right unitsLimit (nearest_mono closer)
  exact le_eq_true_iff.mpr
    ⟨_, _, position_abs_sub finite first, position_abs_sub finite second, by exact_mod_cast order⟩

/-- Rounding to an integer moves a double less than any other integer is away. -/
theorem abs_sub_roundAway_le (finite : x.isFinite = true) (denotes : y.Denotes n) :
    (x.sub x.roundAway).abs.le (x.sub y).abs = true := by
  apply abs_sub_le_abs_sub finite (denotes_roundAway finite).isFinite denotes.isFinite
  rw [denotes.units_eq_mul]
  exact natAbs_sub_roundAway_le finite n

/-- The double 1/2. -/
def half : Binary64 := one.div (ofInt 2)

private theorem position_half : half.position = some (unitsPerHalf : Int) := by decide +kernel

theorem isFinite_of_near (finite : y.isFinite = true) (near : (x.sub y).abs.le half = true) :
    x.isFinite = true := by
  obtain ⟨distance, bound, place, halfway, within⟩ := le_eq_true_iff.mp near
  rw [position_half, Option.some.injEq] at halfway
  subst halfway
  cases x with
  | finite negative m => rfl
  | infinite negative =>
    have beyond : (unitsPerHalf : Int) < unitsLimit := by decide +kernel
    obtain ⟨sign, m, rfl⟩ := exists_eq_finite finite
    obtain rfl : (unitsLimit : Int) = distance := Option.some.inj place
    exact absurd within (Int.not_le.mpr beyond)
  | nan => cases place

/-- A distance that is a half at most after rounding was below 1. -/
theorem natAbs_sub_lt_of_near (finite : y.isFinite = true)
    (near : (x.sub y).abs.le half = true) : (x.units - y.units).natAbs < unitsPerOne := by
  obtain ⟨distance, bound, place, halfway, within⟩ := le_eq_true_iff.mp near
  rw [position_half, Option.some.injEq] at halfway
  rw [position_abs_sub (isFinite_of_near finite near) finite, Option.some.injEq] at place
  subst halfway place
  by_contra! far
  have unit : nearest unitsPerOne 1 = unitsPerOne := by
    have representable := representable_whole (n := 1) (by decide) 0
    rw [Nat.shiftLeft_zero, Nat.one_mul] at representable
    exact nearest_self representable
  have above : unitsPerHalf < unitsPerOne := by decide +kernel
  have beyond : unitsPerHalf < unitsLimit := by decide +kernel
  have order := nearest_mono far
  rw [unit] at order
  exact absurd (Int.ofNat_le.mp within) (Nat.not_le.mpr (lt_min (above.trans_le order) beyond))

/-- What is closer than 1 to an integer is rounded to it or to one next to it. -/
theorem natAbs_truncate_roundAway_sub_le (finite : x.isFinite = true)
    (close : (x.units - n * unitsPerOne).natAbs < unitsPerOne) :
    (x.roundAway.truncate - n).natAbs ≤ 1 := by
  have moved := two_mul_natAbs_sub_roundAway_le finite
  have apart : ((x.roundAway.truncate - n) * unitsPerOne).natAbs < 2 * unitsPerOne := by
    rw [Int.sub_mul, ← (denotes_roundAway finite).units_eq_mul]
    omega
  rw [mul_unitsPerOne_natAbs] at apart
  exact Nat.le_of_lt_succ (Nat.lt_of_mul_lt_mul_right apart)

end Binary64

end SolverProtocol.Number
