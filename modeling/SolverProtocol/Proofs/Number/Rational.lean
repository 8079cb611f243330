import Mathlib.Algebra.Order.Field.Basic
import Mathlib.Data.Rat.Cast.Order
import Mathlib.Tactic.Linarith
import SolverProtocol.Proofs.Number.Nearest

/-! Finite doubles as the rational numbers they denote. The integer to which a double is rounded is
the nearest one, a half going away from zero, and how far it is from the double can be computed
without any rounding. -/

namespace SolverProtocol.Number

/-- No integer is closer to `q`, and none that is as close is farther from zero. -/
structure IsNearest (q : ℚ) (n : ℤ) : Prop where
  closest : ∀ m : ℤ, |q - n| ≤ |q - m|
  awayFromZero : ∀ m : ℤ, |q - m| = |q - n| → |m| ≤ |n|

theorem IsNearest.unique {q : ℚ} {m n : ℤ} (first : IsNearest q m) (second : IsNearest q n) :
    m = n := by
  have distance : |q - m| = |q - n| := le_antisymm (first.closest n) (second.closest m)
  have size : |m| = |n| :=
    le_antisymm (second.awayFromZero m distance) (first.awayFromZero n distance.symm)
  obtain same | opposite := abs_eq_abs.mp size
  · exact same
  · -- opposite integers are as close only to 0, to which 0 itself is closer
    subst opposite
    obtain equal | mirrored := abs_eq_abs.mp distance
    · have equal : -n = n := by exact_mod_cast sub_right_injective equal
      exact equal
    · have origin : q = 0 := by
        push_cast at mirrored
        linarith only [mirrored]
      subst origin
      have least := second.closest 0
      have none : n = 0 := by simpa using least
      rw [none, neg_zero]

namespace Binary64

/-- The number that a finite double denotes. -/
def toRat? : Binary64 → Option ℚ
  | .finite negative m => some (signed negative m.units / unitsPerOne)
  | _ => none

/-- The number `d` is not above the double, which may be infinite. -/
def Covers : Binary64 → ℚ → Prop
  | .finite negative m, d => d ≤ signed negative m.units / unitsPerOne
  | .infinite negative, _ => negative = false
  | .nan, _ => False

variable {x y tolerance : Binary64} {q d : ℚ} {n : ℤ}

private theorem unitsPerOne_rat_pos : (0 : ℚ) < unitsPerOne := by exact_mod_cast unitsPerOne_pos

theorem toRat?_eq_some_iff : x.toRat? = some q ↔ x.isFinite = true ∧ q = x.units / unitsPerOne := by
  cases x <;> simp [toRat?, isFinite, units, eq_comm]

theorem isFinite_iff : x.isFinite = true ↔ ∃ q, x.toRat? = some q := by
  simp only [toRat?_eq_some_iff, exists_and_left, exists_eq, and_true]

theorem Denotes.toRat? (same : x.Denotes n) : x.toRat? = some (n : ℚ) := by
  apply toRat?_eq_some_iff.mpr
  refine ⟨same.isFinite, ?_⟩
  rw [same.units_eq_mul, Int.cast_mul, Int.cast_natCast,
    mul_div_cancel_right₀ _ unitsPerOne_rat_pos.ne']

theorem toRat?_abs (value : x.toRat? = some q) : x.abs.toRat? = some |q| := by
  obtain ⟨negative, m, rfl⟩ := exists_eq_finite (isFinite_iff.mpr ⟨q, value⟩)
  obtain rfl := Option.some.inj value
  rw [abs_div, abs_of_pos unitsPerOne_rat_pos]
  cases negative <;> simp [abs, Binary64.toRat?, signed]

/-- Distances to an integer are compared in units of 2^-1074. -/
private theorem abs_sub_eq (a : ℤ) (n : ℤ) :
    |(a : ℚ) / unitsPerOne - n| = (a - n * unitsPerOne).natAbs / unitsPerOne := by
  have scaled : (a : ℚ) / unitsPerOne - n = ((a - n * unitsPerOne : ℤ) : ℚ) / unitsPerOne := by
    rw [Int.cast_sub, Int.cast_mul, Int.cast_natCast, sub_div,
      mul_div_cancel_right₀ _ unitsPerOne_rat_pos.ne']
  rw [scaled, abs_div, abs_of_pos unitsPerOne_rat_pos, Nat.cast_natAbs, Int.cast_abs]

private theorem natAbs_units_lt (finite : x.isFinite = true) : x.units.natAbs < unitsLimit := by
  obtain ⟨negative, m, rfl⟩ := exists_eq_finite finite
  rw [units, natAbs_signed]
  exact m.lt_limit

private theorem position_of_finite (finite : x.isFinite = true) : x.position = some x.units := by
  obtain ⟨negative, m, rfl⟩ := exists_eq_finite finite
  rfl

/-- Comparing doubles comes to comparing the numbers they denote. -/
theorem not_lt_iff_covers (number : tolerance.isNaN = false) (value : x.toRat? = some d) :
    tolerance.lt x = false ↔ tolerance.Covers d := by
  obtain ⟨finite, rfl⟩ := toRat?_eq_some_iff.mp value
  have bounds : -(unitsLimit : ℤ) < x.units ∧ x.units < unitsLimit := by
    have within := natAbs_units_lt finite
    omega
  rw [lt, compareBy, position_of_finite finite]
  cases tolerance with
  | finite negative m =>
    simp only [position, Covers, decide_eq_false_iff_not, not_lt]
    rw [div_le_div_iff_of_pos_right unitsPerOne_rat_pos, Int.cast_le]
  | infinite negative =>
    cases negative with
    | false => exact iff_of_true (decide_eq_false bounds.2.not_gt) rfl
    | true => exact iff_of_false (fun below => of_decide_eq_false below bounds.1) (by simp [Covers])
  | nan => cases number

theorem zero_le_of_covers (nonnegative : tolerance.Covers 0) : zero.le tolerance = true := by
  cases tolerance with
  | finite negative m =>
    have order := (not_lt_iff_covers rfl denotes_zero.toRat?).mpr (by exact_mod_cast nonnegative)
    exact le_of_not_lt denotes_zero.position rfl order
  | infinite negative =>
    obtain rfl : negative = false := nonnegative
    decide +kernel
  | nan => exact nonnegative.elim

/-- Only a double that is rounded away from zero moves by a half. -/
private theorem natAbs_add_of_half (finite : x.isFinite = true)
    (half : unitsPerOne ≤ 2 * (x.units - x.roundAway.units).natAbs) :
    x.units.natAbs + (x.units - x.roundAway.units).natAbs = x.roundAway.units.natAbs := by
  obtain ⟨negative, m, rfl⟩ := exists_eq_finite finite
  have strict := (divHalfUp_bounds m.units unitsPerOne_pos).2
  rw [(denotes_divHalfUp negative m).units_eq_mul, ← signed_mul, units] at half ⊢
  cases negative <;> simp only [signed, Bool.false_eq_true, if_true, if_false] at half ⊢ <;> omega

theorem isNearest_roundAway (value : x.toRat? = some q) : IsNearest q x.roundAway.truncate := by
  obtain ⟨finite, rfl⟩ := toRat?_eq_some_iff.mp value
  have rounded := (denotes_roundAway finite).units_eq_mul
  have closest := natAbs_sub_roundAway_le finite
  rw [rounded] at closest
  constructor
  · intro m
    rw [abs_sub_eq, abs_sub_eq, div_le_div_iff_of_pos_right unitsPerOne_rat_pos]
    exact_mod_cast closest m
  · intro m tie
    rw [abs_sub_eq, abs_sub_eq, div_left_inj' unitsPerOne_rat_pos.ne'] at tie
    have tie : (x.units - m * unitsPerOne).natAbs =
        (x.units - x.roundAway.truncate * unitsPerOne).natAbs := by exact_mod_cast tie
    by_cases same : m = x.roundAway.truncate
    · rw [same]
    · have apart : unitsPerOne ≤ ((x.roundAway.truncate - m) * unitsPerOne).natAbs := by
        rw [mul_unitsPerOne_natAbs]
        exact Nat.le_mul_of_pos_left _ (Int.natAbs_pos.mpr (sub_ne_zero.mpr (Ne.symm same)))
      rw [Int.sub_mul] at apart
      have away := natAbs_add_of_half finite (by rw [rounded]; omega)
      rw [rounded] at away
      have scaled : (m * unitsPerOne).natAbs ≤ (x.roundAway.truncate * unitsPerOne).natAbs := by
        omega
      rw [mul_unitsPerOne_natAbs, mul_unitsPerOne_natAbs] at scaled
      rw [Int.abs_eq_natAbs, Int.abs_eq_natAbs]
      exact_mod_cast Nat.le_of_mul_le_mul_right scaled unitsPerOne_pos

theorem isNearest_iff (value : x.toRat? = some q) : IsNearest q n ↔ x.roundAway.truncate = n := by
  have rounded := isNearest_roundAway value
  constructor
  · exact rounded.unique
  · intro same
    exact same ▸ rounded

/-- Rounding to an integer moves a number by no more than its size. -/
private theorem natAbs_sub_divHalfUp_le (n : ℕ) :
    ((n : ℤ) - (divHalfUp n unitsPerOne * unitsPerOne : ℕ)).natAbs ≤ n := by
  obtain ⟨above, below⟩ := divHalfUp_bounds n unitsPerOne_pos
  rcases Nat.eq_zero_or_pos (divHalfUp n unitsPerOne) with none | some
  · rw [none]
    omega
  · have least : unitsPerOne ≤ divHalfUp n unitsPerOne * unitsPerOne :=
      Nat.le_mul_of_pos_left _ some
    omega

/-- The distance has no lower digits than the number, and no higher ones. -/
private theorem representable_sub_divHalfUp {n : ℕ} (few : Representable n) :
    Representable ((n : ℤ) - (divHalfUp n unitsPerOne * unitsPerOne : ℕ)).natAbs := by
  have bound := natAbs_sub_divHalfUp_le n
  obtain ⟨significand, k, short, rfl⟩ := few
  obtain ⟨digits, unit⟩ : ∃ digits, unitsPerOne = 1 <<< digits := ⟨1074, rfl⟩
  rw [Nat.one_shiftLeft] at unit
  rcases Nat.lt_or_ge digits k with whole | fraction
  · -- an integer is not moved at all
    have multiple : significand <<< k = significand * 2 ^ (k - digits) * unitsPerOne := by
      rw [unit, Nat.mul_assoc, ← Nat.pow_add, Nat.sub_add_cancel whole.le, Nat.shiftLeft_eq]
    rw [multiple, divHalfUp_mul _ unitsPerOne_pos, sub_self]
    exact ⟨0, 0, by decide, rfl⟩
  · generalize divHalfUp (significand <<< k) unitsPerOne = rounded at bound ⊢
    have split : unitsPerOne = 2 ^ (digits - k) * 2 ^ k := by
      rw [unit, ← Nat.pow_add, Nat.sub_add_cancel fraction]
    have multiple : ((significand <<< k : ℕ) : ℤ) - (rounded * unitsPerOne : ℕ) =
        (significand - (rounded * 2 ^ (digits - k) : ℕ)) * (2 ^ k : ℕ) := by
      rw [split, Nat.shiftLeft_eq, ← Nat.mul_assoc, Int.natCast_mul _ (2 ^ k),
        Int.natCast_mul _ (2 ^ k), ← Int.sub_mul]
    rw [multiple, Int.natAbs_mul, Int.natAbs_natCast, ← Nat.shiftLeft_eq] at bound ⊢
    refine ⟨_, k, ?_, rfl⟩
    rw [Nat.shiftLeft_eq, Nat.shiftLeft_eq] at bound
    exact (Nat.le_of_mul_le_mul_right bound (Nat.two_pow_pos k)).trans_lt short

/-- A sum of doubles is exact if it is a double. -/
theorem toRat?_add (first : x.toRat? = some q) (second : y.toRat? = some d)
    (few : Representable (x.units + y.units).natAbs)
    (bound : (x.units + y.units).natAbs < unitsLimit) : (x.add y).toRat? = some (q + d) := by
  obtain ⟨finite, rfl⟩ := toRat?_eq_some_iff.mp first
  obtain ⟨also, rfl⟩ := toRat?_eq_some_iff.mp second
  obtain ⟨a, m, rfl⟩ := exists_eq_finite finite
  obtain ⟨b, n, rfl⟩ := exists_eq_finite also
  simp only [units] at few bound ⊢
  generalize same : signed a m.units + signed b n.units = sum at few bound
  have sign : sum ≠ 0 → (if sum = 0 then a && b else decide (sum < 0)) = decide (sum < 0) :=
    fun nonzero => if_neg nonzero
  rw [add, same, round_self _ few bound, toRat?, signed_natAbs sign, ← add_div, ← same,
    Int.cast_add]

private theorem units_neg (x : Binary64) : x.neg.units = -x.units := by
  cases x with
  | finite negative m => exact signed_not negative m.units
  | infinite negative => rfl
  | nan => rfl

theorem toRat?_neg (value : x.toRat? = some q) : x.neg.toRat? = some (-q) := by
  obtain ⟨finite, rfl⟩ := toRat?_eq_some_iff.mp value
  apply toRat?_eq_some_iff.mpr
  rw [units_neg, Int.cast_neg, neg_div]
  cases x <;> exact ⟨finite, rfl⟩

private theorem natAbs_signed_sub (negative : Bool) (a b : ℕ) :
    (signed negative a - signed negative b).natAbs = ((a : ℤ) - b).natAbs := by
  cases negative <;> simp only [signed, Bool.false_eq_true, if_true, if_false]
  omega

/-- The distance to the integer to which a double is rounded is a double itself. -/
theorem toRat?_sub_roundAway (value : x.toRat? = some q) :
    (x.sub x.roundAway).toRat? = some (q - x.roundAway.truncate) := by
  obtain ⟨finite, -⟩ := toRat?_eq_some_iff.mp value
  have rounded := denotes_roundAway finite
  have distance : Representable (x.units - x.roundAway.units).natAbs ∧
      (x.units - x.roundAway.units).natAbs ≤ x.units.natAbs := by
    obtain ⟨negative, m, rfl⟩ := exists_eq_finite finite
    have few := representable_sub_divHalfUp m.representable
    have bound := natAbs_sub_divHalfUp_le m.units
    rw [(denotes_divHalfUp negative m).units_eq_mul, ← signed_mul, units, natAbs_signed,
      natAbs_signed_sub]
    exact ⟨few, bound⟩
  rw [Int.sub_eq_add_neg, ← units_neg] at distance
  rw [sub, sub_eq_add_neg]
  exact toRat?_add value (toRat?_neg rounded.toRat?) distance.1
    (distance.2.trans_lt (natAbs_units_lt finite))

end Binary64

end SolverProtocol.Number
