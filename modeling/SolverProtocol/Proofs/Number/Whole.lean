import Mathlib.Algebra.Order.Ring.Int
import Mathlib.Tactic.Ring
import SolverProtocol.Number.Binary64

/-! Doubles that are integers. Nothing is rounded where a result is such a double, so that sums,
differences and comparisons are those of the integers. -/

namespace SolverProtocol.Number

private theorem surplus_le {significand : Nat} (few : significand < 1 <<< precision) (k : Nat)
    (positive : significand <<< k ≠ 0) : surplus (significand <<< k) ≤ k := by
  have bound : significand <<< k < 2 ^ (53 + k) := by
    rw [Nat.shiftLeft_eq, Nat.pow_add]
    exact Nat.mul_lt_mul_of_pos_right few (Nat.two_pow_pos k)
  have digits := (Nat.log2_lt positive).mpr bound
  simp only [surplus, precision]
  omega

private theorem divNearestEven_of_dvd {num den : Nat} (positive : 0 < den) (exact : den ∣ num) :
    divNearestEven num den = num / den := by
  have noRest := Nat.mod_eq_zero_of_dvd exact
  simp [divNearestEven, noRest, positive]

/-- A number with few digits is the nearest such number to itself. -/
theorem nearest_self {n : Nat} (few : Representable n) : nearest n 1 = n := by
  by_cases zero : n = 0
  · subst zero; rfl
  · obtain ⟨significand, k, short, same⟩ := few
    have within : surplus n ≤ k := same ▸ surplus_le short k (same ▸ zero)
    have exact : 2 ^ surplus n ∣ n := by
      have shifted : n = significand * 2 ^ k := same.trans (Nat.shiftLeft_eq ..)
      rw [shifted] at within ⊢
      exact Nat.dvd_mul_left_of_dvd (Nat.pow_dvd_pow 2 within) significand
    have unit : 1 <<< surplus n = 2 ^ surplus n := Nat.one_shiftLeft _
    rw [nearest, Nat.div_one, unit, divNearestEven_of_dvd (Nat.two_pow_pos _) exact,
      Nat.shiftLeft_eq, Nat.div_mul_cancel exact]

theorem divHalfUp_mul {den : Nat} (n : Nat) (positive : 0 < den) : divHalfUp (n * den) den = n := by
  have scaled : 2 * (n * den) + den = den + (2 * den) * n := by ring
  have remainder : den / (2 * den) = 0 := Nat.div_eq_of_lt (by omega)
  rw [divHalfUp, scaled, Nat.add_mul_div_left _ _ (by omega), remainder, Nat.zero_add]

namespace Binary64

theorem round_self (negative : Bool) {n : Nat} (few : Representable n) (bound : n < unitsLimit) :
    round negative n 1 = .finite negative ⟨n, few, bound⟩ := by
  simp [round, nearest_self few, bound]

private theorem round_congr (negative : Bool) {num other : Nat}
    (same : nearest num 1 = nearest other 1) : round negative num 1 = round negative other 1 := by
  simp only [round, same]

theorem signed_mul (negative : Bool) (a b : Nat) :
    signed negative (a * b) = signed negative a * b := by
  cases negative <;> simp [signed]

theorem natAbs_signed (negative : Bool) (n : Nat) : (signed negative n).natAbs = n := by
  cases negative <;> simp [signed]

/-- The sign of 0 does not matter. -/
theorem signed_natAbs {negative : Bool} {n : Int} (sign : n ≠ 0 → negative = decide (n < 0)) :
    signed negative n.natAbs = n := by
  by_cases zero : n = 0
  · subst zero; cases negative <;> rfl
  · rw [sign zero, signed]
    split
    · rename_i below
      have := of_decide_eq_true below
      omega
    · rename_i above
      have := of_decide_eq_false (Bool.eq_false_iff.mpr above)
      omega

/-- The double is the integer; 0 has both signs. -/
def Denotes (x : Binary64) (n : Int) : Prop :=
  ∃ negative m, x = .finite negative m ∧ signed negative m.units = n * unitsPerOne

/-- The integer is among the doubles. -/
def Fits (n : Int) : Prop :=
  Representable (n.natAbs * unitsPerOne) ∧ n.natAbs * unitsPerOne < unitsLimit

/-- Up to this size every integer is a double. -/
def exactLimit : Nat := 2 ^ 53

theorem unitsPerOne_pos : 0 < unitsPerOne := by decide +kernel

private theorem unitsPerOne_cast_pos : (0 : Int) < unitsPerOne := by exact_mod_cast unitsPerOne_pos

theorem mul_unitsPerOne_natAbs (n : Int) :
    (n * unitsPerOne).natAbs = n.natAbs * unitsPerOne := by
  rw [Int.natAbs_mul, Int.natAbs_natCast]

theorem representable_whole {n : Nat} (few : n ≤ exactLimit) (k : Nat) :
    Representable (n <<< k * unitsPerOne) := by
  have shifted (j : Nat) : n <<< k * 1 <<< j = n <<< (k + j) := by
    simp [Nat.shiftLeft_eq, Nat.pow_add, Nat.mul_assoc]
  rw [unitsPerOne, shifted]
  exact representable_of_le few (k + 1074)

theorem fits_of_le {n : Int} (small : n.natAbs ≤ exactLimit) : Fits n := by
  have scaled : n.natAbs * unitsPerOne ≤ exactLimit * unitsPerOne := Nat.mul_le_mul_right _ small
  have bound : exactLimit * unitsPerOne < unitsLimit := by decide +kernel
  exact ⟨representable_whole small 0, Nat.lt_of_le_of_lt scaled bound⟩

namespace Denotes

variable {x y : Binary64} {a b n : Int} {negative : Bool} {m : Magnitude}

theorem position (same : x.Denotes n) : x.position = some (n * unitsPerOne) := by
  obtain ⟨negative, m, rfl, units⟩ := same
  exact congrArg some units

theorem units_eq (same : signed negative m.units = n * unitsPerOne) :
    m.units = n.natAbs * unitsPerOne := by
  rw [← mul_unitsPerOne_natAbs, ← same, natAbs_signed]

theorem sign_eq (same : signed negative m.units = n * unitsPerOne) :
    signed negative n.natAbs = n := by
  rw [units_eq same, signed_mul] at same
  exact mul_right_cancel₀ unitsPerOne_cast_pos.ne' same

theorem fits (same : x.Denotes n) : Fits n := by
  obtain ⟨negative, m, rfl, units⟩ := same
  rw [Fits, ← units_eq units]
  exact ⟨m.representable, m.lt_limit⟩

/-- The integer can be read off the double. -/
theorem truncate (same : x.Denotes n) : x.truncate = n := by
  obtain ⟨negative, m, rfl, units⟩ := same
  simp only [Binary64.truncate, units_eq units, Nat.mul_div_cancel _ unitsPerOne_pos]
  exact sign_eq units

theorem self (same : x.Denotes n) : x.Denotes x.truncate := by
  rwa [same.truncate]

end Denotes

/-- Rounding an integer that is a double gives that integer. -/
theorem denotes_round {negative : Bool} {n : Int} (fits : Fits n)
    (sign : signed negative n.natAbs = n) :
    (round negative (n.natAbs * unitsPerOne) 1).Denotes n := by
  refine ⟨negative, _, round_self negative fits.1 fits.2, ?_⟩
  rw [signed_mul, sign]

theorem denotes_ofInt {n : Int} (fits : Fits n) : (ofInt n).Denotes n :=
  denotes_round fits (signed_natAbs fun _ => rfl)

theorem denotes_zero : zero.Denotes 0 := denotes_ofInt (fits_of_le (by decide))

theorem denotes_one : one.Denotes 1 := denotes_ofInt (fits_of_le (by decide))

section Comparisons

variable {x y z : Binary64}

theorem le_eq_true_iff :
    x.le y = true ↔ ∃ a b, x.position = some a ∧ y.position = some b ∧ a ≤ b := by
  cases first : x.position <;> cases second : y.position <;> simp [le, compareBy, first, second]

theorem lt_eq_true_iff :
    x.lt y = true ↔ ∃ a b, x.position = some a ∧ y.position = some b ∧ a < b := by
  cases first : x.position <;> cases second : y.position <;> simp [lt, compareBy, first, second]

theorem le_trans (first : x.le y = true) (second : y.le z = true) : x.le z = true := by
  obtain ⟨a, b, left, middle, low⟩ := le_eq_true_iff.mp first
  obtain ⟨c, d, same, right, high⟩ := le_eq_true_iff.mp second
  obtain rfl := Option.some.inj (middle.symm.trans same)
  exact le_eq_true_iff.mpr ⟨a, d, left, right, Int.le_trans low high⟩

theorem lt_of_le_of_lt (first : x.le y = true) (second : y.lt z = true) : x.lt z = true := by
  obtain ⟨a, b, left, middle, low⟩ := le_eq_true_iff.mp first
  obtain ⟨c, d, same, right, high⟩ := lt_eq_true_iff.mp second
  obtain rfl := Option.some.inj (middle.symm.trans same)
  exact lt_eq_true_iff.mpr ⟨a, d, left, right, Int.lt_of_le_of_lt low high⟩

theorem not_lt_of_le (order : x.le y = true) : y.lt x = false := by
  obtain ⟨a, b, left, right, within⟩ := le_eq_true_iff.mp order
  simpa [lt, compareBy, left, right] using within

theorem le_of_not_lt {a b : Int} (first : x.position = some a) (second : y.position = some b)
    (order : y.lt x = false) : x.le y = true := by
  simpa [lt, le, compareBy, first, second] using order

end Comparisons

namespace Denotes

variable {x y : Binary64} {a b n : Int}

/-- The exact sum of integers is rounded once. -/
private theorem add_eq_round (first : x.Denotes a) (second : y.Denotes b) (nonzero : a + b ≠ 0) :
    x.add y = round (decide (a + b < 0)) ((a + b).natAbs * unitsPerOne) 1 := by
  obtain ⟨p, m, rfl, left⟩ := first
  obtain ⟨q, n, rfl, right⟩ := second
  have sum : signed p m.units + signed q n.units = (a + b) * unitsPerOne := by
    rw [left, right, Int.add_mul]
  have scaled : (a + b) * unitsPerOne ≠ 0 := mul_ne_zero nonzero unitsPerOne_cast_pos.ne'
  have sign : (a + b) * unitsPerOne < 0 ↔ a + b < 0 :=
    ⟨fun below => neg_of_mul_neg_left below unitsPerOne_cast_pos.le,
      fun below => mul_neg_of_neg_of_pos below unitsPerOne_cast_pos⟩
  simp only [Binary64.add, sum, mul_unitsPerOne_natAbs, if_neg scaled, sign]

private theorem add_of_opposite (first : x.Denotes a) (second : y.Denotes b) (zero : a + b = 0) :
    (x.add y).Denotes 0 := by
  obtain ⟨p, m, rfl, left⟩ := first
  obtain ⟨q, n, rfl, right⟩ := second
  have sum : signed p m.units + signed q n.units = 0 := by
    rw [left, right, ← Int.add_mul, zero, Int.zero_mul]
  simp only [Binary64.add, sum, if_true]
  exact ⟨p && q, _, round_self _ ⟨0, 0, by decide, rfl⟩ (by decide +kernel), by
    cases p && q <;> rfl⟩

/-- The sum of integers is exact if it is a double. -/
theorem add (first : x.Denotes a) (second : y.Denotes b) (fits : Fits (a + b)) :
    (x.add y).Denotes (a + b) := by
  by_cases zero : a + b = 0
  · rw [zero]
    exact first.add_of_opposite second zero
  · rw [first.add_eq_round second zero]
    exact denotes_round fits (signed_natAbs fun _ => rfl)

theorem neg (same : x.Denotes n) : x.neg.Denotes (-n) := by
  obtain ⟨negative, m, rfl, units⟩ := same
  refine ⟨!negative, m, rfl, ?_⟩
  rw [Int.neg_mul, ← units]
  cases negative <;> simp [signed]

theorem sub (first : x.Denotes a) (second : y.Denotes b) (fits : Fits (a - b)) :
    (x.sub y).Denotes (a - b) := by
  rw [Int.sub_eq_add_neg] at fits ⊢
  exact first.add second.neg fits

theorem abs (same : x.Denotes n) : x.abs.Denotes n.natAbs := by
  obtain ⟨negative, m, rfl, units⟩ := same
  refine ⟨false, m, rfl, ?_⟩
  rw [units_eq units, signed_mul]
  rfl

private theorem nearest_past_limit :
    nearest ((exactLimit + 1) * unitsPerOne) 1 = exactLimit * unitsPerOne := by
  decide +kernel

/-- Only 1 is at distance 0 from 1, although one of the differences is rounded. -/
theorem sub_one (same : x.Denotes n) (small : n.natAbs ≤ exactLimit) :
    ∃ m, (x.sub one).Denotes m ∧ (m = 0 ↔ n = 1) := by
  by_cases within : (n - 1).natAbs ≤ exactLimit
  · exact ⟨n - 1, same.sub denotes_one (fits_of_le within), by omega⟩
  · have least : n = -exactLimit := by omega
    have limit : 0 < exactLimit := by decide
    refine ⟨-exactLimit, ?_, by omega⟩
    have fits := fits_of_le (n := -exactLimit) (by omega)
    have size : (n + -1).natAbs = exactLimit + 1 := by omega
    have even : nearest ((n + -1).natAbs * unitsPerOne) 1 =
        nearest ((-exactLimit : Int).natAbs * unitsPerOne) 1 := by
      rw [size, nearest_past_limit, nearest_self fits.1, Int.natAbs_neg, Int.natAbs_natCast]
    rw [Binary64.sub, same.add_eq_round denotes_one.neg (by omega), round_congr _ even]
    exact denotes_round fits (signed_natAbs fun _ => decide_eq_decide.mpr (by omega))

/-- An integer is its own nearest integer. -/
theorem roundAway (same : x.Denotes n) : x.roundAway.Denotes n := by
  have fits := same.fits
  obtain ⟨negative, m, rfl, units⟩ := same
  simp only [Binary64.roundAway, units_eq units, divHalfUp_mul _ unitsPerOne_pos]
  exact denotes_round fits (sign_eq units)

theorem le_iff (first : x.Denotes a) (second : y.Denotes b) : x.le y = true ↔ a ≤ b := by
  simp only [le, compareBy, first.position, second.position, decide_eq_true_iff]
  exact mul_le_mul_iff_of_pos_right unitsPerOne_cast_pos

theorem lt_iff (first : x.Denotes a) (second : y.Denotes b) : x.lt y = true ↔ a < b := by
  simp only [lt, compareBy, first.position, second.position, decide_eq_true_iff]
  exact mul_lt_mul_iff_of_pos_right unitsPerOne_cast_pos

theorem equal_iff (first : x.Denotes a) (second : y.Denotes b) : x.equal y = true ↔ a = b := by
  simp only [equal, compareBy, first.position, second.position, beq_iff_eq]
  exact mul_left_inj' unitsPerOne_cast_pos.ne'

/-- A tolerance that is not negative lets 0 pass. -/
theorem abs_le {tolerance : Binary64} (nonnegative : zero.le tolerance = true)
    (same : x.Denotes 0) : x.abs.le tolerance = true :=
  le_trans ((same.abs.le_iff denotes_zero).mpr (by decide)) nonnegative

theorem not_lt_abs {tolerance : Binary64} (nonnegative : zero.le tolerance = true)
    (same : x.Denotes 0) : tolerance.lt x.abs = false :=
  not_lt_of_le (same.abs_le nonnegative)

/-- Within less than 1 of zero there is no other integer. -/
theorem abs_le_iff {tolerance : Binary64} (nonnegative : zero.le tolerance = true)
    (belowOne : tolerance.lt one = true) (same : x.Denotes n) :
    x.abs.le tolerance = true ↔ n = 0 := by
  constructor
  · intro within
    have small := (same.abs.lt_iff denotes_one).mp (lt_of_le_of_lt within belowOne)
    omega
  · rintro rfl
    exact same.abs_le nonnegative

end Denotes

private theorem equal_zero_eq (x : Binary64) : x.equal zero = (x.position == some 0) := by
  rw [equal, compareBy, denotes_zero.position, Int.zero_mul]
  cases x.position <;> rfl

theorem equal_zero_iff {x : Binary64} : x.equal zero = true ↔ x.Denotes 0 := by
  rw [equal_zero_eq, beq_iff_eq]
  constructor
  · intro origin
    cases x with
    | finite negative m =>
      refine ⟨negative, m, rfl, ?_⟩
      rw [Int.zero_mul]
      exact Option.some.inj origin
    | infinite negative =>
      have apart : signed negative unitsLimit ≠ 0 := by cases negative <;> decide +kernel
      exact absurd (Option.some.inj origin) apart
    | nan => cases origin
  · intro denotes
    rw [denotes.position, Int.zero_mul]

/-- Adding to zero rounds nothing, and only the sign of a zero may change. -/
theorem zero_add {x : Binary64} (nonzero : x.equal zero = false) : zero.add x = x := by
  obtain ⟨sign, origin, same, nothing⟩ := denotes_zero
  rw [equal_zero_eq] at nonzero
  rw [same]
  cases x with
  | finite negative m =>
    rw [Int.zero_mul] at nothing
    have apart : signed negative m.units ≠ 0 := by simpa [position] using nonzero
    have kept : decide (signed negative m.units < 0) = negative := by
      cases negative
      · simp [signed]
      · simp only [signed, if_true] at apart ⊢
        exact decide_eq_true (by omega)
    simp only [add, nothing, Int.zero_add, if_neg apart, kept, natAbs_signed]
    exact round_self negative m.representable m.lt_limit
  | infinite negative => rfl
  | nan => rfl

theorem equal_zero_add (x : Binary64) : (zero.add x).equal zero = x.equal zero := by
  cases nonzero : x.equal zero with
  | false => rw [zero_add nonzero, nonzero]
  | true =>
    have denotes := equal_zero_iff.mp nonzero
    exact equal_zero_iff.mpr (denotes_zero.add_of_opposite denotes rfl)

end Binary64

end SolverProtocol.Number
