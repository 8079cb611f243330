import SolverProtocol.Proofs.Function.Narrowing
import SolverProtocol.Proofs.Number.Rational

namespace SolverProtocol

open Number Binary64

/-- The integer nearest to `x`, within the tolerance and the range of 64 bits. -/
def IsNarrowed (tolerance x : Binary64) (n : ℤ) : Prop :=
  ∃ q, x.toRat? = some q ∧ IsNearest q n ∧ tolerance.Covers |q - n| ∧ -2 ^ 63 ≤ n ∧ n < 2 ^ 63

section Exact

variable {tolerance x : Binary64} {q : ℚ} {c : Int64} {n : ℤ}

/-- The distance that is compared with the tolerance is the exact one. -/
private theorem near_iff_covers (number : tolerance.isNaN = false) (value : x.toRat? = some q) :
    tolerance.lt (x.sub x.roundAway).abs = false ↔
      tolerance.Covers |q - x.roundAway.truncate| :=
  not_lt_iff_covers number (toRat?_abs (toRat?_sub_roundAway value))

theorem narrowInteger?_eq_some_iff_isNarrowed (number : tolerance.isNaN = false) :
    narrowInteger? tolerance x = some c ↔ IsNarrowed tolerance x c.toInt := by
  rw [narrowInteger?_eq_some_iff]
  constructor
  · intro narrowed
    obtain ⟨finite, near, denotes⟩ := narrowed
    obtain ⟨q, value⟩ := isFinite_iff.mp finite
    have rounded := denotes.truncate
    have within := (near_iff_covers number value).mp near
    rw [rounded] at within
    exact ⟨q, value, (isNearest_iff value).mpr rounded, within, c.le_toInt, c.toInt_lt⟩
  · intro narrowed
    obtain ⟨q, value, nearest, within, -⟩ := narrowed
    have finite := isFinite_iff.mpr ⟨q, value⟩
    have rounded := (isNearest_iff value).mp nearest
    refine ⟨finite, (near_iff_covers number value).mpr ?_, ?_⟩
    · rwa [rounded]
    · exact rounded ▸ denotes_roundAway finite

theorem narrowInteger?_eq_none_iff (number : tolerance.isNaN = false) :
    narrowInteger? tolerance x = none ↔ ∀ n, ¬IsNarrowed tolerance x n := by
  constructor
  · intro refused n narrowed
    have range := narrowed
    obtain ⟨-, -, -, -, above, below⟩ := range
    have kept : (Int64.ofInt n).toInt = n := Int64.toInt_ofInt_of_le above (by omega)
    rw [← kept, ← narrowInteger?_eq_some_iff_isNarrowed number, refused] at narrowed
    cases narrowed
  · intro noInteger
    cases narrowed : narrowInteger? tolerance x with
    | none => rfl
    | some c =>
      exact absurd ((narrowInteger?_eq_some_iff_isNarrowed number).mp narrowed) (noInteger c.toInt)

theorem narrowInteger?_widen (nonnegative : tolerance.Covers 0)
    (small : c.toInt.natAbs ≤ 2 ^ 53) :
    narrowInteger? tolerance (Coefficient.widen c) = some c := by
  have denotes : (Coefficient.widen c).Denotes c.toInt := denotes_ofInt (fits_of_le small)
  rw [narrowInteger?_whole (zero_le_of_covers nonnegative) denotes,
    if_pos ⟨c.le_toInt, c.toInt_lt⟩, Int64.ofInt_toInt]

end Exact

/-- What doubles are narrowed to within a tolerance. -/
structure NarrowsExactly (tolerance : Binary64) : Prop where
  some_iff : ∀ x c, narrowInteger? tolerance x = some c ↔ IsNarrowed tolerance x c.toInt
  none_iff : ∀ x, narrowInteger? tolerance x = none ↔ ∀ n, ¬IsNarrowed tolerance x n
  /-- Subtracting the nearest integer rounds nothing. -/
  distance : ∀ (x : Binary64) (q : ℚ), x.toRat? = some q →
    (x.sub x.roundAway).toRat? = some (q - x.roundAway.truncate)
  /-- What is read as an integer of 64 bits is one. -/
  unsaturated : ∀ x c, narrowInteger? tolerance x = some c → x.roundAway.toRat? = some (c.toInt : ℚ)
  widened_back : tolerance.Covers 0 → ∀ c : Int64, c.toInt.natAbs ≤ 2 ^ 53 →
    narrowInteger? tolerance (Coefficient.widen c) = some c
  within : ∀ x c, narrowInteger? tolerance x = some c → ∃ q r, x.toRat? = some q ∧
    (Coefficient.widen c).toRat? = some r ∧ tolerance.Covers |q - r|

theorem narrows_exactly {tolerance : Binary64} (number : tolerance.isNaN = false) :
    NarrowsExactly tolerance where
  some_iff x c := narrowInteger?_eq_some_iff_isNarrowed number
  none_iff x := narrowInteger?_eq_none_iff number
  distance x q value := toRat?_sub_roundAway value
  unsaturated x c narrowed := (narrowInteger?_eq_some_iff.mp narrowed).2.2.toRat?
  widened_back nonnegative c small := narrowInteger?_widen nonnegative small
  within x c narrowed := by
    obtain ⟨-, -, denotes⟩ := narrowInteger?_eq_some_iff.mp narrowed
    obtain ⟨q, value, -, close, -⟩ := (narrowInteger?_eq_some_iff_isNarrowed number).mp narrowed
    exact ⟨q, c.toInt, value, (denotes_ofInt denotes.fits).toRat?, close⟩

/-- The double -5/2. -/
def minusTwoAndAHalf : Binary64 := (ofInt (-5)).div (ofInt 2)

/-- A half goes away from zero. -/
theorem minusTwoAndAHalf_narrowed :
    half.isNaN = false ∧ narrowInteger? half minusTwoAndAHalf = some (-3) ∧
      IsNarrowed half minusTwoAndAHalf (-3) := by
  have number : half.isNaN = false := by decide +kernel
  have narrowed : narrowInteger? half minusTwoAndAHalf = some (-3) := by decide +kernel
  exact ⟨number, narrowed, ((narrows_exactly number).some_iff _ _).mp narrowed⟩

end SolverProtocol
