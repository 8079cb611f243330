namespace SolverProtocol.Number

/-- The significant binary digits a double keeps. -/
def precision : Nat := 53

/-- At most 53 significant binary digits. -/
def Representable (n : Nat) : Prop :=
  ∃ significand exponent, significand < 1 <<< precision ∧ n = significand <<< exponent

/-- The integer nearest to `num / den`, a half going to the even neighbour. -/
def divNearestEven (num den : Nat) : Nat :=
  if 2 * (num % den) < den then num / den
  else if den < 2 * (num % den) then num / den + 1
  else num / den + num / den % 2

/-- The integer nearest to `num / den`, a half going up. -/
def divHalfUp (num den : Nat) : Nat :=
  (2 * num + den) / (2 * den)

/-- How many low binary digits a number of the size of `n` gives up to keep 53. -/
def surplus (n : Nat) : Nat :=
  n.log2 + 1 - precision

/-- The number of at most 53 significant binary digits nearest to `num / den`. -/
def nearest (num den : Nat) : Nat :=
  divNearestEven num (den <<< surplus (num / den)) <<< surplus (num / den)

private theorem lt_shiftLeft_surplus (n : Nat) : n < 1 <<< (precision + surplus n) := by
  rw [Nat.shiftLeft_eq, Nat.one_mul]
  apply Nat.lt_of_lt_of_le Nat.lt_log2_self
  apply Nat.pow_le_pow_right (by decide)
  simp only [surplus, precision]
  omega

theorem divNearestEven_le (num den : Nat) : divNearestEven num den ≤ num / den + 1 := by
  have : num / den % 2 < 2 := Nat.mod_lt _ (by decide)
  unfold divNearestEven
  split
  · omega
  · split <;> omega

theorem representable_of_le {q : Nat} (bound : q ≤ 1 <<< precision) (k : Nat) :
    Representable (q <<< k) := by
  rcases Nat.lt_or_eq_of_le bound with strict | rfl
  · exact ⟨q, k, strict, rfl⟩
  · exact ⟨1, precision + k, by decide, (Nat.shiftLeft_add 1 precision k).symm⟩

theorem representable_nearest (num den : Nat) : Representable (nearest num den) := by
  have size := lt_shiftLeft_surplus (num / den)
  rw [Nat.shiftLeft_add, Nat.shiftLeft_eq _ (surplus (num / den)), Nat.mul_comm] at size
  apply representable_of_le
  apply Nat.le_trans (divNearestEven_le _ _)
  rw [Nat.shiftLeft_eq den, ← Nat.div_div_eq_div_mul]
  exact Nat.div_lt_of_lt_mul size

end SolverProtocol.Number
