import SolverProtocol.Function.Canonical
import SolverProtocol.Proofs.Number.Nearest
import SolverProtocol.Proofs.Traversal

namespace SolverProtocol

open Number Binary64

section Integers

variable {tolerance lower higher x : Binary64} {n : Int}

private theorem fits_two_pow_63 : Fits (2 ^ 63) :=
  ⟨representable_whole (n := 1) (by decide) 63, by decide +kernel⟩

private theorem narrowInteger?_of_infinite (infinite : x.isFinite = false) :
    narrowInteger? tolerance x = none := by
  simp [narrowInteger?, infinite]

private theorem narrowInteger?_of_finite (finite : x.isFinite = true) :
    narrowInteger? tolerance x =
      if tolerance.lt (x.sub x.roundAway).abs = false ∧
          -2 ^ 63 ≤ x.roundAway.truncate ∧ x.roundAway.truncate < 2 ^ 63 then
        some (.ofInt x.roundAway.truncate)
      else none := by
  have rounded := denotes_roundAway finite
  have least : (ofInt Int64.minValue.toInt).Denotes (-2 ^ 63) := denotes_ofInt fits_two_pow_63
  have beyond : (ofInt (Int64.maxValue.toInt + 1)).Denotes (2 ^ 63) :=
    denotes_ofInt fits_two_pow_63
  have test : (!x.isFinite || tolerance.lt (x.sub x.roundAway).abs ||
      x.roundAway.lt (ofInt Int64.minValue.toInt) ||
      (ofInt (Int64.maxValue.toInt + 1)).le x.roundAway) = true ↔
        ¬(tolerance.lt (x.sub x.roundAway).abs = false ∧
          -2 ^ 63 ≤ x.roundAway.truncate ∧ x.roundAway.truncate < 2 ^ 63) := by
    rw [finite, Bool.or_eq_true, Bool.or_eq_true, Bool.or_eq_true, rounded.lt_iff least,
      beyond.le_iff rounded]
    cases tolerance.lt (x.sub x.roundAway).abs
    · simp only [Bool.not_true, Bool.false_eq_true, false_or, true_and]
      omega
    · simp only [Bool.not_true, Bool.false_eq_true, false_or, true_or, reduceCtorEq, false_and,
        not_false_eq_true]
  unfold narrowInteger?
  dsimp only
  split_ifs with refused accepted accepted
  · exact absurd accepted (test.mp refused)
  · rfl
  · rfl
  · exact absurd (test.mpr accepted) refused

/-- A double stands for the integer to which it is rounded, if it is not too far away. -/
theorem narrowInteger?_eq_some_iff {c : Int64} :
    narrowInteger? tolerance x = some c ↔
      x.isFinite = true ∧ tolerance.lt (x.sub x.roundAway).abs = false ∧
        x.roundAway.Denotes c.toInt := by
  cases finite : x.isFinite with
  | false => simp [narrowInteger?_of_infinite finite]
  | true =>
    have rounded := denotes_roundAway finite
    rw [narrowInteger?_of_finite finite]
    constructor
    · intro narrowed
      split at narrowed
      · rename_i accepted
        obtain ⟨near, above, below⟩ := accepted
        obtain rfl := Option.some.inj narrowed
        refine ⟨rfl, near, ?_⟩
        rwa [Int64.toInt_ofInt_of_le above (by omega)]
      · cases narrowed
    · rintro ⟨-, near, denotes⟩
      have above := Int64.le_toInt c
      have below := Int64.toInt_lt c
      rw [denotes.truncate, if_pos ⟨near, by omega, by omega⟩, Int64.ofInt_toInt]

theorem narrowInteger?_whole (nonnegative : zero.le tolerance = true) (denotes : x.Denotes n) :
    narrowInteger? tolerance x =
      if -2 ^ 63 ≤ n ∧ n < 2 ^ 63 then some (.ofInt n) else none := by
  have rounded := denotes.roundAway
  have near : tolerance.lt (x.sub x.roundAway).abs = false := by
    have fits : Fits (n - n) := Int.sub_self n ▸ denotes_zero.fits
    have difference := denotes.sub rounded fits
    rw [Int.sub_self] at difference
    exact difference.not_lt_abs nonnegative
  rw [narrowInteger?_of_finite denotes.isFinite, rounded.truncate, near]
  simp only [true_and]

/-- What is near to an integer of moderate size stands for that or the next one. -/
theorem exists_narrowInteger?_of_near {y : Binary64} (small : tolerance.le half = true)
    (denotes : y.Denotes n) (moderate : n.natAbs < 2 ^ 63 - 1)
    (near : (x.sub y).abs.le tolerance = true) : ∃ c, narrowInteger? tolerance x = some c := by
  have halfway := le_trans near small
  have finite := isFinite_of_near denotes.isFinite halfway
  have close := natAbs_sub_lt_of_near denotes.isFinite halfway
  rw [denotes.units_eq_mul] at close
  have neighbour := natAbs_truncate_roundAway_sub_le finite close
  have within := not_lt_of_le (le_trans (abs_sub_roundAway_le finite denotes) near)
  rw [narrowInteger?_of_finite finite, if_pos ⟨within, by omega, by omega⟩]
  exact ⟨_, rfl⟩

/-- A looser tolerance refuses less, and what is accepted is rounded to the same integer. -/
theorem narrowInteger?_mono (looser : lower.le higher = true) {c : Int64}
    (narrowed : narrowInteger? lower x = some c) : narrowInteger? higher x = some c := by
  obtain ⟨finite, near, denotes⟩ := narrowInteger?_eq_some_iff.mp narrowed
  refine narrowInteger?_eq_some_iff.mpr ⟨finite, ?_, denotes⟩
  rw [Bool.eq_false_iff] at near ⊢
  exact fun far => near (lt_of_le_of_lt looser far)

/-- An integer that was narrowed to is a double, and stands for itself. -/
theorem narrowInteger?_widened (nonnegative : zero.le tolerance = true) {c : Int64}
    (narrowed : narrowInteger? tolerance x = some c) :
    narrowInteger? tolerance (ofInt c.toInt) = some c := by
  obtain ⟨-, -, denotes⟩ := narrowInteger?_eq_some_iff.mp narrowed
  have above := Int64.le_toInt c
  have below := Int64.toInt_lt c
  rw [narrowInteger?_whole nonnegative (denotes_ofInt denotes.fits),
    if_pos ⟨by omega, by omega⟩, Int64.ofInt_toInt]

end Integers

namespace CoefficientType

variable (k : CoefficientType) {tolerance lower higher x : Binary64} {c : k.Carrier}

theorem narrow?_mono (looser : lower.le higher = true)
    (narrowed : Coefficient.narrow? lower x = some c) : Coefficient.narrow? higher x = some c := by
  cases k with
  | real => exact narrowed
  | integer => exact narrowInteger?_mono looser narrowed

theorem narrow?_widened (nonnegative : zero.le tolerance = true)
    (narrowed : Coefficient.narrow? tolerance x = some c) :
    Coefficient.narrow? tolerance (Coefficient.widen c) = some c := by
  cases k with
  | real => rfl
  | integer => exact narrowInteger?_widened nonnegative narrowed

end CoefficientType

theorem QuadraticFunction.requireNoProducts_eq (q : Canonical) :
    q.requireNoProducts =
      if q.productSums = [] then .ok () else .error (.quadraticTerms q.productSums.length) := by
  simp [requireNoProducts]

section Reading

variable {T : Type} [Coefficient T] {tolerance : Binary64} {q : Canonical}

theorem narrow_eq_ok_iff {x : Binary64} {c : T} :
    narrow tolerance x = .ok c ↔ Coefficient.narrow? tolerance x = some c := by
  unfold narrow
  cases Coefficient.narrow? (T := T) tolerance x <;> simp

theorem narrow_eq_error_iff {x : Binary64} {e : ConversionError} :
    (narrow tolerance x : Except ConversionError T) = .error e ↔
      Coefficient.narrow? (T := T) tolerance x = none ∧ e = .inexactCoefficient x := by
  unfold narrow
  cases Coefficient.narrow? (T := T) tolerance x <;> simp [eq_comm]

/-- The term has the variable, and its coefficient stands for the double. -/
def AffineTerm.StandsFor (tolerance : Binary64) (entry : VariableIndex × Binary64)
    (term : AffineTerm T) : Prop :=
  term.var = entry.1 ∧ Coefficient.narrow? tolerance entry.2 = some term.coefficient

/-- The term has the same factors, and its coefficient stands for the other one. -/
def QuadraticTerm.StandsFor (tolerance : Binary64) (original : QuadraticTerm Binary64)
    (term : QuadraticTerm T) : Prop :=
  term.first = original.first ∧ term.second = original.second ∧
    Coefficient.narrow? tolerance original.coefficient = some term.coefficient

theorem AffineTerm.standsFor_iff {x : VariableIndex} {c : Binary64} {term : AffineTerm T} :
    (do return (⟨← narrow tolerance c, x⟩ : AffineTerm T)) = .ok term ↔
      term.StandsFor tolerance (x, c) := by
  rw [bind_eq_ok_iff]
  constructor
  · rintro ⟨coefficient, narrowed, same⟩
    cases same
    exact ⟨rfl, narrow_eq_ok_iff.mp narrowed⟩
  · rintro ⟨same, narrowed⟩
    exact ⟨term.coefficient, narrow_eq_ok_iff.mpr narrowed, by subst same; rfl⟩

theorem QuadraticTerm.standsFor_iff {original : QuadraticTerm Binary64} {term : QuadraticTerm T} :
    (do return (⟨← narrow tolerance original.coefficient, original.first, original.second⟩ :
      QuadraticTerm T)) = .ok term ↔ QuadraticTerm.StandsFor tolerance original term := by
  rw [bind_eq_ok_iff]
  constructor
  · rintro ⟨coefficient, narrowed, same⟩
    cases same
    exact ⟨rfl, rfl, narrow_eq_ok_iff.mp narrowed⟩
  · rintro ⟨first, second, narrowed⟩
    exact ⟨term.coefficient, narrow_eq_ok_iff.mpr narrowed, by rw [← first, ← second]; rfl⟩

theorem AffineTerm.exists_standsFor_iff {entry : VariableIndex × Binary64} :
    (∃ term : AffineTerm T, term.StandsFor tolerance entry) ↔
      ∃ c : T, Coefficient.narrow? tolerance entry.2 = some c := by
  constructor
  · rintro ⟨term, -, narrowed⟩
    exact ⟨_, narrowed⟩
  · rintro ⟨c, narrowed⟩
    exact ⟨⟨c, entry.1⟩, rfl, narrowed⟩

theorem QuadraticTerm.exists_standsFor_iff {original : QuadraticTerm Binary64} :
    (∃ term : QuadraticTerm T, QuadraticTerm.StandsFor tolerance original term) ↔
      ∃ c : T, Coefficient.narrow? tolerance original.coefficient = some c := by
  constructor
  · rintro ⟨term, -, -, narrowed⟩
    exact ⟨_, narrowed⟩
  · rintro ⟨c, narrowed⟩
    exact ⟨⟨c, original.first, original.second⟩, rfl, rfl, narrowed⟩

theorem SingleVariable.ofCanonical_eq_ok_iff {g : SingleVariable} :
    SingleVariable.ofCanonical tolerance q = .ok g ↔
      q.productSums = [] ∧ ∃ c, q.variableSums = [(g.var, c)] ∧
        (c.sub one).abs.le tolerance = true ∧ q.constant.abs.le tolerance = true := by
  by_cases none : q.productSums = []
  · rw [SingleVariable.ofCanonical, q.requireNoProducts_eq, if_pos none, and_iff_right none]
    rcases q.variableSums with _ | ⟨⟨y, coefficient⟩, _ | ⟨second, rest⟩⟩
    · simp [bind, Except.bind]
    · obtain ⟨x⟩ := g
      by_cases close : ((coefficient.sub one).abs.le tolerance &&
          q.constant.abs.le tolerance) = true
      · have both := Bool.and_eq_true_iff.mp close
        simp [bind, Except.bind, both]
      · have refused := close
        rw [Bool.and_eq_true_iff] at refused
        simp only [bind, Except.bind, close, if_false, reduceCtorEq, false_iff]
        rintro ⟨c, same, unit, constant⟩
        cases same
        exact refused ⟨unit, constant⟩
    · simp [bind, Except.bind]
  · rw [SingleVariable.ofCanonical, q.requireNoProducts_eq, if_neg none]
    simp [bind, Except.bind, none]

theorem AffineFunction.ofCanonical_eq_ok_iff {g : AffineFunction T} :
    AffineFunction.ofCanonical tolerance q = .ok g ↔
      q.productSums = [] ∧ List.Forall₂ (AffineTerm.StandsFor tolerance) q.variableSums g.terms ∧
        Coefficient.narrow? tolerance q.constant = some g.constant := by
  by_cases none : q.productSums = []
  · rw [AffineFunction.ofCanonical, q.requireNoProducts_eq, if_pos none, and_iff_right none]
    constructor
    · intro read
      obtain ⟨-, -, read⟩ := bind_eq_ok_iff.mp read
      obtain ⟨terms, each, read⟩ := bind_eq_ok_iff.mp read
      obtain ⟨constant, narrowed, same⟩ := bind_eq_ok_iff.mp read
      cases same
      refine ⟨?_, narrow_eq_ok_iff.mp narrowed⟩
      exact (mapM_eq_ok_iff.mp each).imp fun _ _ => AffineTerm.standsFor_iff.mp
    · intro ⟨each, narrowed⟩
      apply bind_eq_ok_iff.mpr ⟨(), rfl, _⟩
      apply bind_eq_ok_iff.mpr ⟨g.terms, _, _⟩
      · exact mapM_eq_ok_iff.mpr (each.imp fun _ _ => AffineTerm.standsFor_iff.mpr)
      · exact bind_eq_ok_iff.mpr ⟨g.constant, narrow_eq_ok_iff.mpr narrowed, rfl⟩
  · rw [AffineFunction.ofCanonical, q.requireNoProducts_eq, if_neg none]
    simp [bind, Except.bind, none]

theorem QuadraticFunction.ofCanonical_eq_ok_iff {g : QuadraticFunction T} :
    QuadraticFunction.ofCanonical tolerance q = .ok g ↔
      List.Forall₂ (fun t => AffineTerm.StandsFor tolerance (t.var, t.coefficient))
        q.affineTerms g.affineTerms ∧
      List.Forall₂ (QuadraticTerm.StandsFor tolerance) q.quadraticTerms g.quadraticTerms ∧
      Coefficient.narrow? tolerance q.constant = some g.constant := by
  rw [QuadraticFunction.ofCanonical]
  constructor
  · intro read
    obtain ⟨affineTerms, ofAffine, read⟩ := bind_eq_ok_iff.mp read
    obtain ⟨quadraticTerms, ofQuadratic, read⟩ := bind_eq_ok_iff.mp read
    obtain ⟨constant, narrowed, same⟩ := bind_eq_ok_iff.mp read
    cases same
    refine ⟨?_, ?_, narrow_eq_ok_iff.mp narrowed⟩
    · exact (mapM_eq_ok_iff.mp ofAffine).imp fun _ _ => AffineTerm.standsFor_iff.mp
    · exact (mapM_eq_ok_iff.mp ofQuadratic).imp fun _ _ => QuadraticTerm.standsFor_iff.mp
  · intro ⟨ofAffine, ofQuadratic, narrowed⟩
    apply bind_eq_ok_iff.mpr ⟨g.affineTerms, _, _⟩
    · exact mapM_eq_ok_iff.mpr (ofAffine.imp fun _ _ => AffineTerm.standsFor_iff.mpr)
    apply bind_eq_ok_iff.mpr ⟨g.quadraticTerms, _, _⟩
    · exact mapM_eq_ok_iff.mpr (ofQuadratic.imp fun _ _ => QuadraticTerm.standsFor_iff.mpr)
    exact bind_eq_ok_iff.mpr ⟨g.constant, narrow_eq_ok_iff.mpr narrowed, rfl⟩

end Reading

end SolverProtocol
