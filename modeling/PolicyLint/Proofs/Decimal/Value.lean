import Mathlib.Algebra.Order.Field.Power
import Mathlib.Algebra.Order.Ring.Rat
import PolicyLint.Decimal.Binary64
import PolicyLint.Decimal.Bounds

/-!
# What numbers stand for

The rational number behind a binary number, and the ranges that the checks on numbers decide.
-/
namespace PolicyLint.Decimal
set_option autoImplicit false

theorem fitsUnsigned_iff {size : Nat} {n : Int} : fitsUnsigned size n = true ↔ 0 ≤ n ∧ n < size := by
  cases n with
  | ofNat m =>
    rw [fitsUnsigned, decide_eq_true_eq, Int.ofNat_eq_natCast, Int.ofNat_lt]
    exact (and_iff_right (Int.natCast_nonneg m)).symm
  | negSucc m =>
    constructor
    · intro h
      cases h
    · rintro ⟨h, -⟩
      exact absurd h (Int.not_le.mpr (Int.negSucc_lt_zero m))

theorem shift_snd_pos (m : Nat) (e : Int) : 0 < (shift m 1 e).2 := by
  unfold shift
  split
  · rw [Nat.one_mul]
    exact Nat.pow_pos (by decide)
  · exact Nat.one_pos

theorem shift_value (m : Nat) (e : Int) :
    ((shift m 1 e).1 : ℚ) = m * 2 ^ e * (shift m 1 e).2 := by
  unfold shift
  split
  · rename_i h
    have he : e = -(e.natAbs : Int) := by omega
    generalize e.natAbs = k at he
    subst he
    have hPow : ((2 : ℚ) ^ k) ≠ 0 := pow_ne_zero k (by decide)
    rw [Nat.one_mul, Nat.pow_eq, Nat.cast_pow, Nat.cast_ofNat, zpow_neg, zpow_natCast, mul_assoc,
      inv_mul_cancel₀ hPow, mul_one]
  · rename_i h
    have he : e = (e.toNat : Int) := by omega
    generalize e.toNat = k at he
    subst he
    rw [Nat.pow_eq, Nat.cast_mul, Nat.cast_pow, Nat.cast_ofNat, zpow_natCast, Nat.cast_one, mul_one]

namespace Binary64

/-- The value of a finite number. -/
def value : Binary64 → Option ℚ
  | finite negative m e => some (if negative then -(m * 2 ^ e) else m * 2 ^ e)
  | _ => none

theorem magnitude_nonneg (m : Nat) (e : Int) : (0 : ℚ) ≤ m * 2 ^ e :=
  mul_nonneg (Nat.cast_nonneg m) (zpow_nonneg (by decide) e)

theorem magnitude_le_one_iff (m : Nat) (e : Int) :
    (m * 2 ^ e : ℚ) ≤ 1 ↔ (shift m 1 e).1 ≤ (shift m 1 e).2 := by
  have hPos : (0 : ℚ) < (shift m 1 e).2 := Nat.cast_pos.mpr (shift_snd_pos m e)
  rw [← Nat.cast_le (α := ℚ), shift_value]
  constructor
  · intro h
    exact mul_le_of_le_one_left hPos.le h
  · intro h
    exact le_of_mul_le_mul_right (h.trans_eq (one_mul _).symm) hPos

/-- A number lies in the unit interval if and only if it is finite and its value does. -/
theorem inUnit_iff {x : Binary64} : x.inUnit = true ↔ ∃ q, x.value = some q ∧ 0 ≤ q ∧ q ≤ 1 := by
  cases x with
  | nan => simp [inUnit, value]
  | infinite negative => simp [inUnit, value]
  | finite negative m e =>
    have hNonneg := magnitude_nonneg m e
    simp only [inUnit, value, Bool.or_eq_true, beq_iff_eq, Bool.and_eq_true, Bool.not_eq_true',
      decide_eq_true_eq, Option.some.injEq, exists_eq_left', ← magnitude_le_one_iff]
    cases negative with
    | false =>
      simp only [Bool.false_eq_true, if_false, true_and]
      constructor
      · rintro (rfl | h)
        · simp
        · exact ⟨hNonneg, h⟩
      · rintro ⟨-, h⟩
        exact .inr h
    | true =>
      simp only [if_true, Bool.true_eq_false, false_and, or_false]
      constructor
      · rintro rfl
        simp
      · rintro ⟨h, -⟩
        have hZero : (m * 2 ^ e : ℚ) = 0 := le_antisymm (neg_nonneg.mp h) hNonneg
        have hPow : ((2 : ℚ) ^ e) ≠ 0 := zpow_ne_zero e (by decide)
        exact Nat.cast_eq_zero.mp ((mul_eq_zero.mp hZero).resolve_right hPow)

end Binary64

end PolicyLint.Decimal
