import Mathlib.Algebra.Group.Nat.Defs
import Mathlib.Data.Nat.Log

/-!
# Whole numbers in binary64

A `double` that only ever holds whole numbers is a natural number with at
most 53 significant bits. Conversion from an integer and addition round to
the nearest such number, ties to even.

* `toDouble_mono`, `toDouble_idem`: rounding is monotone and fixes doubles.
* `le_two_mul_toDouble`: it never more than halves a number.
-/
namespace WebPlayer.Core

/-- To a multiple of `2 ^ e`. -/
def roundHalfEven (e n : Nat) : Nat :=
  if 2 * (n % 2 ^ e) < 2 ^ e ∨ (2 * (n % 2 ^ e) = 2 ^ e ∧ n / 2 ^ e % 2 = 0) then n / 2 ^ e * 2 ^ e
  else (n / 2 ^ e + 1) * 2 ^ e

/-- The double nearest to `n`. -/
def toDouble (n : Nat) : Nat := roundHalfEven (n.log2 - 52) n

section
variable (e n : Nat)

theorem le_roundHalfEven : n / 2 ^ e * 2 ^ e ≤ roundHalfEven e n := by
  unfold roundHalfEven
  split
  · exact Nat.le_refl _
  · exact Nat.mul_le_mul_right _ (Nat.le_succ _)

theorem roundHalfEven_le : roundHalfEven e n ≤ (n / 2 ^ e + 1) * 2 ^ e := by
  unfold roundHalfEven
  split
  · exact Nat.mul_le_mul_right _ (Nat.le_succ _)
  · exact Nat.le_refl _

theorem dvd_roundHalfEven : 2 ^ e ∣ roundHalfEven e n := by
  unfold roundHalfEven
  split
  · exact Nat.dvd_mul_left ..
  · exact Nat.dvd_mul_left ..

end

theorem roundHalfEven_mono {e m n : Nat} (h : m ≤ n) : roundHalfEven e m ≤ roundHalfEven e n := by
  rcases Nat.lt_or_eq_of_le (Nat.div_le_div_right (c := 2 ^ e) h) with hq | hq
  · calc roundHalfEven e m ≤ (m / 2 ^ e + 1) * 2 ^ e := roundHalfEven_le e m
      _ ≤ n / 2 ^ e * 2 ^ e := Nat.mul_le_mul_right _ hq
      _ ≤ roundHalfEven e n := le_roundHalfEven e n
  · -- the same quotient: whoever rounds down has the smaller remainder
    have hm := Nat.div_add_mod m (2 ^ e)
    have hn := Nat.div_add_mod n (2 ^ e)
    rw [hq] at hm
    have hr : m % 2 ^ e ≤ n % 2 ^ e := by omega
    unfold roundHalfEven
    simp only [hq]
    split
    · split
      · exact Nat.le_refl _
      · exact Nat.mul_le_mul_right _ (Nat.le_succ _)
    · rw [if_neg (by omega)]

theorem roundHalfEven_of_dvd {e n : Nat} (h : 2 ^ e ∣ n) : roundHalfEven e n = n := by
  have hpos : 0 < 2 ^ e := Nat.two_pow_pos e
  unfold roundHalfEven
  rw [Nat.mod_eq_zero_of_dvd h]
  simp only [Nat.mul_zero, hpos, true_or, if_true]
  exact Nat.div_mul_cancel h

/-- 53 bits of quotient. -/
theorem quotient_lt (n : Nat) : n / 2 ^ (n.log2 - 52) < 2 ^ 53 := by
  rw [Nat.div_lt_iff_lt_mul (Nat.two_pow_pos _), ← Nat.pow_add]
  exact Nat.lt_of_lt_of_le Nat.lt_log2_self (Nat.pow_le_pow_right (by decide) (by omega))

theorem toDouble_mono {m n : Nat} (h : m ≤ n) : toDouble m ≤ toDouble n := by
  have hlog : m.log2 ≤ n.log2 := by simpa only [Nat.log2_eq_log_two] using Nat.log_mono_right h
  by_cases he : m.log2 - 52 = n.log2 - 52
  · unfold toDouble
    rw [he]
    exact roundHalfEven_mono h
  · -- a power of two lies between
    have hn : n ≠ 0 := by
      rintro rfl
      have h0 : Nat.log2 0 = 0 := rfl
      omega
    calc toDouble m ≤ (m / 2 ^ (m.log2 - 52) + 1) * 2 ^ (m.log2 - 52) := roundHalfEven_le _ m
      _ ≤ 2 ^ 53 * 2 ^ (m.log2 - 52) := Nat.mul_le_mul_right _ (quotient_lt m)
      _ = 2 ^ (53 + (m.log2 - 52)) := (Nat.pow_add ..).symm
      _ ≤ 2 ^ (52 + (n.log2 - 52)) := Nat.pow_le_pow_right (by decide) (by omega)
      _ = 2 ^ 52 * 2 ^ (n.log2 - 52) := Nat.pow_add ..
      _ ≤ n / 2 ^ (n.log2 - 52) * 2 ^ (n.log2 - 52) := by
        refine Nat.mul_le_mul_right _ ((Nat.le_div_iff_mul_le (Nat.two_pow_pos _)).mpr ?_)
        rw [← Nat.pow_add]
        exact Nat.le_trans (Nat.pow_le_pow_right (by decide) (by omega)) (Nat.log2_self_le hn)
      _ ≤ toDouble n := le_roundHalfEven _ n

theorem toDouble_eq_self {n : Nat} (h : 2 ^ (n.log2 - 52) ∣ n) : toDouble n = n := roundHalfEven_of_dvd h

/-- What has been rounded is a double. -/
theorem toDouble_idem (n : Nat) : toDouble (toDouble n) = toDouble n := by
  apply toDouble_eq_self
  obtain ⟨k, hk⟩ := dvd_roundHalfEven (n.log2 - 52) n
  have hle : toDouble n ≤ 2 ^ (53 + (n.log2 - 52)) := by
    rw [Nat.pow_add]
    exact Nat.le_trans (roundHalfEven_le _ n) (Nat.mul_le_mul_right _ (quotient_lt n))
  rcases Nat.lt_or_eq_of_le hle with hlt | heq
  · by_cases h0 : toDouble n = 0
    · rw [h0]
      exact Nat.dvd_zero _
    have hlog : (toDouble n).log2 < 53 + (n.log2 - 52) := (Nat.log2_lt h0).mpr hlt
    exact Nat.dvd_trans (Nat.pow_dvd_pow 2 (by omega)) ⟨k, hk⟩
  · rw [heq, Nat.log2_two_pow]
    exact Nat.pow_dvd_pow 2 (by omega)

theorem le_two_mul_toDouble (n : Nat) : n ≤ 2 * toDouble n := by
  by_cases h0 : n = 0
  · omega
  have hpos : 0 < 2 ^ (n.log2 - 52) := Nat.two_pow_pos _
  have hq : 1 ≤ n / 2 ^ (n.log2 - 52) := by
    rw [Nat.le_div_iff_mul_le hpos, Nat.one_mul]
    exact Nat.le_trans (Nat.pow_le_pow_right (by decide) (by omega)) (Nat.log2_self_le h0)
  have hle := le_roundHalfEven (n.log2 - 52) n
  have hlt := Nat.lt_div_mul_add (a := n) hpos
  have hstep : 1 * 2 ^ (n.log2 - 52) ≤ n / 2 ^ (n.log2 - 52) * 2 ^ (n.log2 - 52) := Nat.mul_le_mul_right _ hq
  rw [toDouble]
  omega

end WebPlayer.Core
