import Montage.Proofs.FiniteNumbers
import Montage.Proofs.ReadNumbers
import Mathlib.Tactic.Linarith

/-! # How far a rounded result is off

A double is off by at most half a unit of what it stands for: by the share `2 ^ (-53)` of it, or near
zero by `2 ^ (-1075)` (`Number.abs_nearest_sub_le`).  What lengths are computed with needs no more of a
rounding than this (`Rounding.Close`); it carries over to differences and quotients, as long as they are
finite.
-/
namespace Montage

namespace Number

/-! ### The nearest double -/

/-- A significand is off by half a unit. -/
theorem abs_significand_sub_le (n : Nat) {d : Nat} (hd : 0 < d) (e : Int) :
    |(significand n d e : ℚ) * 2 ^ e - n / d| ≤ 2 ^ e / 2 := by
  have hpos : (0 : ℚ) < 2 ^ e := by positivity
  have hoff := abs_halfEven_sub_le (n * 2 ^ (-e).toNat) (d := d * 2 ^ e.toNat) (by positivity)
  have hquotient : ((n * 2 ^ (-e).toNat : Nat) : ℚ) / (d * 2 ^ e.toNat : Nat) = n / d / 2 ^ e := by
    rw [two_zpow_eq]
    push_cast
    field_simp
  rw [← significand_eq, hquotient] at hoff
  calc |(significand n d e : ℚ) * 2 ^ e - n / d|
      = |(significand n d e : ℚ) - n / d / 2 ^ e| * 2 ^ e := by
        rw [← abs_of_pos hpos, ← abs_mul, abs_of_pos hpos, sub_mul, div_mul_cancel₀ _ hpos.ne']
    _ ≤ 1 / 2 * 2 ^ e := mul_le_mul_of_nonneg_right hoff hpos.le
    _ = 2 ^ e / 2 := by ring

/-- The unit of a quotient is a small share of it, or the smallest one. -/
theorem two_zpow_unitExponent_le {n d : Nat} (hn : 0 < n) (hd : 0 < d) :
    (2 : ℚ) ^ unitExponent n d / 2 ≤ (n : ℚ) / d / 2 ^ 53 + 2 ^ (-1075 : Int) := by
  have hhalf (e : Int) : (2 : ℚ) ^ e / 2 = 2 ^ (e - 1) := by rw [zpow_sub_one₀ two_ne_zero, div_eq_mul_inv]
  have hshare : (2 : ℚ) ^ (binaryExponent n d - 52 - 1) ≤ (n : ℚ) / d / 2 ^ 53 := by
    have hunit : (2 : ℚ) ^ (binaryExponent n d - 52 - 1) = 2 ^ binaryExponent n d / 2 ^ 53 := by
      rw [sub_sub, zpow_sub₀ two_ne_zero]
      rfl
    rw [hunit]
    exact div_le_div_of_nonneg_right (two_zpow_binaryExponent_le hn hd) (by positivity)
  have hleast : (0 : ℚ) ≤ 2 ^ (-1075 : Int) := by positivity
  have hquotient : (0 : ℚ) ≤ (n : ℚ) / d / 2 ^ 53 := by positivity
  rw [hhalf, unitExponent]
  rcases max_choice (binaryExponent n d - 52) (-1074) with hmax | hmax <;> rw [hmax]
  · exact hshare.trans (le_add_of_nonneg_right hleast)
  · exact le_add_of_nonneg_left hquotient

theorem abs_rounded_sub_le {n d : Nat} (hn : 0 < n) (hd : 0 < d) :
    |rounded n d - n / d| ≤ (n : ℚ) / d / 2 ^ 53 + 2 ^ (-1075 : Int) :=
  (abs_significand_sub_le n hd _).trans (two_zpow_unitExponent_le hn hd)

theorem rat_neg (x : Number) : x.neg.rat = -x.rat := by
  cases x with
  | finite q =>
    rw [neg]
    split
    · rename_i hq
      simp [rat, hq]
    · rfl
  | _ => simp [neg, rat]

theorem abs_nearest_sub_le_of_pos {q : ℚ} (hq : 0 < q) (h : (nearest q).isFinite = true) :
    |(nearest q).rat - q| ≤ |q| / 2 ^ 53 + 2 ^ (-1075 : Int) := by
  have hnum : 0 < q.num.natAbs := Int.natAbs_pos.mpr (Rat.num_pos.mpr hq).ne'
  have hquotient : (q.num.natAbs : ℚ) / q.den = |q| := (abs_eq_natAbs_div q).symm
  have hoff := abs_rounded_sub_le hnum q.pos
  rw [hquotient, abs_of_pos hq] at hoff
  rw [nearest_of_pos hq, nearestMagnitude_eq] at h ⊢
  by_cases hsmall : rounded q.num.natAbs q.den < ((Nat.pow 2 1024 : Nat) : ℚ)
  · rw [if_pos hsmall, abs_of_pos hq]
    exact hoff
  · rw [if_neg hsmall] at h
    cases h

/-- **The nearest double is off by half a unit at most.** -/
theorem abs_nearest_sub_le {q : ℚ} (h : (nearest q).isFinite = true) :
    |(nearest q).rat - q| ≤ |q| / 2 ^ 53 + 2 ^ (-1075 : Int) := by
  rcases lt_trichotomy q 0 with hq | rfl | hq
  · have hpos : 0 < -q := neg_pos.mpr hq
    have hneg := nearest_neg hpos
    rw [neg_neg] at hneg
    rw [hneg, isFinite_neg] at h
    have hoff := abs_nearest_sub_le_of_pos hpos h
    rw [hneg, rat_neg, ← abs_neg, ← abs_neg q]
    convert hoff using 2
    ring
  · have hzero : nearest 0 = finite 0 := rfl
    rw [hzero, rat_finite, sub_self, abs_zero]
    positivity
  · exact abs_nearest_sub_le_of_pos hq h

end Number

/-! ### Differences and quotients -/

/-- A rounding whose finite results are off by half a unit at most. -/
def Rounding.Close (r : Rounding) : Prop :=
  ∀ q : ℚ, (r.fit q).isFinite = true → |(r.fit q).rat - q| ≤ |q| / 2 ^ 53 + 2 ^ (-1075 : Int)

theorem Rounding.exact_close : Rounding.exact.Close := by
  intro q _
  have hsame : (Rounding.exact.fit q).rat = q := rfl
  rw [hsame, sub_self, abs_zero]
  positivity

theorem Rounding.binary64_close : Rounding.binary64.Close := fun _ h => Number.abs_nearest_sub_le h

namespace Number
variable {r : Rounding} {x y : Number}

theorem add_close (close : r.Close) (hx : x.isFinite = true) (hy : y.isFinite = true)
    (h : (add r x y).isFinite = true) :
    |(add r x y).rat - (x.rat + y.rat)| ≤ |x.rat + y.rat| / 2 ^ 53 + 2 ^ (-1075 : Int) := by
  have hnought {z : Number} (hz : z.rat = 0) (hsum : x.rat + y.rat = 0) :
      |z.rat - (x.rat + y.rat)| ≤ |x.rat + y.rat| / 2 ^ 53 + 2 ^ (-1075 : Int) := by
    rw [hz, hsum, sub_self, abs_zero]
    positivity
  by_cases hzero : x = .negativeZero ∧ y = .negativeZero
  · obtain ⟨rfl, rfl⟩ := hzero
    exact hnought rfl (add_zero 0)
  · have hsum : add r x y = if x.rat + y.rat = 0 then finite 0 else r.fit (x.rat + y.rat) := by
      cases x <;> cases y <;> simp_all [add, isFinite]
    rw [hsum] at h ⊢
    split
    · rename_i hsum
      exact hnought rfl hsum
    · rename_i hsum
      rw [if_neg hsum] at h
      exact close _ h

/-- A difference is as close as the rounding. -/
theorem sub_close (close : r.Close) (hx : x.isFinite = true) (hy : y.isFinite = true)
    (h : (sub r x y).isFinite = true) :
    |(sub r x y).rat - (x.rat - y.rat)| ≤ |x.rat - y.rat| / 2 ^ 53 + 2 ^ (-1075 : Int) := by
  have hadd := add_close close hx ((isFinite_neg y).trans hy) h
  rwa [rat_neg, ← sub_eq_add_neg] at hadd

/-- A quotient is as close as the rounding. -/
theorem div_close (close : r.Close) (hx : x.isFinite = true) (hy : y.isFinite = true)
    (hne : y.rat ≠ 0) (h : (div r x y).isFinite = true) :
    |(div r x y).rat - x.rat / y.rat| ≤ |x.rat / y.rat| / 2 ^ 53 + 2 ^ (-1075 : Int) := by
  have hnan (z : Number) (hz : z.isFinite = true) : (z == nan) = false := by
    cases z <;> simp_all [isFinite]
  have hzero : y.isZero = false := by simp [isZero, hne]
  have hdiv : div r x y =
      if x.isZero then zero (x.isNegative != y.isNegative) else r.fit (x.rat / y.rat) := by
    simp only [div, hnan x hx, hnan y hy, hx, hy, hzero, Bool.or_self, Bool.false_eq_true, if_false]
  rw [hdiv] at h ⊢
  split
  · rename_i hnought
    have hrat : x.rat = 0 := by simpa [isZero, hx] using hnought
    have hzero : (zero (x.isNegative != y.isNegative)).rat = 0 := by
      unfold zero
      split <;> rfl
    rw [hzero, hrat, zero_div, sub_self, abs_zero]
    positivity
  · rename_i hnought
    rw [if_neg hnought] at h
    exact close _ h

end Number

end Montage
