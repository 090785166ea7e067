import Montage.Proofs.FiniteNumbers
import Montage.Proofs.NearestError
import Montage.Proofs.ReadNumbers

/-! # Exact arithmetic

Without rounding, the operations on finite numbers are those of the rationals that they denote
(`Number.rat_add_exact` and the lemmas after it).  What stays besides is that numbers are written and
summed up in whole millionths (`Number.rat_roundSix_exact`).
-/
namespace Montage

namespace Number
variable {x y : Number}

/-- Only zero has more than one number. -/
theorem eq_finite_of_rat {q : ℚ} (hx : x.isFinite = true) (h : x.rat = q) (hq : q ≠ 0) :
    x = finite q := by
  cases x with
  | finite p => rw [← h, rat_finite]
  | negativeZero => exact absurd h.symm hq
  | _ => cases hx

theorem rat_zero (negative : Bool) : (zero negative).rat = 0 := by
  cases negative <;> rfl

theorem rat_add_exact (hx : x.isFinite = true) (hy : y.isFinite = true) :
    (add .exact x y).rat = x.rat + y.rat := by
  have hsum (p q : ℚ) : (if p + q = 0 then finite 0 else Rounding.exact.fit (p + q)).rat = p + q := by
    split
    · rename_i h
      exact h.symm
    · rfl
  cases x with
  | finite p => cases y <;> first | exact hsum .. | cases hy
  | negativeZero =>
    cases y with
    | finite q => exact hsum ..
    | negativeZero => exact (add_zero (0 : ℚ)).symm
    | _ => cases hy
  | _ => cases hx

theorem rat_sub_exact (hx : x.isFinite = true) (hy : y.isFinite = true) :
    (sub .exact x y).rat = x.rat - y.rat := by
  rw [sub, rat_add_exact hx ((isFinite_neg y).trans hy), rat_neg, sub_eq_add_neg]

theorem beq_nan_of_isFinite (hx : x.isFinite = true) : (x == nan) = false := by
  cases x <;> simp_all [isFinite]

theorem mul_of_isFinite (r : Rounding) (hx : x.isFinite = true) (hy : y.isFinite = true) :
    mul r x y = if x.isZero || y.isZero then zero (x.isNegative != y.isNegative)
      else r.fit (x.rat * y.rat) := by
  simp only [mul, beq_nan_of_isFinite hx, beq_nan_of_isFinite hy, hx, hy, Bool.or_self,
    Bool.false_eq_true, if_false, Bool.and_self, if_true]

theorem isFinite_mul_exact (hx : x.isFinite = true) (hy : y.isFinite = true) :
    (mul .exact x y).isFinite = true := by
  rw [mul_of_isFinite .exact hx hy]
  split
  · exact isFinite_zero _
  · rfl

theorem rat_mul_exact (hx : x.isFinite = true) (hy : y.isFinite = true) :
    (mul .exact x y).rat = x.rat * y.rat := by
  rw [mul_of_isFinite .exact hx hy]
  split
  · rename_i h
    simp only [isZero, hx, hy, Bool.true_and, Bool.or_eq_true, beq_iff_eq] at h
    rw [rat_zero, mul_eq_zero.mpr h]
  · rfl

theorem rat_div_exact (hx : x.isFinite = true) (hy : y.isFinite = true) (hne : y.rat ≠ 0) :
    (div .exact x y).rat = x.rat / y.rat := by
  have hzero : y.isZero = false := by simp [isZero, hne]
  simp only [div, beq_nan_of_isFinite hx, beq_nan_of_isFinite hy, hx, hy, hzero, Bool.or_self,
    Bool.false_eq_true, if_false]
  split
  · rename_i h
    have hrat : x.rat = 0 := by simpa [isZero, hx] using h
    rw [rat_zero, hrat, zero_div]
  · rfl

theorem isFinite_abs (x : Number) : x.abs.isFinite = x.isFinite := by
  rw [abs]
  split
  · exact isFinite_neg x
  · rfl

theorem rat_abs (x : Number) : x.abs.rat = |x.rat| := by
  cases x with
  | finite q =>
    simp only [abs, isNegative, decide_eq_true_eq]
    split
    · rename_i h
      rw [rat_neg, rat_finite, abs_of_neg h]
    · rename_i h
      rw [rat_finite, abs_of_nonneg (not_lt.mp h)]
  | negativeZero => exact abs_zero.symm
  | infinite negative => cases negative <;> exact abs_zero.symm
  | nan => exact abs_zero.symm

/-- **Numbers are close if they differ by no more than their share of the larger one**, or by no more
than the absolute bound. -/
theorem isClose_exact_iff (hx : x.isFinite = true) (hy : y.isFinite = true) {relative absolute : ℚ}
    (hrelative : 0 ≤ relative) (habsolute : 0 ≤ absolute) :
    isClose .exact x y relative absolute = true ↔
      |x.rat - y.rat| ≤ relative * Max.max |x.rat| |y.rat| ∨ |x.rat - y.rat| ≤ absolute := by
  have hgap : (sub .exact y x).abs.rat = |x.rat - y.rat| := by
    rw [rat_abs, rat_sub_exact hy hx, abs_sub_comm]
  have hgapFinite : (sub .exact y x).abs.isFinite = true := by
    rw [isFinite_abs, isFinite_sub_exact hy hx]
  have hshare (z : Number) (hz : z.isFinite = true) :
      le (sub .exact y x).abs (mul .exact (Rounding.exact.fit relative) z).abs = true ↔
        |x.rat - y.rat| ≤ relative * |z.rat| := by
    have hmul : (mul .exact (Rounding.exact.fit relative) z).rat = relative * z.rat :=
      rat_mul_exact rfl hz
    rw [le_of_isFinite hgapFinite ((isFinite_abs _).trans (isFinite_mul_exact rfl hz)),
      decide_eq_true_eq, hgap, rat_abs, hmul, abs_mul, abs_of_nonneg hrelative]
  have hfixed : le (sub .exact y x).abs (Rounding.exact.fit absolute) = true ↔
      |x.rat - y.rat| ≤ absolute := by
    rw [le_of_isFinite hgapFinite rfl, decide_eq_true_eq, hgap]
    exact Iff.rfl
  have hmax : |x.rat - y.rat| ≤ relative * Max.max |x.rat| |y.rat| ↔
      |x.rat - y.rat| ≤ relative * |x.rat| ∨ |x.rat - y.rat| ≤ relative * |y.rat| := by
    rw [mul_max_of_nonneg _ _ hrelative, le_max_iff]
  unfold isClose
  split
  · rename_i hsame
    rw [same, Bool.and_eq_true] at hsame
    have heq : x.rat = y.rat := le_antisymm (rat_le_of_le hx hy hsame.1) (rat_le_of_le hy hx hsame.2)
    refine iff_of_true rfl (.inr ?_)
    rwa [heq, sub_self, abs_zero]
  · simp only [hx, hy, Bool.not_true, Bool.or_self, Bool.false_eq_true, if_false, Bool.or_eq_true,
      hshare x hx, hshare y hy, hfixed, hmax]
    exact or_congr_left or_comm

theorem rat_foldl_add_exact {xs : List Number} (hx : x.isFinite = true)
    (h : ∀ y ∈ xs, y.isFinite = true) :
    (xs.foldl (add .exact) x).rat = x.rat + (xs.map rat).sum := by
  induction xs generalizing x with
  | nil => exact (add_zero _).symm
  | cons y rest ih =>
    obtain ⟨hy, hrest⟩ := List.forall_mem_cons.mp h
    rw [List.foldl_cons, ih (isFinite_add_exact hx hy) hrest, rat_add_exact hx hy, List.map_cons,
      List.sum_cons, add_assoc]

/-- A finite number is written like the rational that it denotes. -/
theorem sixPlaces_eq (hx : x.isFinite = true) : x.sixPlaces = sixPlacesRat x.rat := by
  cases x with
  | finite q => rfl
  | negativeZero => decide +kernel
  | _ => cases hx

/-- What is rounded to whole millionths is what is written. -/
theorem rat_roundSix_exact (hx : x.isFinite = true) : (roundSix .exact x).rat = x.written := by
  cases x with
  | finite q =>
    have hmagnitude : mkRat (millionths q) 1000000 = (millionths q : ℚ) / 1000000 :=
      Rat.mkRat_eq_div _ _
    simp only [roundSix, hmagnitude, written, rat_finite]
    split
    · rename_i h
      rw [rat_zero, h, neg_zero]
      exact (ite_self (0 : ℚ)).symm
    · rfl
  | negativeZero => decide +kernel
  | _ => cases hx

end Number

/-- A compiler that does not round. -/
def Sample.unrounded : Compiler := ⟨.standard, none, .exact⟩

end Montage
