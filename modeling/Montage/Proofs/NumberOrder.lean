import Montage.Number.Binary64
import Mathlib.Data.Rat.Defs
import Mathlib.Algebra.Order.Ring.Rat
import Mathlib.Tactic.Linarith

/-! # Numbers in order

What readings of a clock need: the order of numbers is transitive where it holds, on finite numbers it
is that of the rationals that they denote (`Number.le_of_isFinite`), and the time that has passed
between two readings in order is not positive when it is counted backwards.  The last of these
depends on the rounding; machine arithmetic keeps the sign of what it rounds.
-/
namespace Montage

namespace Number

theorem le_trans {x y z : Number} (h : le x y = true) (h' : le y z = true) : le x z = true := by
  cases x <;> cases y <;> cases z <;> grind [le, rat]

/-- A number that is ordered at all is ordered with itself. -/
theorem le_self_of_le {x y : Number} (h : le x y = true) : le y y = true := by
  cases x <;> cases y <;> simp_all [le]

theorem lt_imp_le {x y : Number} (h : lt x y = true) : le x y = true := by
  cases x <;> cases y <;> grind [le, lt, rat]

theorem lt_of_le_lt {x y z : Number} (h : le x y = true) (h' : lt y z = true) : lt x z = true := by
  cases x <;> cases y <;> cases z <;> grind [le, lt, rat]

theorem not_le_of_lt {x y z : Number} (h : lt x y = true) (h' : le z x = true) :
    le y z = false := by
  cases x <;> cases y <;> cases z <;> grind [le, lt, rat]

section Finite
variable {x y : Number}

theorem le_of_isFinite (hx : x.isFinite = true) (hy : y.isFinite = true) :
    le x y = decide (x.rat ≤ y.rat) := by
  cases x <;> cases y <;> simp_all [isFinite, le]

theorem lt_of_isFinite (hx : x.isFinite = true) (hy : y.isFinite = true) :
    lt x y = decide (x.rat < y.rat) := by
  cases x <;> cases y <;> simp_all [isFinite, lt]

theorem rat_le_of_le (hx : x.isFinite = true) (hy : y.isFinite = true) (h : le x y = true) :
    x.rat ≤ y.rat :=
  of_decide_eq_true (le_of_isFinite hx hy ▸ h)

end Finite

end Number

/-- Rounding turns nothing that is not positive into something that is. -/
def Rounding.KeepsSign (r : Rounding) : Prop :=
  ∀ q : Rat, q ≤ 0 → Number.le (r.fit q) (.finite 0) = true

theorem Rounding.exact_keepsSign : Rounding.exact.KeepsSign := fun q hq => by
  simpa [Rounding.exact] using hq

theorem Number.nearestMagnitude_nonneg {n d : Nat} {a : Rat}
    (h : Number.nearestMagnitude n d = some a) : 0 ≤ a := by
  have hshare (m k : Nat) : (0 : Rat) ≤ mkRat m k := by
    rw [Rat.mkRat_eq_div]
    exact div_nonneg (by exact_mod_cast Nat.zero_le m) (Nat.cast_nonneg k)
  unfold nearestMagnitude at h
  dsimp only at h
  split at h <;> split at h <;> first | cases h; done | obtain rfl := Option.some.inj h
  · exact Nat.cast_nonneg _
  · exact hshare _ _

theorem Rounding.binary64_keepsSign : Rounding.binary64.KeepsSign := by
  intro q hq
  change Number.le (Number.nearest q) (.finite 0) = true
  unfold Number.nearest
  split
  · rfl
  · rename_i hzero
    have hnegative : q < 0 := lt_of_le_of_ne hq hzero
    simp only [hnegative, decide_true, if_true]
    split
    · rfl
    · rename_i a ha
      split
      · rfl
      · have := Number.nearestMagnitude_nonneg ha
        simpa using this

namespace Number
variable {r : Rounding}

theorem add_le_zero (hr : r.KeepsSign) {x y : Number} (hx : x.isFinite = true)
    (hy : y.isFinite = true) (h : x.rat + y.rat ≤ 0) : le (add r x y) (.finite 0) = true := by
  have hsum : le (if x.rat + y.rat = 0 then .finite 0 else r.fit (x.rat + y.rat)) (.finite 0) =
      true := by
    split
    · rfl
    · exact hr _ h
  cases x <;> cases y <;> first | exact hsum | cases hx; done | cases hy; done | rfl

/-- Between readings in order nothing has passed, counted backwards. -/
theorem sub_le_zero (hr : r.KeepsSign) {x y : Number} (h : le x y = true) :
    sub r x y = .nan ∨ le (sub r x y) (.finite 0) = true := by
  have hneg (q : Rat) : (neg (.finite q)).isFinite = true ∧ (neg (.finite q)).rat = -q := by
    by_cases hq : q = 0 <;> simp [neg, hq, isFinite, rat]
  cases x with
  | nan => exact Or.inl rfl
  | infinite n =>
    cases y with
    | nan => exact Or.inl rfl
    | infinite m => cases n <;> cases m <;> simp_all [sub, neg, add, le]
    | finite q =>
      have hn : n = true := h
      by_cases hq : q = 0 <;> simp [sub, neg, add, le, hn, hq]
    | negativeZero =>
      have hn : n = true := h
      simp [sub, neg, add, le, hn]
  | finite p =>
    cases y with
    | nan => exact Or.inl rfl
    | infinite m =>
      have hm : m = false := by simpa [le] using h
      simp [sub, neg, add, le, hm]
    | finite q =>
      have hpq : p ≤ q := by simpa using h
      refine Or.inr (add_le_zero hr rfl (hneg q).1 ?_)
      rw [(hneg q).2, rat]
      linarith
    | negativeZero =>
      have hp : p ≤ 0 := of_decide_eq_true h
      exact Or.inr (add_le_zero hr rfl rfl (by simpa [neg, rat] using hp))
  | negativeZero =>
    cases y with
    | nan => exact Or.inl rfl
    | infinite m =>
      have hm : m = false := by simpa [le] using h
      simp [sub, neg, add, le, hm]
    | finite q =>
      have hq : 0 ≤ q := of_decide_eq_true h
      refine Or.inr (add_le_zero hr rfl (hneg q).1 ?_)
      have hrat : negativeZero.rat = 0 := rfl
      rw [(hneg q).2, hrat]
      linarith
    | negativeZero => exact Or.inr (add_le_zero hr rfl rfl (by simp [neg, rat]))

end Number
end Montage
