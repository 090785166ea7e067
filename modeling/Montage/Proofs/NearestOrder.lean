import Montage.Proofs.NumberOrder
import Mathlib.Algebra.Order.Field.Power
import Mathlib.Algebra.Order.Floor.Semiring
import Mathlib.Tactic.FieldSimp
import Mathlib.Tactic.Positivity
import Mathlib.Tactic.Ring

/-! # Rounding keeps the order

A larger rational has no smaller double.  With one unit the reason is that rounding half to even
depends on the quotient alone and never crosses another quotient: two results could only be in the
wrong order if both quotients were the same tie (`halfEven_mono`).  With two units the larger one
belongs to the larger quotient, and a power of two between the quotients separates their results
(`nearestMagnitude_mono`).

What progress is computed with needs no more of a rounding than this and the values of three small
numbers (`Rounding.Orderly`).
-/
namespace Montage

/-! ### Half to even -/

namespace Number

theorem halfEven_of_tie {n d k : Nat} (hd : 0 < d) (h : 2 * n = (2 * k + 1) * d) :
    halfEven n d = k + k % 2 := by
  have hdiv : n / d = k := by
    refine Nat.div_eq_of_lt_le ?_ ?_ <;> nlinarith
  have hmod : 2 * (n % d) = d := by
    have := Nat.div_add_mod n d
    rw [hdiv] at this
    nlinarith
  rw [halfEven, if_neg (by omega), if_neg (by omega), hdiv]

/-- Of two quotients in order the results are in order. -/
theorem halfEven_mono {n₁ d₁ n₂ d₂ : Nat} (h₁ : 0 < d₁) (h₂ : 0 < d₂)
    (h : n₁ * d₂ ≤ n₂ * d₁) : halfEven n₁ d₁ ≤ halfEven n₂ d₂ := by
  by_contra hlt
  have hlt : halfEven n₂ d₂ + 1 ≤ halfEven n₁ d₁ := Nat.not_le.mp hlt
  have hlow := two_mul_halfEven_le n₁ h₁
  have hhigh := le_two_mul_halfEven n₂ h₂
  generalize hk : halfEven n₂ d₂ = k at hlt hhigh
  have hbelow : (2 * k + 1) * d₁ ≤ 2 * n₁ := by nlinarith [Nat.mul_le_mul_right d₁ hlt]
  have habove : 2 * n₂ ≤ (2 * k + 1) * d₂ := by nlinarith
  -- both quotients are the tie between `k` and the next number
  have htie₁ : 2 * n₁ = (2 * k + 1) * d₁ := by
    refine Nat.le_antisymm (Nat.le_of_mul_le_mul_right ?_ h₂) hbelow
    calc 2 * n₁ * d₂ = 2 * (n₁ * d₂) := by ring
      _ ≤ 2 * (n₂ * d₁) := Nat.mul_le_mul_left 2 h
      _ = 2 * n₂ * d₁ := by ring
      _ ≤ (2 * k + 1) * d₂ * d₁ := Nat.mul_le_mul_right d₁ habove
      _ = (2 * k + 1) * d₁ * d₂ := by ring
  have htie₂ : 2 * n₂ = (2 * k + 1) * d₂ := by
    refine Nat.le_antisymm habove (Nat.le_of_mul_le_mul_right ?_ h₁)
    calc (2 * k + 1) * d₂ * d₁ = 2 * n₁ * d₂ := by rw [htie₁]; ring
      _ = 2 * (n₁ * d₂) := by ring
      _ ≤ 2 * (n₂ * d₁) := Nat.mul_le_mul_left 2 h
      _ = 2 * n₂ * d₁ := by ring
  have := halfEven_of_tie h₁ htie₁
  have := halfEven_of_tie h₂ htie₂
  omega

/-- The result is off by half a unit at most. -/
theorem abs_halfEven_sub_le (n : Nat) {d : Nat} (hd : 0 < d) :
    |(halfEven n d : ℚ) - n / d| ≤ 1 / 2 := by
  have hpos : (0 : ℚ) < d := by exact_mod_cast hd
  have hup : 2 * ((halfEven n d : ℚ) * d) ≤ 2 * n + d := by exact_mod_cast two_mul_halfEven_le n hd
  have hlow : 2 * (n : ℚ) ≤ 2 * (halfEven n d * d) + d := by exact_mod_cast le_two_mul_halfEven n hd
  rw [abs_le]
  constructor
  · have hle : (n : ℚ) / d ≤ halfEven n d + 1 / 2 := (div_le_iff₀ hpos).mpr (by linarith)
    linarith
  · have hle : (halfEven n d : ℚ) - 1 / 2 ≤ n / d := (le_div_iff₀ hpos).mpr (by linarith)
    linarith

/-! ### The unit -/

theorem two_zpow_eq (e : Int) : (2 : ℚ) ^ e = (2 ^ e.toNat : Nat) / (2 ^ (-e).toNat : Nat) := by
  rcases le_total 0 e with h | h
  · lift e to Nat using h
    simp
  · obtain ⟨m, rfl⟩ : ∃ m : Nat, e = -(m : Int) := ⟨(-e).toNat, by omega⟩
    simp

/-- The significand is that of the quotient with the unit put into it. -/
theorem significand_eq (n d : Nat) (e : Int) :
    significand n d e = halfEven (n * 2 ^ (-e).toNat) (d * 2 ^ e.toNat) := by
  unfold significand
  split
  · rename_i h
    simp [Int.toNat_of_nonpos (show -e ≤ 0 by omega)]
  · rename_i h
    simp [Int.toNat_of_nonpos (show e ≤ 0 by omega)]

theorem significand_mono {n₁ d₁ n₂ d₂ : Nat} (h₁ : 0 < d₁) (h₂ : 0 < d₂) (e : Int)
    (h : (n₁ : ℚ) / d₁ ≤ n₂ / d₂) : significand n₁ d₁ e ≤ significand n₂ d₂ e := by
  rw [significand_eq, significand_eq]
  refine halfEven_mono (by positivity) (by positivity) ?_
  rw [div_le_div_iff₀ (by positivity) (by positivity)] at h
  have h : n₁ * d₂ ≤ n₂ * d₁ := by exact_mod_cast h
  calc n₁ * 2 ^ (-e).toNat * (d₂ * 2 ^ e.toNat)
      = n₁ * d₂ * (2 ^ (-e).toNat * 2 ^ e.toNat) := by ring
    _ ≤ n₂ * d₁ * (2 ^ (-e).toNat * 2 ^ e.toNat) := Nat.mul_le_mul_right _ h
    _ = n₂ * 2 ^ (-e).toNat * (d₁ * 2 ^ e.toNat) := by ring

/-- A multiple of the unit is its own significand. -/
theorem significand_unit (k : Nat) (e : Int) :
    significand (k * 2 ^ e.toNat) (2 ^ (-e).toNat) e = k := by
  rw [significand_eq, mul_assoc, mul_comm (2 ^ e.toNat)]
  exact halfEven_mul k (by positivity)

theorem unit_eq (k : Nat) (e : Int) :
    (k : ℚ) * 2 ^ e = ((k * 2 ^ e.toNat : Nat) : ℚ) / ((2 ^ (-e).toNat : Nat) : ℚ) := by
  rw [two_zpow_eq, Nat.cast_mul, mul_div_assoc]

theorem significand_le {n d k : Nat} (hd : 0 < d) {e : Int} (h : (n : ℚ) / d ≤ k * 2 ^ e) :
    significand n d e ≤ k := by
  rw [unit_eq] at h
  exact (significand_mono hd (by positivity) e h).trans_eq (significand_unit k e)

theorem le_significand {n d k : Nat} (hd : 0 < d) {e : Int} (h : (k : ℚ) * 2 ^ e ≤ n / d) :
    k ≤ significand n d e := by
  rw [unit_eq] at h
  exact (significand_unit k e).symm.trans_le (significand_mono (by positivity) hd e h)

/-! ### The exponent -/

/-- Whether a power of two reaches a quotient, told by natural numbers. -/
theorem reached_iff {n d : Nat} (hd : 0 < d) (g : Int) :
    (if g ≥ 0 then d * Nat.pow 2 g.toNat ≤ n else d ≤ n * Nat.pow 2 (-g).toNat) ↔
      (2 : ℚ) ^ g ≤ n / d := by
  rw [two_zpow_eq, div_le_div_iff₀ (by positivity) (by positivity)]
  norm_cast
  split
  · rename_i h
    simp [Int.toNat_of_nonpos (show -g ≤ 0 by omega), mul_comm]
  · rename_i h
    simp [Int.toNat_of_nonpos (show g ≤ 0 by omega)]

/-- The quotient of two numbers is within a factor of two of that of their leading digits. -/
theorem log2_bounds {n d : Nat} (hn : 0 < n) (hd : 0 < d) :
    (2 : ℚ) ^ ((n.log2 : Int) - d.log2 - 1) ≤ n / d ∧
      (n : ℚ) / d < 2 ^ ((n.log2 : Int) - d.log2 + 1) := by
  have hn₁ : (2 : ℚ) ^ n.log2 ≤ n := by exact_mod_cast Nat.log2_self_le hn.ne'
  have hn₂ : (n : ℚ) < 2 ^ (n.log2 + 1) := by exact_mod_cast Nat.lt_log2_self
  have hd₁ : (2 : ℚ) ^ d.log2 ≤ d := by exact_mod_cast Nat.log2_self_le hd.ne'
  have hd₂ : (d : ℚ) < 2 ^ (d.log2 + 1) := by exact_mod_cast Nat.lt_log2_self
  have hpos : (0 : ℚ) < d := by exact_mod_cast hd
  constructor
  · calc (2 : ℚ) ^ ((n.log2 : Int) - d.log2 - 1) = 2 ^ n.log2 / 2 ^ (d.log2 + 1) := by
          rw [show (n.log2 : Int) - d.log2 - 1 = n.log2 - (d.log2 + 1 : Nat) by push_cast; ring,
            zpow_sub₀ two_ne_zero, zpow_natCast, zpow_natCast]
      _ ≤ n / d := div_le_div₀ (Nat.cast_nonneg n) hn₁ hpos hd₂.le
  · calc (n : ℚ) / d < 2 ^ (n.log2 + 1) / 2 ^ d.log2 :=
          div_lt_div₀ hn₂ hd₁ (by positivity) (by positivity)
      _ = 2 ^ ((n.log2 : Int) - d.log2 + 1) := by
          rw [show (n.log2 : Int) - d.log2 + 1 = (n.log2 + 1 : Nat) - d.log2 by push_cast; ring,
            zpow_sub₀ two_ne_zero, zpow_natCast, zpow_natCast]

theorem binaryExponent_of_reached {n d : Nat} (hd : 0 < d)
    (h : (2 : ℚ) ^ ((n.log2 : Int) - d.log2) ≤ n / d) : binaryExponent n d = n.log2 - d.log2 :=
  if_pos ((reached_iff hd _).mpr h)

theorem binaryExponent_of_not_reached {n d : Nat} (hd : 0 < d)
    (h : ¬ (2 : ℚ) ^ ((n.log2 : Int) - d.log2) ≤ n / d) :
    binaryExponent n d = n.log2 - d.log2 - 1 :=
  if_neg ((reached_iff hd _).not.mpr h)

theorem two_zpow_binaryExponent_le {n d : Nat} (hn : 0 < n) (hd : 0 < d) :
    (2 : ℚ) ^ binaryExponent n d ≤ n / d := by
  by_cases h : (2 : ℚ) ^ ((n.log2 : Int) - d.log2) ≤ n / d
  · rwa [binaryExponent_of_reached hd h]
  · rw [binaryExponent_of_not_reached hd h]
    exact (log2_bounds hn hd).1

theorem lt_two_zpow_binaryExponent {n d : Nat} (hn : 0 < n) (hd : 0 < d) :
    (n : ℚ) / d < 2 ^ (binaryExponent n d + 1) := by
  by_cases h : (2 : ℚ) ^ ((n.log2 : Int) - d.log2) ≤ n / d
  · rw [binaryExponent_of_reached hd h]
    exact (log2_bounds hn hd).2
  · rw [binaryExponent_of_not_reached hd h, sub_add_cancel]
    exact not_le.mp h

theorem binaryExponent_mono {n₁ d₁ n₂ d₂ : Nat} (hn₁ : 0 < n₁) (hd₁ : 0 < d₁) (hn₂ : 0 < n₂)
    (hd₂ : 0 < d₂) (h : (n₁ : ℚ) / d₁ ≤ n₂ / d₂) :
    binaryExponent n₁ d₁ ≤ binaryExponent n₂ d₂ := by
  have hlt := (two_zpow_binaryExponent_le hn₁ hd₁).trans_lt
    (h.trans_lt (lt_two_zpow_binaryExponent hn₂ hd₂))
  exact Int.le_of_lt_add_one ((zpow_lt_zpow_iff_right₀ one_lt_two).mp hlt)

/-! ### Magnitudes -/

/-- Exponent of the unit of a quotient. -/
def unitExponent (n d : Nat) : Int := Max.max (binaryExponent n d - 52) (-1074)

/-- The nearest multiple of the unit. -/
def rounded (n d : Nat) : ℚ := significand n d (unitExponent n d) * 2 ^ unitExponent n d

theorem nearestMagnitude_eq (n d : Nat) : nearestMagnitude n d =
    if rounded n d < ((Nat.pow 2 1024 : Nat) : ℚ) then some (rounded n d) else none := by
  have hvalue : (if unitExponent n d ≥ 0 then
      ((significand n d (unitExponent n d) * Nat.pow 2 (unitExponent n d).toNat : Nat) : Rat)
      else mkRat (significand n d (unitExponent n d)) (Nat.pow 2 (-unitExponent n d).toNat)) =
      rounded n d := by
    rw [rounded, two_zpow_eq]
    split
    · rename_i h
      simp [Int.toNat_of_nonpos (show -unitExponent n d ≤ 0 by omega)]
    · rename_i h
      rw [Rat.mkRat_eq_div]
      simp [Int.toNat_of_nonpos (show unitExponent n d ≤ 0 by omega), div_eq_mul_inv]
  exact congrArg (fun q : ℚ => if q < ((Nat.pow 2 1024 : Nat) : ℚ) then some q else none) hvalue

section Mono
variable {n₁ d₁ n₂ d₂ : Nat}

/-- What has the smaller unit stays below a power of two, and the other one reaches it. -/
theorem rounded_mono (hn₁ : 0 < n₁) (hd₁ : 0 < d₁) (hn₂ : 0 < n₂) (hd₂ : 0 < d₂)
    (h : (n₁ : ℚ) / d₁ ≤ n₂ / d₂) : rounded n₁ d₁ ≤ rounded n₂ d₂ := by
  have hexponent := binaryExponent_mono hn₁ hd₁ hn₂ hd₂ h
  have hle : unitExponent n₁ d₁ ≤ unitExponent n₂ d₂ := by
    unfold unitExponent
    omega
  rcases hle.eq_or_lt with heq | hlt
  · rw [rounded, rounded, heq]
    have hsignificand : (significand n₁ d₁ (unitExponent n₂ d₂) : ℚ) ≤
        significand n₂ d₂ (unitExponent n₂ d₂) := by
      exact_mod_cast significand_mono hd₁ hd₂ _ h
    exact mul_le_mul_of_nonneg_right hsignificand (by positivity)
  · have hlow : rounded n₁ d₁ ≤ 2 ^ (unitExponent n₁ d₁ + 53) := by
      have hbelow : (n₁ : ℚ) / d₁ ≤ (2 ^ 53 : Nat) * 2 ^ unitExponent n₁ d₁ := by
        refine (lt_two_zpow_binaryExponent hn₁ hd₁).le.trans ?_
        rw [Nat.cast_pow, Nat.cast_ofNat, ← zpow_natCast, ← zpow_add₀ two_ne_zero]
        refine zpow_le_zpow_right₀ one_le_two ?_
        unfold unitExponent
        omega
      have hsignificand : (significand n₁ d₁ (unitExponent n₁ d₁) : ℚ) ≤ (2 ^ 53 : Nat) := by
        exact_mod_cast significand_le hd₁ hbelow
      rw [rounded, zpow_add₀ two_ne_zero, mul_comm]
      refine mul_le_mul_of_nonneg_left (hsignificand.trans_eq ?_) (by positivity)
      norm_num
    have hhigh : 2 ^ (unitExponent n₂ d₂ + 52) ≤ rounded n₂ d₂ := by
      have hunit : unitExponent n₂ d₂ = binaryExponent n₂ d₂ - 52 := by
        unfold unitExponent at hlt ⊢
        omega
      have habove : ((2 ^ 52 : Nat) : ℚ) * 2 ^ unitExponent n₂ d₂ ≤ n₂ / d₂ := by
        refine le_of_eq_of_le ?_ (two_zpow_binaryExponent_le hn₂ hd₂)
        rw [Nat.cast_pow, Nat.cast_ofNat, ← zpow_natCast, ← zpow_add₀ two_ne_zero, hunit]
        congr 1
        omega
      have hsignificand : ((2 ^ 52 : Nat) : ℚ) ≤ significand n₂ d₂ (unitExponent n₂ d₂) := by
        exact_mod_cast le_significand hd₂ habove
      rw [rounded, zpow_add₀ two_ne_zero, mul_comm]
      refine mul_le_mul_of_nonneg_right (le_of_eq_of_le ?_ hsignificand) (by positivity)
      norm_num
    exact (hlow.trans (zpow_le_zpow_right₀ one_le_two (by omega))).trans hhigh

/-- A larger quotient has no smaller magnitude, where magnitudes beyond all doubles are the largest. -/
theorem nearestMagnitude_mono (hn₁ : 0 < n₁) (hd₁ : 0 < d₁) (hn₂ : 0 < n₂) (hd₂ : 0 < d₂)
    (h : (n₁ : ℚ) / d₁ ≤ n₂ / d₂) {b : ℚ} (hb : nearestMagnitude n₂ d₂ = some b) :
    ∃ a, nearestMagnitude n₁ d₁ = some a ∧ a ≤ b := by
  have hmono := rounded_mono hn₁ hd₁ hn₂ hd₂ h
  rw [nearestMagnitude_eq] at hb ⊢
  split at hb
  · rename_i hsmall
    obtain rfl := Option.some.inj hb
    exact ⟨_, if_pos (hmono.trans_lt hsmall), hmono⟩
  · cases hb

end Mono

/-! ### The nearest double -/

theorem le_neg (x y : Number) : le x.neg y.neg = le y x := by
  cases x <;> cases y <;> grind [le, neg, rat]

theorem nearest_of_pos {q : ℚ} (hq : 0 < q) : nearest q =
    match nearestMagnitude q.num.natAbs q.den with
    | none => infinite false
    | some a => finite a := by
  rw [nearest, if_neg hq.ne']
  simp only [not_lt.mpr hq.le, decide_false, Bool.false_eq_true, if_false]
  cases nearestMagnitude q.num.natAbs q.den with
  | none => rfl
  | some a =>
    dsimp only
    split
    · rename_i ha
      rw [ha]
      rfl
    · rfl

/-- Rounding is the same on both sides of zero. -/
theorem nearest_neg {q : ℚ} (hq : 0 < q) : nearest (-q) = (nearest q).neg := by
  have hneg : -q < 0 := neg_neg_of_pos hq
  rw [nearest_of_pos hq, nearest, if_neg hneg.ne]
  simp only [hneg, decide_true, if_true, Rat.neg_num, Rat.neg_den, Int.natAbs_neg]
  cases nearestMagnitude q.num.natAbs q.den with
  | none => rfl
  | some a => rfl

theorem nearest_mono_of_pos {p q : ℚ} (hp : 0 < p) (h : p ≤ q) :
    le (nearest p) (nearest q) = true := by
  have hq := hp.trans_le h
  have hquotient {x : ℚ} (hx : 0 < x) : ((x.num.natAbs : Nat) : ℚ) / x.den = x := by
    rw [Nat.cast_natAbs, abs_of_pos (Rat.num_pos.mpr hx), Rat.num_div_den]
  have hnum {x : ℚ} (hx : 0 < x) : 0 < x.num.natAbs := Int.natAbs_pos.mpr (Rat.num_pos.mpr hx).ne'
  have hmono {b : ℚ} := nearestMagnitude_mono (hnum hp) p.pos (hnum hq) q.pos
    (by rwa [hquotient hp, hquotient hq]) (b := b)
  rw [nearest_of_pos hp, nearest_of_pos hq]
  cases hb : nearestMagnitude q.num.natAbs q.den with
  | none => cases nearestMagnitude p.num.natAbs p.den <;> rfl
  | some b =>
    obtain ⟨a, ha, hab⟩ := hmono hb
    rw [ha]
    simpa using hab

theorem nearest_nonneg {q : ℚ} (hq : 0 ≤ q) : le (finite 0) (nearest q) = true := by
  rcases hq.eq_or_lt with rfl | hpos
  · rfl
  · rw [nearest_of_pos hpos]
    cases h : nearestMagnitude q.num.natAbs q.den with
    | none => rfl
    | some a => simpa using nearestMagnitude_nonneg h

/-- **The nearest doubles of two rationals are in their order.** -/
theorem nearest_mono {p q : ℚ} (h : p ≤ q) : le (nearest p) (nearest q) = true := by
  rcases lt_or_ge 0 p with hp | hp
  · exact nearest_mono_of_pos hp h
  · rcases lt_or_ge q 0 with hq | hq
    · have hflip := nearest_mono_of_pos (neg_pos.mpr hq) (neg_le_neg h)
      rw [← le_neg, ← nearest_neg (neg_pos.mpr hq), ← nearest_neg (by linarith), neg_neg,
        neg_neg] at hflip
      exact hflip
    · exact le_trans (Rounding.binary64_keepsSign p hp) (nearest_nonneg hq)

end Number

/-- A rounding that keeps the order, and the numbers that shares and percents are compared with. -/
structure Rounding.Orderly (r : Rounding) : Prop where
  mono : ∀ p q : ℚ, p ≤ q → Number.le (r.fit p) (r.fit q) = true
  zero : r.fit 0 = .finite 0
  hundred : r.fit 100 = .finite 100

theorem Rounding.exact_orderly : Rounding.exact.Orderly where
  mono p q h := by simpa [Rounding.exact] using h
  zero := rfl
  hundred := rfl

theorem Rounding.binary64_orderly : Rounding.binary64.Orderly where
  mono _ _ h := Number.nearest_mono h
  zero := rfl
  hundred := by decide +kernel

end Montage
