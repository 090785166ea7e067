/-! # Rounding a quotient to the nearest integer

Every number that this library writes with a fixed count of places, and every
number that it fits into a machine word, is a quotient rounded to the nearest
integer.  The one rule used is **half to even**: the nearest integer wins, and of
two that are equally near the even one.

`halfEven` is that rule on natural numbers.  `halfEven_mul` says that it leaves
exact quotients alone, `two_mul_halfEven_le` and `le_two_mul_halfEven` that the
result is never further than half a unit from the quotient.
-/
namespace Montage.Number

/-- The integer nearest to `n / d`; a tie goes to the even neighbour. -/
def halfEven (n d : Nat) : Nat :=
  if 2 * (n % d) < d then n / d
  else if d < 2 * (n % d) then n / d + 1
  else n / d + (n / d) % 2

theorem halfEven_mul (n : Nat) {d : Nat} (hd : 0 < d) : halfEven (n * d) d = n := by
  simp [halfEven, Nat.mul_mod_left, Nat.mul_div_cancel n hd, hd]

/-- The result exceeds the quotient by at most half a unit. -/
theorem two_mul_halfEven_le (n : Nat) {d : Nat} (hd : 0 < d) :
    2 * (halfEven n d * d) ≤ 2 * n + d := by
  have h := Nat.div_add_mod n d
  have hlt := Nat.mod_lt n hd
  have hm : n / d * d = d * (n / d) := Nat.mul_comm _ _
  unfold halfEven
  split
  · omega
  · split
    · rw [Nat.add_mul]; omega
    · have h2 := Nat.mod_lt (n / d) (show 0 < 2 by decide)
      rcases Nat.lt_or_ge ((n / d) % 2) 1 with h0 | h1
      · have : (n / d) % 2 = 0 := by omega
        rw [this, Nat.add_zero]; omega
      · have : (n / d) % 2 = 1 := by omega
        rw [this, Nat.add_mul]; omega

/-- The result falls short of the quotient by at most half a unit. -/
theorem le_two_mul_halfEven (n : Nat) {d : Nat} (hd : 0 < d) :
    2 * n ≤ 2 * (halfEven n d * d) + d := by
  have h := Nat.div_add_mod n d
  have hlt := Nat.mod_lt n hd
  have hm : n / d * d = d * (n / d) := Nat.mul_comm _ _
  unfold halfEven
  split
  · omega
  · split
    · rw [Nat.add_mul]; omega
    · have h2 := Nat.mod_lt (n / d) (show 0 < 2 by decide)
      rcases Nat.lt_or_ge ((n / d) % 2) 1 with h0 | h1
      · have : (n / d) % 2 = 0 := by omega
        rw [this, Nat.add_zero]; omega
      · have : (n / d) % 2 = 1 := by omega
        rw [this, Nat.add_mul]; omega

end Montage.Number
