/-! # Halves of pairs

A character beyond the first 65536 code points has two units in UTF-16, a high and a low
half, which together are a **pair**.  The halves have code points of their own but are no
characters; half of a pair that stands alone is not part of any text.
-/
namespace Montage.Text

/-- The first half of a pair. -/
def isHighHalf (n : Nat) : Bool := 0xd800 ≤ n && n ≤ 0xdbff

/-- The second half of a pair. -/
def isLowHalf (n : Nat) : Bool := 0xdc00 ≤ n && n ≤ 0xdfff

/-- Half of a pair. -/
def isHalf (n : Nat) : Bool := isHighHalf n || isLowHalf n

/-- The code point of a pair. -/
def joinHalves (high low : Nat) : Nat := (high - 0xd800) * 0x400 + (low - 0xdc00) + 0x10000

/-- The halves of a code point beyond the first 65536. -/
def splitIntoHalves (n : Nat) : Nat × Nat :=
  ((n - 0x10000) / 0x400 + 0xd800, (n - 0x10000) % 0x400 + 0xdc00)

/-- A half of the same pair for the other place. -/
def otherHalf (n : Nat) : Nat := if isHighHalf n then n + 0x400 else n - 0x400

/-- A code point beyond the first 65536 is the pair of its halves. -/
theorem joinHalves_splitIntoHalves {n : Nat} (h : 0x10000 ≤ n) :
    joinHalves (splitIntoHalves n).1 (splitIntoHalves n).2 = n := by
  simp [joinHalves, splitIntoHalves, Nat.div_add_mod', Nat.sub_add_cancel h]

/-- Halves are those of the code point of their pair. -/
theorem splitIntoHalves_joinHalves (high low : Nat) (h : low < 0x400) :
    splitIntoHalves (joinHalves (high + 0xd800) (low + 0xdc00)) =
      (high + 0xd800, low + 0xdc00) := by
  have hq : (high * 0x400 + low) / 0x400 = high := by omega
  have hr : (high * 0x400 + low) % 0x400 = low := by omega
  simp [joinHalves, splitIntoHalves, hq, hr]

end Montage.Text
