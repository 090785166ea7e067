import Montage.Number.Basic
import Montage.Number.HalfEven

/-! # The nearest double

A double denotes `m * 2 ^ e` with `m < 2 ^ 53` and `e ≥ -1074`.  `Binary64.fit` takes an
exact rational to the nearest such value: the exponent is chosen so that the
significand has 53 bits (fewer near zero), and the significand is rounded half to
even.  What reaches `2 ^ 1024` is infinite, and what rounds to nothing is a zero of the
sign of the rational.

A decimal is read the same way (`ofDecimal`), after the two cases have been split off in
which its exponent alone decides; these bounds keep the rational small.

Powers are written with `Nat.pow`, the function itself, so that a definition here means the
same whatever a later module declares about `^`.
-/
namespace Montage

namespace Number

/-- `n / d` lies in `[2 ^ e, 2 ^ (e + 1))` for this `e`; both are positive. -/
def binaryExponent (n d : Nat) : Int :=
  let guess : Int := (n.log2 : Int) - d.log2
  let reached := if guess ≥ 0 then d * Nat.pow 2 guess.toNat ≤ n else d ≤ n * Nat.pow 2 (-guess).toNat
  if reached then guess else guess - 1

/-- The nearest multiple of `2 ^ e` to `n / d`, counted in multiples. -/
def significand (n d : Nat) (e : Int) : Nat :=
  if e ≥ 0 then halfEven n (d * Nat.pow 2 e.toNat) else halfEven (n * Nat.pow 2 (-e).toNat) d

/-- The double nearest to a positive quotient, as a magnitude; `none` beyond the largest. -/
def nearestMagnitude (n d : Nat) : Option Rat :=
  let e := Max.max (binaryExponent n d - 52) (-1074)
  let m := significand n d e
  let q : Rat := if e ≥ 0 then ((m * Nat.pow 2 e.toNat : Nat) : Rat) else mkRat m (Nat.pow 2 (-e).toNat)
  if q < (Nat.pow 2 1024 : Rat) then some q else none

/-- The double nearest to a rational. -/
def nearest (q : Rat) : Number :=
  if q = 0 then finite 0
  else
    let negative := decide (q < 0)
    match nearestMagnitude q.num.natAbs q.den with
    | none => infinite negative
    | some a => if a = 0 then zero negative else finite (if negative then -a else a)

end Number

/-- Machine arithmetic: every result is the nearest double. -/
def Rounding.binary64 : Rounding := ⟨Number.nearest⟩

namespace Number

/-- Count of decimal digits of a natural number; zero has one. -/
def digitCount (n : Nat) : Nat := (Nat.toDigits 10 n).length

/-- The double nearest to `± mantissa * 10 ^ exponent`. -/
def ofDecimal (negative : Bool) (mantissa : Nat) (exponent : Int) : Number :=
  if mantissa = 0 then zero negative
  else
    let top := exponent + digitCount mantissa
    if top > 400 then infinite negative
    else if top < -400 then zero negative
    else
      let q : Rat :=
        if exponent ≥ 0 then ((mantissa * Nat.pow 10 exponent.toNat : Nat) : Rat)
        else mkRat mantissa (Nat.pow 10 (-exponent).toNat)
      nearest (if negative then -q else q)

/-- The double nearest to an integer; `none` when it is too large for every double. -/
def ofInt? (n : Int) : Option Number :=
  match nearest n with
  | infinite _ => none
  | x => some x

/-- The integer part, cut towards zero. -/
def truncate (q : Rat) : Int := if q < 0 then -(-q).floor else q.floor

end Number
end Montage
