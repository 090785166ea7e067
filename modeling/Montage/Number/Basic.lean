/-! # Numbers of a timeline

Lengths, speeds, volumes and filter values are numbers that may also be infinite or
not a number at all, because a request can say so.  A `Number` is therefore one of
four things; a finite one is held as the **exact rational** that it denotes, with a
zero of negative sign kept apart because it is written differently.

Arithmetic comes in two parts.  The operations (`add`, `sub`, `mul`, `div`) work on
exact rationals and hand their result to a **`Rounding`**, which says what can be
held.  The same program can so be read in machine arithmetic, where the rounding
picks the nearest representable value, and in exact arithmetic, where
`Rounding.exact` keeps every result.
-/
namespace Montage

/-- A number as a request can give it. -/
inductive Number where
  /-- The rational itself; zero here has positive sign. -/
  | finite (value : Rat)
  | negativeZero
  | infinite (negative : Bool)
  | nan
  deriving DecidableEq, Repr, Inhabited

/-- How the exact result of an operation is fitted into the numbers that are held. -/
structure Rounding where
  fit : Rat → Number

/-- Exact arithmetic: every result is kept as it is. -/
def Rounding.exact : Rounding := ⟨.finite⟩

namespace Number

instance : OfNat Number n := ⟨.finite n⟩

/-- The rational denoted by a finite number, and zero for the others. -/
def rat : Number → Rat
  | finite q => q
  | _ => 0

/-- Neither infinite nor undefined. -/
def isFinite : Number → Bool
  | finite _ | negativeZero => true
  | _ => false

def isNegative : Number → Bool
  | finite q => decide (q < 0)
  | negativeZero => true
  | infinite n => n
  | nan => false

def isZero (x : Number) : Bool := x.isFinite && x.rat == 0

/-- `x < y`; false as soon as one of them is undefined. -/
def lt : Number → Number → Bool
  | nan, _ | _, nan => false
  | infinite n, infinite m => n && !m
  | infinite n, _ => n
  | _, infinite m => !m
  | x, y => decide (x.rat < y.rat)

/-- `x ≤ y`; false as soon as one of them is undefined. -/
def le : Number → Number → Bool
  | nan, _ | _, nan => false
  | infinite n, infinite m => n || !m
  | infinite n, _ => n
  | _, infinite m => !m
  | x, y => decide (x.rat ≤ y.rat)

/-- Equality of values: the zeros are equal, and an undefined number equals nothing. -/
def same (x y : Number) : Bool := le x y && le y x

def neg : Number → Number
  | finite q => if q = 0 then negativeZero else finite (-q)
  | negativeZero => finite 0
  | infinite n => infinite !n
  | nan => nan

def abs (x : Number) : Number := if x.isNegative then x.neg else x

/-- A zero of the given sign. -/
def zero (negative : Bool) : Number := if negative then negativeZero else finite 0

def add (r : Rounding) : Number → Number → Number
  | nan, _ | _, nan => nan
  | infinite n, infinite m => if n == m then infinite n else nan
  | infinite n, _ => infinite n
  | _, infinite m => infinite m
  | negativeZero, negativeZero => negativeZero
  | x, y => if x.rat + y.rat = 0 then finite 0 else r.fit (x.rat + y.rat)

def sub (r : Rounding) (x y : Number) : Number := add r x y.neg

def mul (r : Rounding) (x y : Number) : Number :=
  let negative := x.isNegative != y.isNegative
  if x == nan || y == nan then nan
  else if x.isFinite && y.isFinite then
    if x.isZero || y.isZero then zero negative else r.fit (x.rat * y.rat)
  else if x.isZero || y.isZero then nan
  else infinite negative

def div (r : Rounding) (x y : Number) : Number :=
  let negative := x.isNegative != y.isNegative
  if x == nan || y == nan then nan
  else match x.isFinite, y.isFinite with
    | false, false => nan
    | false, true => infinite negative
    | true, false => zero negative
    | true, true =>
      if y.isZero then (if x.isZero then nan else infinite negative)
      else if x.isZero then zero negative
      else r.fit (x.rat / y.rat)

/-- The smaller of the two; the first stays unless the second is certainly smaller. -/
def min (x y : Number) : Number := if lt y x then y else x

/-- The larger of the two; the first stays unless the second is certainly larger. -/
def max (x y : Number) : Number := if lt x y then y else x

/-- Whether two numbers agree up to the share `relative` of the larger one, or up to
`absolute`; an infinite number agrees with itself only. -/
def isClose (r : Rounding) (x y : Number) (relative absolute : Rat) : Bool :=
  if same x y then true
  else if !x.isFinite || !y.isFinite then false
  else
    let gap := (sub r y x).abs
    le gap (mul r (r.fit relative) y).abs || le gap (mul r (r.fit relative) x).abs ||
      le gap (r.fit absolute)

@[simp] theorem rat_finite (q : Rat) : (finite q).rat = q := rfl

@[simp] theorem isFinite_finite (q : Rat) : (finite q).isFinite = true := rfl

@[simp] theorem lt_finite (p q : Rat) : lt (finite p) (finite q) = decide (p < q) := rfl

@[simp] theorem le_finite (p q : Rat) : le (finite p) (finite q) = decide (p ≤ q) := rfl

end Number
end Montage
