import Montage.Number.Binary64

/-! # Splitting a change of tempo

One tempo filter can at most double or halve the tempo.  A greater change is a product of
factors: twos while the rest is above two, halves while it is below a half, and then the
rest itself unless it is as good as one.

Doubling and halving lose nothing, so the rest is always the exact quotient.  The sizes of
numerator and denominator bound the number of steps.
-/
namespace Montage.Tempo

/-- Twos taken out of a speed, and what is left; at most `fuel` of them. -/
def halveDown : Nat → Rat → Nat × Rat
  | 0, q => (0, q)
  | fuel + 1, q =>
    if 2 < q then
      match halveDown fuel (q / 2) with
      | (n, rest) => (n + 1, rest)
    else (0, q)

/-- Halves taken out of a speed, and what is left; at most `fuel` of them. -/
def doubleUp : Nat → Rat → Nat × Rat
  | 0, q => (0, q)
  | fuel + 1, q =>
    if q < 1 / 2 then
      match doubleUp fuel (q * 2) with
      | (n, rest) => (n + 1, rest)
    else (0, q)

/-- The rest as a factor, unless it is as good as one. -/
def lastFactor (r : Rounding) (rest : Number) : List Number :=
  if Number.isClose r rest (.finite 1) (1 / 1000000000) 0 then [] else [rest]

/-- Factors of a positive speed. -/
def ratFactors (r : Rounding) (q : Rat) : List Number :=
  let fuel := q.num.natAbs.log2 + q.den.log2 + 2
  let (twos, rest) := halveDown fuel q
  let (halves, rest) := doubleUp fuel rest
  List.replicate twos (.finite 2) ++ List.replicate halves (.finite (1 / 2)) ++
    lastFactor r (.finite rest)

/-- Factors whose product is the speed, each between a half and two. -/
def factors (r : Rounding) : Number → List Number
  | .finite q => ratFactors r q
  | x => lastFactor r x

end Montage.Tempo
