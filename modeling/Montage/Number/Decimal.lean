import Montage.Number.Binary64

/-! # Writing numbers in decimal

Two families of number text are used.

* **Shortest text.**  A double is written with the fewest digits that read back as the
  same double, and of those with the digits nearest to it (`shortest`).  What is left to
  say is how digits and exponent are laid out; a `Layout` holds those choices, and there
  are two of them: `Layout.report` for messages and answers, `Layout.stored` for the
  stored form of a timeline.
* **Six places.**  Numbers inside a filter graph have no exponent and at most six
  decimals, without trailing zeros (`sixPlaces`).  The value is rounded half to even
  *as an exact rational*, so equal text means equal multiples of a millionth.
-/
namespace Montage.Number

/-- A positive decimal `digits * 10 ^ exponent`. -/
structure Decimal where
  digits : Nat
  exponent : Int
  deriving DecidableEq, Repr

namespace Decimal

/-- The rational that a decimal denotes. -/
def rat (d : Decimal) : Rat :=
  if d.exponent ≥ 0 then ((d.digits * Nat.pow 10 d.exponent.toNat : Nat) : Rat)
  else mkRat d.digits (Nat.pow 10 (-d.exponent).toNat)

/-- Drops zeros at the end of the digits, at most `fuel` of them. -/
def strip (fuel : Nat) (d : Decimal) : Decimal :=
  match fuel with
  | 0 => d
  | fuel + 1 =>
    if d.digits ≠ 0 ∧ d.digits % 10 = 0 then strip fuel ⟨d.digits / 10, d.exponent + 1⟩ else d

end Decimal

/-- `10 ^ p ≤ q < 10 ^ (p + 1)` for this `p`; the rational is positive. -/
def decimalExponent (q : Rat) : Int :=
  if 1 ≤ q then (digitCount q.floor.toNat : Int) - 1
  else
    let k := digitCount (1 / q).floor.toNat
    if 1 ≤ q * (Nat.pow 10 (k - 1) : Rat) then -((k : Int) - 1) else -(k : Int)

/-- The two neighbours of `q` among the decimals of `n` digits, the nearer one first. -/
def neighbours (q : Rat) (n : Nat) : List Decimal :=
  let e := decimalExponent q - (n : Int) + 1
  let scaled := if e ≥ 0 then q / (Nat.pow 10 e.toNat : Rat) else q * (Nat.pow 10 (-e).toNat : Rat)
  let low := scaled.floor.toNat
  let rest := scaled - (low : Rat)
  if 2 * rest < 1 ∨ (2 * rest = 1 ∧ low % 2 = 0) then [⟨low, e⟩, ⟨low + 1, e⟩]
  else [⟨low + 1, e⟩, ⟨low, e⟩]

/-- The shortest decimal that reads back as the positive double `q`. -/
def shortest (q : Rat) : Decimal :=
  let candidates := (List.range 17).flatMap fun n => neighbours q (n + 1)
  match candidates.find? fun d => nearest d.rat == finite q with
  | some d => d.strip 17
  | none => ((neighbours q 17).head?.getD ⟨0, 0⟩).strip 17

/-- How digits and exponent of a shortest decimal are laid out. -/
structure Layout where
  /-- Least exponent of the leading digit that is written without exponent. -/
  positionalFrom : Int
  /-- From this exponent of the leading digit on an exponent is written. -/
  positionalBelow : Int
  /-- Whether a positive exponent carries a sign. -/
  plusSign : Bool
  /-- Least count of digits of the exponent. -/
  exponentWidth : Nat
  deriving DecidableEq, Repr

/-- Layout of messages and answers: `1e-05`, `0.0001`, `1e+16`. -/
def Layout.report : Layout := ⟨-4, 16, true, 2⟩

/-- Layout of a stored timeline: `1e-6`, `0.00001`, `1e+16`. -/
def Layout.stored : Layout := ⟨-5, 16, true, 1⟩

/-- Zeros in front up to the given width. -/
def padLeft (width : Nat) (s : String) : String :=
  String.ofList (List.replicate (width - s.length) '0') ++ s

/-- Text of a positive decimal; at least one place stands after the point. -/
def Layout.text (l : Layout) (d : Decimal) : String :=
  let ds := (Nat.repr d.digits).toList
  let lead : Int := d.exponent + ds.length - 1
  if l.positionalFrom ≤ lead ∧ lead < l.positionalBelow then
    if d.exponent ≥ 0 then
      String.ofList (ds ++ List.replicate d.exponent.toNat '0') ++ ".0"
    else if lead ≥ 0 then
      String.ofList (ds.take (lead.toNat + 1)) ++ "." ++ String.ofList (ds.drop (lead.toNat + 1))
    else "0." ++ String.ofList (List.replicate (-lead - 1).toNat '0' ++ ds)
  else
    let tail := if ds.length ≤ 1 then "" else "." ++ String.ofList (ds.drop 1)
    let sign := if lead < 0 then "-" else if l.plusSign then "+" else ""
    String.ofList (ds.take 1) ++ tail ++ "e" ++ sign ++ padLeft l.exponentWidth (Nat.repr lead.natAbs)

/-- Shortest text of a number. -/
def render (l : Layout) : Number → String
  | finite q =>
    if q = 0 then "0.0"
    else if q < 0 then "-" ++ l.text (shortest (-q))
    else l.text (shortest q)
  | negativeZero => "-0.0"
  | infinite negative => if negative then "-inf" else "inf"
  | nan => "nan"

/-- Text of a number in messages and answers. -/
def report (x : Number) : String := render .report x

/-- The count of millionths nearest to the magnitude of a rational. -/
def millionths (q : Rat) : Nat := halfEven (q.num.natAbs * 1000000) q.den

/-- Decimals of a count of millionths below one, without zeros at the end. -/
def trimmedPlaces (rest : Nat) : List Char :=
  ((padLeft 6 (Nat.repr rest)).toList.reverse.dropWhile (· == '0')).reverse

/-- Text of a rational with at most six decimals and no exponent. -/
def sixPlacesRat (q : Rat) : String :=
  let n := millionths q
  let whole := Nat.repr (n / 1000000)
  let places := trimmedPlaces (n % 1000000)
  let text := if places = [] then whole else whole ++ "." ++ String.ofList places
  if q < 0 ∧ n ≠ 0 then "-" ++ text else text

/-- Text of a number inside a filter graph: no exponent, no trailing zeros, no negative
zero. -/
def sixPlaces : Number → String
  | finite q => sixPlacesRat q
  | negativeZero => "0"
  | infinite negative => if negative then "-inf" else "inf"
  | nan => "nan"

/-- A number rounded to whole millionths and fitted again. -/
def roundSix (r : Rounding) : Number → Number
  | finite q =>
    let a := mkRat (millionths q) 1000000
    if a = 0 then zero (decide (q < 0)) else r.fit (if q < 0 then -a else a)
  | x => x

end Montage.Number
