/-! # Punycode

Punycode writes any text in ASCII.  The characters of ASCII come first, then a hyphen, then a
number for each other character, in the order of code points: how far one has to go, through
all code points and all places of the text so far, to the place where the character is put in.
A number is written in digits of a base of 36 whose weights adapt to the numbers before
(`threshold`, `adapt`), so that texts of one script stay short.

Reading takes one digit after the other (`Decoding.step`).
-/
namespace Montage.Punycode

/-- First code point that is written as a number. -/
def firstCode : Nat := 0x80

/-- The bias before any number. -/
def firstBias : Nat := 72

/-- A digit of a value below 36. -/
def digit (n : Nat) : Char := Char.ofNat (if n < 26 then 0x61 + n else 0x30 + (n - 26))

/-- Value of a digit. -/
def digit? (c : Char) : Option Nat :=
  if 'a' ≤ c ∧ c ≤ 'z' then some (c.toNat - 0x61)
  else if 'A' ≤ c ∧ c ≤ 'Z' then some (c.toNat - 0x41)
  else if '0' ≤ c ∧ c ≤ '9' then some (c.toNat - 0x30 + 26)
  else none

/-- A digit that was written is read back. -/
theorem digit?_digit {n : Nat} (h : n < 36) : digit? (digit n) = some n := by
  have all : ∀ m ∈ List.range 36, digit? (digit m) = some m := by decide
  exact all n (List.mem_range.mpr h)

/-- A digit below the threshold is the last of its number; `k` grows by 36 from digit to
digit. -/
def threshold (k bias : Nat) : Nat :=
  if k ≤ bias then 1 else if bias + 26 ≤ k then 26 else k - bias

theorem threshold_pos (k bias : Nat) : 1 ≤ threshold k bias := by
  unfold threshold
  split
  · omega
  · split <;> omega

/-- Scales a distance down to a bias; `bias` is what was gathered so far. -/
def scale (delta bias : Nat) : Nat :=
  if 455 < delta then scale (delta / 35) (bias + 36) else bias + 36 * delta / (delta + 38)
termination_by delta

/-- The bias after a number, in a text of so many characters. -/
def adapt (delta count : Nat) (isFirst : Bool) : Nat :=
  let delta := if isFirst then delta / 700 else delta / 2
  scale (delta + delta / count) 0

/-! ### Writing -/

/-- Digits of a number, from the digit at `k` on. -/
def numberDigits (bias k n : Nat) : List Char :=
  let t := threshold k bias
  if n < t then [digit n]
  else digit (t + (n - t) % (36 - t)) :: numberDigits bias (k + 36) ((n - t) / (36 - t))
termination_by n
decreasing_by
  have positive := threshold_pos k bias
  have smaller := Nat.div_le_self (n - threshold k bias) (36 - threshold k bias)
  omega

/-- A text that is being written. -/
structure Encoding where
  written : List Char
  /-- The distance from the last place. -/
  delta : Nat
  bias : Nat
  /-- How many characters were written. -/
  count : Nat
  /-- No number was written. -/
  isFirst : Bool
  deriving DecidableEq, Repr

namespace Encoding

/-- Passes a character of the text while those of one code point are written. -/
def pass (code : Nat) (s : Encoding) (c : Char) : Encoding :=
  if c.toNat < code then { s with delta := s.delta + 1 }
  else if c.toNat = code then
    { written := s.written ++ numberDigits s.bias 36 s.delta
      delta := 0
      bias := adapt s.delta (s.count + 1) s.isFirst
      count := s.count + 1
      isFirst := false }
  else s

/-- Writes the characters of each code point; `next` is the first that was not passed. -/
def writeCodes (cs : List Char) (next : Nat) : List Nat → Encoding → Encoding
  | [], s => s
  | code :: rest, s =>
    let s := { s with delta := s.delta + (code - next) * (s.count + 1) }
    let s := cs.foldl (pass code) s
    writeCodes cs (code + 1) rest { s with delta := s.delta + 1 }

end Encoding

/-- The text in ASCII. -/
def encode (cs : List Char) : List Char :=
  let basic := cs.filter fun c => c.toNat < firstCode
  let codes := (cs.map Char.toNat).filter fun n => firstCode ≤ n
  let codes := (codes.mergeSort fun a b => decide (a ≤ b)).eraseDups
  let encoding := Encoding.writeCodes cs firstCode codes ⟨[], 0, firstBias, basic.length, true⟩
  basic ++ (if basic.isEmpty then [] else ['-']) ++ encoding.written

/-! ### Reading -/

/-- A text that is being read. -/
structure Decoding where
  text : List Char
  /-- Code point of the last character that was put in. -/
  code : Nat
  /-- The place behind it. -/
  place : Nat
  bias : Nat
  /-- No number was read. -/
  isFirst : Bool
  /-- Value of the digits of the current number, and the weight of the next one. -/
  value : Nat
  weight : Nat
  k : Nat
  deriving DecidableEq, Repr

namespace Decoding

/-- Nothing but the characters of ASCII was read. -/
def begin (basic : List Char) : Decoding := ⟨basic, firstCode, 0, firstBias, true, 0, 1, 36⟩

/-- Puts in the character at a distance, unless there is none of that code point. -/
def insert? (s : Decoding) (delta : Nat) : Option Decoding :=
  let count := s.text.length + 1
  let code := s.code + (s.place + delta) / count
  let place := (s.place + delta) % count
  if code.isValidChar then
    some
      { text := s.text.take place ++ Char.ofNat code :: s.text.drop place
        code
        place := place + 1
        bias := adapt delta count s.isFirst
        isFirst := false
        value := 0, weight := 1, k := 36 }
  else none

/-- Takes a digit. -/
def step (s : Decoding) (c : Char) : Option Decoding :=
  match digit? c with
  | none => none
  | some d =>
    let t := threshold s.k s.bias
    let value := s.value + d * s.weight
    if d < t then s.insert? value
    else some { s with value, weight := s.weight * (36 - t), k := s.k + 36 }

/-- No number has begun. -/
def isComplete (s : Decoding) : Bool := s.k == 36

end Decoding

/-- The text that is written in ASCII. -/
def decode? (cs : List Char) : Option (List Char) :=
  let (basic, digits) := match cs.reverse.span (· != '-') with
    | (_, []) => ([], cs)
    | (digits, _ :: basic) => (basic.reverse, digits.reverse)
  ((digits.foldlM Decoding.step (Decoding.begin basic)).filter Decoding.isComplete).map
    Decoding.text

end Montage.Punycode
