import Montage.Text.Half
import Montage.Text.Utf8

/-! # Encodings of JSON text

The bytes of a JSON text are UTF-8, UTF-16 or UTF-32, the latter two in either order of
bytes.  A mark at the beginning tells which; without a mark the zeros among the first bytes
do, because a JSON text begins with two characters of ASCII (`detect`).

`decodeBytes?` gives the code points of bytes if they are well-formed in their encoding.  Half
of a pair may stand alone in each encoding; only in UTF-16 two halves make a pair.
-/
namespace Montage.Json

open Montage.Text

inductive ByteOrder where
  | big
  | little
  deriving DecidableEq, Repr

inductive Encoding where
  | utf8
  | utf16 (order : ByteOrder)
  | utf32 (order : ByteOrder)
  deriving DecidableEq, Repr

/-- The encoding that zeros among the first bytes tell. -/
def guess : List UInt8 → Encoding
  | a :: b :: c :: d :: _ =>
    if a = 0 then (if b = 0 then .utf32 .big else .utf16 .big)
    else if b = 0 then (if c = 0 ∧ d = 0 then .utf32 .little else .utf16 .little)
    else .utf8
  | [a, b] => if a = 0 then .utf16 .big else if b = 0 then .utf16 .little else .utf8
  | _ => .utf8

/-- The encoding of bytes, and the bytes after the mark. -/
def detect : List UInt8 → Encoding × List UInt8
  | 0x00 :: 0x00 :: 0xfe :: 0xff :: rest => (.utf32 .big, rest)
  | 0xff :: 0xfe :: 0x00 :: 0x00 :: rest => (.utf32 .little, rest)
  | 0xfe :: 0xff :: rest => (.utf16 .big, rest)
  | 0xff :: 0xfe :: rest => (.utf16 .little, rest)
  | 0xef :: 0xbb :: 0xbf :: rest => (.utf8, rest)
  | bytes => (guess bytes, bytes)

/-- The number that bytes make up. -/
def ByteOrder.value (o : ByteOrder) (bytes : List UInt8) : Nat :=
  let inOrder := match o with
    | .big => bytes
    | .little => bytes.reverse
  inOrder.foldl (fun n b => 256 * n + b.toNat) 0

/-- Pairs of bytes as numbers; no byte may be left over. -/
def pairs? (o : ByteOrder) : List UInt8 → Option (List Nat)
  | [] => some []
  | a :: b :: rest => (pairs? o rest).map (o.value [a, b] :: ·)
  | _ => none

/-- Groups of four bytes as numbers; no byte may be left over. -/
def quads? (o : ByteOrder) : List UInt8 → Option (List Nat)
  | [] => some []
  | a :: b :: c :: d :: rest => (quads? o rest).map (o.value [a, b, c, d] :: ·)
  | _ => none

/-- The code points of the units of UTF-16. -/
def codesOfUnits : List Nat → List Nat
  | [] => []
  | [n] => [n]
  | high :: low :: rest =>
    if isHighHalf high && isLowHalf low then joinHalves high low :: codesOfUnits rest
    else high :: codesOfUnits (low :: rest)
  termination_by units => units.length

/-- Code points, unless one is beyond the last. -/
def checkedCodes? (codes : List Nat) : Option (List Nat) :=
  if codes.all (· ≤ 0x10ffff) then some codes else none

/-- Bounds of the second byte and number of bytes after the first, for UTF-8 in which halves
of pairs may stand. -/
def sequenceWithHalves (b : UInt8) : Option (UInt8 × UInt8 × Nat) :=
  if b = 0xed then some (0x80, 0xbf, 2) else sequenceAfter b

/-- Takes a byte of UTF-8; the code points that are complete stand in reverse. -/
def takeByte (seen : List Nat × Utf8State) (b : UInt8) : Option (List Nat × Utf8State) :=
  match seen with
  | (done, .start) =>
    if b < 0x80 then some (b.toNat :: done, .start)
    else (sequenceWithHalves b).map fun (low, high, further) =>
      (done, .inside (leadValue b further) low high further)
  | (done, .inside value low high missing) =>
    if low ≤ b ∧ b ≤ high then
      let value := value * 0x40 + b.toNat % 0x40
      some (if missing ≤ 1 then (value :: done, .start)
        else (done, .inside value 0x80 0xbf (missing - 1)))
    else none

/-- The code points of bytes of UTF-8. -/
def utf8Codes? (bytes : List UInt8) : Option (List Nat) :=
  match bytes.foldlM takeByte ([], .start) with
  | some (done, .start) => some done.reverse
  | _ => none

/-- The code points that bytes write. -/
def decodeBytes? (bytes : List UInt8) : Option (List Nat) :=
  match detect bytes with
  | (.utf8, bytes) => utf8Codes? bytes
  | (.utf16 o, bytes) => (pairs? o bytes).map codesOfUnits
  | (.utf32 o, bytes) => (quads? o bytes).bind checkedCodes?

end Montage.Json
