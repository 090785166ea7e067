import Montage.Number.Literal
import Montage.Text.Ascii

/-! # Numeric addresses

A host may be named by its number.  A **short** address is four numbers with points between
them.  A **long** one is eight groups of hexadecimal digits with colons; one run of zero groups
may be left out, the last two groups may be written as a short address, and a zone may follow
behind a percent sign.
-/
namespace Montage.Address

open Montage.Text

/-- A number from 0 to 255 without a nought in front. -/
def isOctet (cs : List Char) : Bool :=
  cs.length ≤ 3 && !cs.isEmpty && cs.all isAsciiFigure && (cs.length == 1 || cs.head? != some '0') &&
    Number.ofDigits (cs.map fun c => c.toNat - 48) ≤ 255

/-- Four numbers with points. -/
def isShort (cs : List Char) : Bool :=
  let parts := cs.splitOn '.'
  parts.length == 4 && parts.all isOctet

/-- Up to four hexadecimal digits. -/
def isGroup (cs : List Char) : Bool := !cs.isEmpty && cs.length ≤ 4 && cs.all isHexDigit

/-- Eight groups, of which one run of empty ones stands for what is missing. -/
def areGroups (parts : List (List Char)) : Bool :=
  let inner := (parts.drop 1).dropLast
  match inner.findIdx? List.isEmpty with
  | none => parts.length == 8 && parts.all isGroup
  | some i =>
    let front := parts.take (i + 1)
    let back := parts.drop (i + 2)
    let front := if front == [[]] then [] else front
    let back := if back == [[]] then [] else back
    front.length + back.length ≤ 7 && front.all isGroup && back.all isGroup

/-- A zone is not empty and has no percent sign; it need not be there. -/
def isZone : List Char → Bool
  | [] => true
  | _ :: zone => !zone.isEmpty && !zone.contains '%'

/-- Groups and perhaps a zone. -/
def isLong (cs : List Char) : Bool :=
  let parts := (cs.takeWhile (· != '%')).splitOn ':'
  let last := parts.getLastD []
  isZone (cs.dropWhile (· != '%')) && parts.length ≥ 3 &&
    (if last.contains '.' then isShort last && areGroups (parts.dropLast ++ [['0'], ['0']])
    else areGroups parts)

end Montage.Address
