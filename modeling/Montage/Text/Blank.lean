/-! # Blanks

Two sets of blank characters are in use.  `isSpace` is the White_Space property: it
decides what is cut off around a number.  `isBlank` adds the four separators `1c` to
`1f`: it decides what is cut off around a line of engine output and a listed origin.
`isSpace_imp_isBlank` says that the second set contains the first.
-/
namespace Montage.Text

/-- The White_Space property. -/
def isSpace (c : Char) : Bool :=
  let n := c.toNat
  (9 ≤ n && n ≤ 13) || n == 0x20 || n == 0x85 || n == 0xa0 || n == 0x1680 ||
    (0x2000 ≤ n && n ≤ 0x200a) || n == 0x2028 || n == 0x2029 || n == 0x202f || n == 0x205f ||
    n == 0x3000

/-- White space and the four information separators. -/
def isBlank (c : Char) : Bool :=
  isSpace c || (0x1c ≤ c.toNat && c.toNat ≤ 0x1f)

theorem isSpace_imp_isBlank {c : Char} (h : isSpace c = true) : isBlank c = true := by
  simp [isBlank, h]

/-- Cuts off the characters of a class at the end. -/
def trimEnd (p : Char → Bool) (cs : List Char) : List Char :=
  (cs.reverse.dropWhile p).reverse

/-- Cuts off the characters of a class at both ends. -/
def trim (p : Char → Bool) (cs : List Char) : List Char :=
  trimEnd p (cs.dropWhile p)

/-- A text without blanks around it. -/
def trimBlanks (s : String) : String := String.ofList (trim isBlank s.toList)

end Montage.Text
