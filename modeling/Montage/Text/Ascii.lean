/-! # ASCII

Classes of the characters of ASCII, for texts whose form admits no others, and the values of
hexadecimal digits.
-/
namespace Montage.Text

def isAscii (c : Char) : Bool := c.toNat < 0x80

def isAsciiLetter (c : Char) : Bool := ('a' ≤ c && c ≤ 'z') || ('A' ≤ c && c ≤ 'Z')

def isAsciiFigure (c : Char) : Bool := '0' ≤ c && c ≤ '9'

/-- A letter or a figure. -/
def isAsciiAlphanumeric (c : Char) : Bool := isAsciiLetter c || isAsciiFigure c

/-- A character of ASCII without a visible form; the space has one. -/
def isAsciiControl (c : Char) : Bool := c.toNat < 0x20 || c.toNat == 0x7f

/-- Value of a hexadecimal digit. -/
def hexDigit? (c : Char) : Option Nat :=
  if '0' ≤ c ∧ c ≤ '9' then some (c.toNat - 48)
  else if 'a' ≤ c ∧ c ≤ 'f' then some (c.toNat - 87)
  else if 'A' ≤ c ∧ c ≤ 'F' then some (c.toNat - 55)
  else none

def isHexDigit (c : Char) : Bool := (hexDigit? c).isSome

/-- The hexadecimal digit of a value, as a capital. -/
def hexCapital (n : Nat) : Char := Char.ofNat (if n < 10 then 48 + n else 55 + n)

/-- A digit that was written is read back. -/
theorem hexDigit?_hexCapital {n : Nat} (h : n < 16) : hexDigit? (hexCapital n) = some n := by
  have all : ∀ m ∈ List.range 16, hexDigit? (hexCapital m) = some m := by decide
  exact all n (List.mem_range.mpr h)

end Montage.Text
