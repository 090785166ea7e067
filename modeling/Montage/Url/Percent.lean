import Montage.Text.Ascii
import Montage.Text.Utf8

/-! # Percent escapes

Where only some characters may stand, every other character is written as its bytes in UTF-8,
and each byte as a percent sign with two hexadecimal digits (`escaped`).  Which characters
are safe depends on the place.  A percent sign is safe everywhere, so a text is not escaped
twice: the escaped text consists of safe characters and is left alone
(`escaped_eq_self`).

`bytes` undoes the escapes; a percent sign without digits stands for itself.
-/
namespace Montage.Percent

open Montage.Text

/-- The escape of one byte. -/
def ofByte (b : UInt8) : List Char :=
  ['%', hexCapital (b.toNat / 16), hexCapital (b.toNat % 16)]

/-- The escape of one character. -/
def ofChar (c : Char) : List Char := c.toString.toUTF8.toList.flatMap ofByte

/-- A text in which all characters are safe or escaped. -/
def escaped (safe : Char → Bool) (cs : List Char) : List Char :=
  cs.flatMap fun c => if safe c then [c] else ofChar c

theorem escaped_eq_self {safe : Char → Bool} {cs : List Char} (h : ∀ c ∈ cs, safe c) :
    escaped safe cs = cs := by
  induction cs with
  | nil => rfl
  | cons c rest ih =>
    have hc := h c List.mem_cons_self
    have hr := ih fun x hx => h x (List.mem_cons_of_mem c hx)
    simp only [escaped, List.flatMap_cons, hc, ite_true] at hr ⊢
    simp [hr]

theorem escaped_append (safe : Char → Bool) (a b : List Char) :
    escaped safe (a ++ b) = escaped safe a ++ escaped safe b := by
  simp [escaped]

/-- Bytes of a text whose escapes are undone. -/
def bytes : List Char → List UInt8
  | '%' :: a :: b :: rest =>
    match hexDigit? a, hexDigit? b with
    | some a, some b => UInt8.ofNat (16 * a + b) :: bytes rest
    | _, _ => '%'.toString.toUTF8.toList ++ bytes (a :: b :: rest)
  | c :: rest => c.toString.toUTF8.toList ++ bytes rest
  | [] => []

/-- The text whose escapes are undone. -/
def unescaped (cs : List Char) : String := decode (bytes cs)

/-- An escape of a byte is read as the byte. -/
theorem bytes_ofByte (b : UInt8) (rest : List Char) :
    bytes (ofByte b ++ rest) = b :: bytes rest := by
  have hb : b.toNat < 256 := UInt8.toNat_lt_size b
  have high := hexDigit?_hexCapital (n := b.toNat / 16) (by omega)
  have low := hexDigit?_hexCapital (n := b.toNat % 16) (by omega)
  simp only [ofByte, List.cons_append, List.nil_append, bytes, high, low]
  congr 1
  rw [show 16 * (b.toNat / 16) + b.toNat % 16 = b.toNat by omega]
  simp

end Montage.Percent
