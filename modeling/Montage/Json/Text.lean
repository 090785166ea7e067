import Montage.Text.Half

/-! # Texts of JSON

JSON writes a text in units of UTF-16, so half of a pair may stand in it alone.  A
`JsonText` is a text without such halves (`plain`), or a list of code points with some
(`halved`), which nothing but JSON can hold.

Where a text is asked for and the halves do not matter, a private character stands for each
half (`shown`).  Whether they matter shows in the comparison with the same text made of
other halves (`withOtherHalves`).
-/
namespace Montage

/-- A name or a text of JSON. -/
inductive JsonText where
  | plain (text : String)
  /-- Some of the code points are halves of pairs. -/
  | halved (codes : List Nat)
  deriving DecidableEq, Repr, Inhabited

instance : Coe String JsonText := ⟨.plain⟩

namespace JsonText

open Montage.Text

/-- The text that code points make up. -/
def ofCodes (codes : List Nat) : JsonText :=
  if codes.any isHalf then .halved codes else .plain (String.ofList (codes.map Char.ofNat))

/-- The code points of a text. -/
def codes : JsonText → List Nat
  | plain s => s.toList.map Char.toNat
  | halved codes => codes

/-- The text, if no halves stand in it. -/
def plain? : JsonText → Option String
  | plain s => some s
  | halved _ => none

/-- The private character that stands for a half. -/
def standIn (n : Nat) : Char := Char.ofNat (if isHalf n then 0xe000 + (n - 0xd800) else n)

/-- The text with private characters for halves. -/
def shown : JsonText → String
  | plain s => s
  | halved codes => String.ofList (codes.map standIn)

/-- The code point that a character is, or the half for which it stands. -/
def stoodFor (c : Char) : Nat :=
  if 0xe000 ≤ c.toNat && c.toNat ≤ 0xe7ff then c.toNat - 0x800 else c.toNat

/-- The text that is shown so, if its private characters stand for halves. -/
def ofShown (s : String) : JsonText := ofCodes (s.toList.map stoodFor)

/-- The same text with another half for each half. -/
def withOtherHalves : JsonText → JsonText
  | plain s => plain s
  | halved codes => halved (codes.map fun n => if isHalf n then otherHalf n else n)

@[simp] theorem plain?_plain (s : String) : (plain s).plain? = some s := rfl

@[simp] theorem shown_plain (s : String) : (plain s).shown = s := rfl

/-- A text without halves has no other. -/
theorem withOtherHalves_of_plain? {t : JsonText} {s : String} (h : t.plain? = some s) :
    t.withOtherHalves = t := by
  cases t with
  | plain s => rfl
  | halved codes => simp [plain?] at h

end JsonText
end Montage
