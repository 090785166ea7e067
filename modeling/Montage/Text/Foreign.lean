import Montage.Text.Ascii
import Montage.Text.Quoted

/-! # Characters outside ASCII

Headers of a message are ASCII.  A text that is not cannot be sent; the fault is its first run of
other characters.
-/
namespace Montage.Text

/-- A run of characters that ASCII does not have. -/
structure ForeignRun where
  /-- The first of them. -/
  character : Char
  /-- Positions of the first and the last of them. -/
  first : Nat
  last : Nat
  deriving DecidableEq, Repr

/-- How a message names the characters of a run, given the escape of the first one. -/
def runWording (escape : List Char) (first last : Nat) : String :=
  if first = last then "character '" ++ String.ofList escape ++ "' in position " ++ toString first
  else "characters in position " ++ toString first ++ "-" ++ toString last

def ForeignRun.message (r : ForeignRun) : String :=
  "'ascii' codec can't encode " ++ runWording (codeEscape r.character) r.first r.last ++
    ": ordinal not in range(128)"

/-- The first run of characters that ASCII does not have. -/
def foreignRun? (cs : List Char) : Option ForeignRun :=
  let plain := cs.takeWhile isAscii
  match cs.drop plain.length with
  | [] => none
  | c :: rest =>
    some ⟨c, plain.length, plain.length + (rest.takeWhile (!isAscii ·)).length⟩

end Montage.Text
