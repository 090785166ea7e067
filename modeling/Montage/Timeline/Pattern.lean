import Montage.Number.Literal
import Montage.Text.Ascii
import Montage.Text.Lines

/-! # Texts with a form

A colour and a bit rate reach the engine as they are, so they must have a fixed form.
A line feed at the very end of the text is overlooked by both tests.
-/
namespace Montage

open Montage.Text Montage.Number

/-- Six or eight hexadecimal digits. -/
def isHexColor (cs : List Char) : Bool :=
  (cs.length == 6 || cs.length == 8) && cs.all isHexDigit

/-- A colour without the line feed that may follow it. -/
def isColorBody : List Char → Bool
  | '#' :: rest => isHexColor rest
  | '0' :: 'x' :: rest => isHexColor rest
  | cs => !cs.isEmpty && cs.all isAsciiLetter

/-- A colour: a name, or the digits of its parts behind `#` or `0x`. -/
def isColor (s : String) : Bool := isColorBody (dropFinalFeed s.toList)

/-- What may follow the number of a bit rate. -/
def isRateUnit : List Char → Bool
  | [] => true
  | [c] => c == 'k' || c == 'K' || c == 'm' || c == 'M'
  | _ => false

/-- A bit rate without the line feed that may follow it. -/
def isBitrateBody (cs : List Char) : Bool :=
  match takeDigits digitValue? cs with
  | ([], _) => false
  | (_, '.' :: more) =>
    match takeDigits digitValue? more with
    | ([], _) => false
    | (_, rest) => isRateUnit rest
  | (_, rest) => isRateUnit rest

/-- A bit rate: digits, perhaps places, and perhaps a unit of thousands or millions. -/
def isBitrate (s : String) : Bool := isBitrateBody (dropFinalFeed s.toList)

end Montage
