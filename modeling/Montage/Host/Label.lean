import Montage.Host.Context
import Montage.Host.Direction
import Montage.Host.Punycode
import Montage.Text.Ascii

/-! # Labels of host names

A name consists of **labels** with points between them.  `checkLabel` says which texts are
labels.  In a network only ASCII is used, so a label with other characters is sent in Punycode
behind a marker (`encodeLabel`), and `decodeLabel` gives the label that was sent.  Both check
the label they are about, and the first check that fails is the fault.
-/
namespace Montage.Host

open Montage.Text

/-- Why a text names no host. -/
inductive Fault where
  | emptyName
  | longName
  /-- Nothing stands between two points. -/
  | emptyPart
  | emptyLabel
  | longLabel
  | notComposed
  /-- Two hyphens stand where the marker would have them. -/
  | innerHyphens
  | outerHyphen
  | startsWithMark
  | character (c : Char) (position : Nat) (label : String)
  | joiner (c : Char) (position : Nat) (label : String)
  | sign (c : Char) (position : Nat) (label : String)
  | direction (fault : DirectionFault)
  /-- Nothing follows the marker. -/
  | nothingCoded
  | codedHyphen
  | badCode
  deriving DecidableEq, Repr

/-- A code point with at least four digits. -/
def codeText (c : Char) : String :=
  "U+" ++ String.ofList ((hex 4 c.toNat).map Char.toUpper)

def Fault.message : Fault → String
  | emptyName => "Empty domain"
  | longName => "Domain too long"
  | emptyPart => "Empty label"
  | emptyLabel => "Empty Label"
  | longLabel => "Label too long"
  | notComposed => "Label must be in Normalization Form C"
  | innerHyphens => "Label has disallowed hyphens in 3rd and 4th position"
  | outerHyphen => "Label must not start or end with a hyphen"
  | startsWithMark => "Label begins with an illegal combining character"
  | character c n label =>
    "Codepoint " ++ codeText c ++ " at position " ++ toString n ++ " of " ++ quoted label ++
      " not allowed"
  | joiner c n label =>
    "Unknown codepoint adjacent to joiner " ++ codeText c ++ " at position " ++ toString n ++
      " in " ++ quoted label
  | sign c n label =>
    "Codepoint " ++ codeText c ++ " not allowed at position " ++ toString n ++ " in " ++
      quoted label
  | direction f => f.message
  | nothingCoded => "Malformed A-label, no Punycode eligible content found"
  | codedHyphen => "A-label must not end with a hyphen"
  | badCode => "Invalid A-label"

/-- Greatest length of a name, with a point at its end. -/
def longestName : Nat := 254

/-- Greatest length of a label in a network. -/
def longestLabel : Nat := 63

/-! ### Checks -/

/-- Checks the hyphens of a label. -/
def checkHyphens (label : List Char) : Except Fault Unit :=
  if (label.drop 2).take 2 = ['-', '-'] then .error .innerHyphens
  else if label.head? = some '-' ∨ label.getLast? = some '-' then .error .outerHyphen
  else .ok ()

/-- Checks a joiner or a sign between two parts of a label. -/
def checkCharacter (label : String) (before : List Char) (c : Char) (after : List Char) :
    Except Fault Unit :=
  let position := before.length + 1
  match ruleOf c with
  | .allowed => .ok ()
  | .refused => .error (.character c position label)
  | .contextual =>
    if admitsSign c before after then .ok () else .error (.sign c position label)
  | .joiner =>
    if admitsJoiner c before after then .ok () else .error (.joiner c position label)

/-- Checks the characters of a label behind those that were checked before; these are given
from the last one on. -/
def checkCharacters (label : String) (before : List Char) : List Char → Except Fault Unit
  | [] => .ok ()
  | c :: after =>
    match checkCharacter label before c after with
    | .error f => .error f
    | .ok () => checkCharacters label (c :: before) after

/-- Checks a label as people write it. -/
def checkLabel (label : List Char) : Except Fault Unit :=
  if label.isEmpty then .error .emptyLabel
  else if longestName < label.length then .error .longLabel
  else if !isComposed label then .error .notComposed
  else do
    checkHyphens label
    if label.head?.any isMark then .error .startsWithMark
    checkCharacters (String.ofList label) [] label
    (checkDirections label).mapError .direction

/-! ### Coding -/

/-- Stands in front of a label in Punycode. -/
def marker : List Char := ['x', 'n', '-', '-']

/-- The label that was sent. -/
def decodeLabel (label : List Char) : Except Fault (List Char) :=
  if !label.all isAscii then (checkLabel label).map fun _ => label
  else
    let sent := label.map Char.toLower
    if marker.isPrefixOf sent then
      let code := sent.drop marker.length
      if code.isEmpty then .error .nothingCoded
      else if code.getLast? = some '-' then .error .codedHyphen
      else match Punycode.decode? code with
        | none => .error .badCode
        | some decoded => (checkLabel decoded).map fun _ => decoded
    else (checkLabel sent).map fun _ => sent

/-- The label as it is sent. -/
def encodeLabel (label : List Char) : Except Fault (List Char) := do
  let sent ←
    if label.all isAscii then (decodeLabel label).map fun _ => label
    else (checkLabel label).map fun _ => marker ++ Punycode.encode label
  if longestLabel < sent.length then .error .longLabel else .ok sent

end Montage.Host
