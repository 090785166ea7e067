import Montage.Json.Basic
import Montage.Json.Encoding
import Montage.Number.Literal
import Montage.Text.Ascii

/-! # Reading JSON text

`Json.read` reads one value that fills the whole text.  The format is JSON with three
additions: `NaN`, `Infinity` and `-Infinity` are numbers, a name may occur twice in an
object, and half of a pair may stand in a string.  A text that is not JSON is refused with a
**cause** and the place where reading stopped, counted in characters.  Two limits are kept
besides: the digits of a whole number, and the depth of nesting (`Cause.isLimit`).

The readers carry the unread rest of the text only.  A fault is raised with the length of
the rest at that place, from which `Json.read` computes the position.  Every nested value
begins with a bracket, so the length of the text bounds the nesting and serves as fuel.
-/
namespace Montage.Json

open Montage.Text Montage.Number

/-- Why a text is not JSON. -/
inductive Cause where
  | value
  | name
  | colon
  | comma
  | extra
  | openString
  | controlCharacter
  | escape
  | unicodeEscape
  | byteOrderMark
  /-- A whole number with too many digits; the count is given. -/
  | longInteger (digits : Nat)
  /-- An array inside too many brackets. -/
  | deepArray
  /-- An object inside too many brackets. -/
  | deepObject
  deriving DecidableEq, Repr

/-- Whether the text is well-formed as far as it was read, and exceeds a limit. -/
def Cause.isLimit : Cause → Bool
  | longInteger _ | deepArray | deepObject => true
  | _ => false

/-- Whether the nesting is too deep. -/
def Cause.isDepth : Cause → Bool
  | deepArray | deepObject => true
  | _ => false

/-- Wording of a cause. -/
def Cause.wording : Cause → String
  | value => "Expecting value"
  | name => "Expecting property name enclosed in double quotes"
  | colon => "Expecting ':' delimiter"
  | comma => "Expecting ',' delimiter"
  | extra => "Extra data"
  | openString => "Unterminated string starting at"
  | controlCharacter => "Invalid control character at"
  | escape => "Invalid \\escape"
  | unicodeEscape => "Invalid \\uXXXX escape"
  | byteOrderMark => "Unexpected UTF-8 BOM (decode using utf-8-sig)"
  | longInteger n => longIntegerMessage n
  | deepArray => "maximum recursion depth exceeded while decoding a JSON array from a unicode string"
  | deepObject => "maximum recursion depth exceeded while decoding a JSON object from a unicode string"

/-- A cause and the place where it arose. -/
structure TextFault where
  cause : Cause
  /-- Count of characters before the place. -/
  position : Nat
  /-- Number of the line, from one. -/
  line : Nat
  /-- Number of the character in its line, from one. -/
  column : Nat
  deriving DecidableEq, Repr

/-- Message of a fault; a limit is named without its place. -/
def TextFault.message (f : TextFault) : String :=
  if f.cause.isLimit then f.cause.wording
  else f.cause.wording ++ ": line " ++ toString f.line ++ " column " ++ toString f.column ++
    " (char " ++ toString f.position ++ ")"

/-- A cause and the length of the text that was left. -/
abbrev Stop := Cause × Nat

/-- Skips the blanks of JSON. -/
def skip (cs : List Char) : List Char :=
  cs.dropWhile fun c => c = ' ' || c = '\t' || c = '\n' || c = '\r'

/-- Four hexadecimal digits and what follows them. -/
def fourHex? : List Char → Option (Nat × List Char)
  | a :: b :: c :: d :: rest => do
    let a ← hexDigit? a
    let b ← hexDigit? b
    let c ← hexDigit? c
    let d ← hexDigit? d
    some (((a * 16 + b) * 16 + c) * 16 + d, rest)
  | _ => none

/-- The character of an escape by letter. -/
def letterEscape? : Char → Option Char
  | '"' => some '"'
  | '\\' => some '\\'
  | '/' => some '/'
  | 'b' => some '\x08'
  | 'f' => some '\x0c'
  | 'n' => some '\n'
  | 'r' => some '\r'
  | 't' => some '\t'
  | _ => none

/-- An escape by code unit: `rest` follows the letter `u`.  At least one character has to
follow the digits, and two units that form a pair give one code point. -/
def unicodeEscape (rest : List Char) : Except Stop (Nat × List Char) :=
  match if (rest.drop 4).isEmpty then none else fourHex? rest with
  | none => .error (.unicodeEscape, rest.length + 1)
  | some (high, after) =>
    match after with
    | '\\' :: 'u' :: second =>
      if isHighHalf high && !(after.drop 6).isEmpty then
        match fourHex? second with
        | none => .error (.unicodeEscape, second.length + 1)
        | some (low, afterPair) =>
          if isLowHalf low then .ok (joinHalves high low, afterPair)
          else .ok (high, after)
      else .ok (high, after)
    | _ => .ok (high, after)

/-- Halves of pairs in a text that is read.  A replacement stands for each of them; it is found
by the length of the text behind it. -/
abbrev Halves := List (Nat × Nat)

/-- The code point for which a character stands. -/
def codeOf (halves : Halves) (c : Char) (rest : List Char) : Nat :=
  if halves.isEmpty || c != replacement then c.toNat
  else (halves.lookup rest.length).getD c.toNat

/-- The rest of a string after its opening quote; `opened` is the length of the text from
that quote on, `done` what has been read in reverse, and the fuel bounds the characters. -/
def stringRest (halves : Halves) (opened : Nat) (done : List Nat) :
    Nat → List Char → Except Stop (JsonText × List Char)
  | 0, _ => .error (.openString, opened)
  | _ + 1, [] => .error (.openString, opened)
  | fuel + 1, c :: rest =>
    if c = '"' then .ok (.ofCodes done.reverse, rest)
    else if c = '\\' then
      match rest with
      | [] => .error (.openString, opened)
      | 'u' :: more =>
        match unicodeEscape more with
        | .error e => .error e
        | .ok (n, more) => stringRest halves opened (n :: done) fuel more
      | d :: more =>
        match letterEscape? d with
        | some d => stringRest halves opened (d.toNat :: done) fuel more
        | none => .error (.escape, more.length + 2)
    else if c.toNat < 0x20 then .error (.controlCharacter, rest.length + 1)
    else stringRest halves opened (codeOf halves c rest :: done) fuel rest

/-- Drops a fixed word in front. -/
def word? : List Char → List Char → Option (List Char)
  | [], cs => some cs
  | w :: ws, c :: cs => if w = c then word? ws cs else none
  | _ :: _, [] => none

/-- The digits of the whole part: a nought alone, or digits without a nought in front. -/
def wholePart : List Char → Option (List Nat × List Char)
  | '0' :: rest => some ([0], rest)
  | cs =>
    match takeDigits asciiDigit? cs with
    | ([], _) => none
    | r => some r

/-- A number, with the sign already taken. -/
def number (negative : Bool) (start : Nat) (cs : List Char) : Except Stop (Json × List Char) :=
  match wholePart cs with
  | none => .error (.value, start)
  | some (whole, rest) =>
    let (places, afterPlaces) := match rest with
      | '.' :: more => match takeDigits asciiDigit? more with
        | ([], _) => ([], rest)
        | r => r
      | _ => ([], rest)
    let (exponent, after) := match afterPlaces with
      | c :: more =>
        if c = 'e' ∨ c = 'E' then
          let (down, more) := takeSign more
          match takeDigits asciiDigit? more with
          | ([], _) => (none, afterPlaces)
          | (ds, after) => (some (if down then -(ofDigits ds : Int) else (ofDigits ds : Int)), after)
        else (none, afterPlaces)
      | [] => (none, afterPlaces)
    if places = [] ∧ exponent = none then
      if whole.length > longestInteger then .error (.longInteger whole.length, start)
      else .ok (.int (signed negative whole), after)
    else
      .ok (.float (ofDecimal negative (ofDigits (whole ++ places))
        (exponent.getD 0 - places.length)), after)

mutual

/-- One value at the front of a text without blanks before it; `room` is how many brackets it
may have around one another. -/
def value (halves : Halves) : Nat → Nat → List Char → Except Stop (Json × List Char)
  | 0, _, cs => .error (.value, cs.length)
  | _ + 1, _, [] => .error (.value, 0)
  | fuel + 1, room, c :: rest =>
    let start := rest.length + 1
    if c = '"' then
      match stringRest halves start [] (rest.length + 1) rest with
      | .error e => .error e
      | .ok (t, rest) => .ok (.string t, rest)
    else if c = '{' then
      if room = 0 then .error (.deepObject, start)
      else match skip rest with
      | '}' :: rest => .ok (.obj [], rest)
      | rest => fields halves fuel (room - 1) [] rest
    else if c = '[' then
      if room = 0 then .error (.deepArray, start)
      else match skip rest with
      | ']' :: rest => .ok (.arr [], rest)
      | rest => items halves fuel (room - 1) [] rest
    else if let some rest := word? "null".toList (c :: rest) then .ok (.null, rest)
    else if let some rest := word? "true".toList (c :: rest) then .ok (.bool true, rest)
    else if let some rest := word? "false".toList (c :: rest) then .ok (.bool false, rest)
    else if let some rest := word? "NaN".toList (c :: rest) then .ok (.float .nan, rest)
    else if let some rest := word? "Infinity".toList (c :: rest) then
      .ok (.float (.infinite false), rest)
    else if let some rest := word? "-Infinity".toList (c :: rest) then
      .ok (.float (.infinite true), rest)
    else if c = '-' then number true start rest
    else number false start (c :: rest)

/-- The items of an array from the first one on; `done` are those read, in reverse. -/
def items (halves : Halves) : Nat → Nat → List Json → List Char → Except Stop (Json × List Char)
  | 0, _, _, cs => .error (.value, cs.length)
  | fuel + 1, room, done, cs =>
    match value halves fuel room cs with
    | .error e => .error e
    | .ok (v, rest) =>
      match skip rest with
      | ']' :: rest => .ok (.arr (v :: done).reverse, rest)
      | ',' :: rest => items halves fuel room (v :: done) (skip rest)
      | rest => .error (.comma, rest.length)

/-- The fields of an object from the first name on; `done` are those read. -/
def fields (halves : Halves) :
    Nat → Nat → List (JsonText × Json) → List Char → Except Stop (Json × List Char)
  | 0, _, _, cs => .error (.value, cs.length)
  | fuel + 1, room, done, cs =>
    match cs with
    | '"' :: rest =>
      match stringRest halves (rest.length + 1) [] (rest.length + 1) rest with
      | .error e => .error e
      | .ok (name, rest) =>
        match skip rest with
        | ':' :: rest =>
          match value halves fuel room (skip rest) with
          | .error e => .error e
          | .ok (v, rest) =>
            let done := putField name v done
            match skip rest with
            | '}' :: rest => .ok (.obj done, rest)
            | ',' :: rest => fields halves fuel room done (skip rest)
            | rest => .error (.comma, rest.length)
        | rest => .error (.colon, rest.length)
    | cs => .error (.name, cs.length)

end

/-- The place that is `position` characters into a text. -/
def placeOf (text : List Char) (cause : Cause) (position : Nat) : TextFault :=
  let before := text.take position
  let line := before.count '\n' + 1
  let column := (before.reverse.takeWhile (· != '\n')).length + 1
  ⟨cause, position, line, column⟩

/-- Most brackets that a value may have around one another. -/
def deepest : Nat := 984

/-- Reads a text that holds one value and nothing else, nested so deep at most. -/
def readWithin (depth : Nat) (halves : Halves) (cs : List Char) : Except TextFault Json :=
  let fail (s : Stop) : TextFault := placeOf cs s.1 (cs.length - s.2)
  if cs.head? = some (Char.ofNat 0xfeff) then .error (placeOf cs .byteOrderMark 0)
  else match value halves (2 * cs.length + 2) depth (skip cs) with
    | .error e => .error (fail e)
    | .ok (v, rest) =>
      match skip rest with
      | [] => .ok v
      | rest => .error (fail (.extra, rest.length))

/-- Reads a text that holds one value and nothing else. -/
def read (text : String) : Except TextFault Json := readWithin deepest [] text.toList

/-- Reads a text that is given by its code points. -/
def readCodes (codes : List Nat) : Except TextFault Json :=
  readWithin deepest
    ((codes.reverse.zipIdx.filter fun c => isHalf c.1).map fun c => (c.2, c.1))
    (codes.map fun n => if isHalf n then replacement else Char.ofNat n)

end Montage.Json
