import Montage.Json.Basic
import Montage.Number.Decimal
import Montage.Text.Quoted

/-! # Writing JSON text

A `Style` holds the choices that a writer of JSON has: the indentation, whether
characters beyond ASCII are escaped, how a decimal is laid out, and what stands for a
number that JSON has no text for.

`Style.received` is the form in which a request is kept as it came, `Style.stored` the
form of a normalised timeline, `Style.line` a value on one line.
-/
namespace Montage.Json

open Montage.Text Montage.Number

structure Style where
  /-- Blanks per level; `none` for one line. -/
  indent : Option Nat
  /-- Whether every character outside printable ASCII is escaped. -/
  asciiOnly : Bool
  layout : Layout
  /-- Whether numbers that are not finite have names; otherwise they are null. -/
  namesNonFinite : Bool
  deriving DecidableEq, Repr

/-- A request as it was received. -/
def Style.received : Style := ⟨some 2, true, .report, true⟩

/-- A normalised timeline. -/
def Style.stored : Style := ⟨some 2, false, .stored, false⟩

/-- A value on one line. -/
def Style.line : Style := ⟨none, true, .report, true⟩

/-- Escape by code unit. -/
def unitEscape (n : Nat) : List Char := ['\\', 'u'] ++ hex 4 n

/-- One code point inside a string.  Half of a pair is always escaped. -/
def escapedCode (asciiOnly : Bool) (n : Nat) : List Char :=
  let c := Char.ofNat n
  if isHalf n then unitEscape n
  else if c = '"' then ['\\', '"']
  else if c = '\\' then ['\\', '\\']
  else if c = '\n' then ['\\', 'n']
  else if c = '\r' then ['\\', 'r']
  else if c = '\t' then ['\\', 't']
  else if n = 8 then ['\\', 'b']
  else if n = 12 then ['\\', 'f']
  else if n < 0x20 then unitEscape n
  else if !asciiOnly ∨ n < 0x7f then [c]
  else if n < 0x10000 then unitEscape n
  else
    let (high, low) := splitIntoHalves n
    unitEscape high ++ unitEscape low

/-- A string between quotes. -/
def writeString (style : Style) (t : JsonText) : String :=
  String.ofList ('"' :: t.codes.flatMap (escapedCode style.asciiOnly) ++ ['"'])

/-- A decimal. -/
def writeFloat (style : Style) (x : Number) : String :=
  if x.isFinite then render style.layout x
  else if !style.namesNonFinite then "null"
  else match x with
    | .nan => "NaN"
    | .infinite true => "-Infinity"
    | _ => "Infinity"

/-- A line break and the blanks of a level. -/
def lineBreak (style : Style) (level : Nat) : String :=
  match style.indent with
  | none => ""
  | some n => "\n" ++ String.ofList (List.replicate (n * level) ' ')

/-- What stands between two members. -/
def separator (style : Style) (level : Nat) : String :=
  match style.indent with
  | none => ", "
  | some _ => "," ++ lineBreak style level

mutual

/-- Text of a value that stands at a level of nesting. -/
def writeAt (style : Style) (level : Nat) : Json → String
  | null => "null"
  | bool b => if b then "true" else "false"
  | int n => toString n
  | float x => writeFloat style x
  | string t => writeString style t
  | arr [] => "[]"
  | arr (v :: rest) =>
    "[" ++ lineBreak style (level + 1) ++ writeAt style (level + 1) v ++
      writeItems style (level + 1) rest ++ lineBreak style level ++ "]"
  | obj [] => "\x7b\x7d"
  | obj ((name, v) :: rest) =>
    "\x7b" ++ lineBreak style (level + 1) ++ writeString style name ++ ": " ++
      writeAt style (level + 1) v ++ writeFields style (level + 1) rest ++
      lineBreak style level ++ "\x7d"

/-- The items after the first one, each with its separator. -/
def writeItems (style : Style) (level : Nat) : List Json → String
  | [] => ""
  | v :: rest => separator style level ++ writeAt style level v ++ writeItems style level rest

/-- The fields after the first one, each with its separator. -/
def writeFields (style : Style) (level : Nat) : List (JsonText × Json) → String
  | [] => ""
  | (name, v) :: rest =>
    separator style level ++ writeString style name ++ ": " ++ writeAt style level v ++
      writeFields style level rest

end

/-- Text of a value. -/
def write (style : Style) (v : Json) : String := writeAt style 0 v

end Montage.Json
