import Montage.Number.Decimal
import Montage.Text.Blank
import Montage.Text.Digit

/-! # Numbers written as text

A **decimal** is a sign, then digits with an optional point and an optional exponent, or
one of the words `inf`, `infinity` and `nan` in any case (`decimal?`).  An **integer** is a
sign and digits with single underscores between them (`integer?`).

* Requests take ASCII digits.  A decimal may hold single underscores if nothing stands
  around it (`requestDecimal?`).  An integer is plain (`plainInteger`), or becomes plain
  once the zeros in front, a point with zeros behind it and single underscores are gone
  (`requestInteger`); a minus may stand behind the zeros.
* A probed length and a progress report take the digits of any script, with blanks around
  and single underscores between digits (`measuredDecimal?`, `measuredInteger?`).
-/
namespace Montage.Number

open Montage.Text

/-- The number written by a list of digits, most significant first. -/
def ofDigits (ds : List Nat) : Nat := ds.foldl (fun n d => 10 * n + d) 0

/-- A sign in front, and what follows it. -/
def takeSign : List Char → Bool × List Char
  | '-' :: rest => (true, rest)
  | '+' :: rest => (false, rest)
  | cs => (false, cs)

/-- The digits in front, and what follows them. -/
def takeDigits (digit : Char → Option Nat) : List Char → List Nat × List Char
  | [] => ([], [])
  | c :: rest =>
    match digit c with
    | some d => match takeDigits digit rest with
      | (ds, rest) => (d :: ds, rest)
    | none => ([], c :: rest)

/-- Digits with single underscores between them, up to the end or to another character. -/
def takeGrouped (digit : Char → Option Nat) : List Char → List Nat × List Char
  | [] => ([], [])
  | c :: rest =>
    match digit c with
    | none => ([], c :: rest)
    | some d =>
      match rest with
      | '_' :: next :: more =>
        if (digit next).isSome then
          match takeGrouped digit (next :: more) with
          | (ds, rest) => (d :: ds, rest)
        else ([d], '_' :: next :: more)
      | rest =>
        match takeGrouped digit rest with
        | (ds, rest) => (d :: ds, rest)
  termination_by cs => cs.length

/-- An exponent that ends the text; nothing at all counts as zero. -/
def exponent? (take : List Char → List Nat × List Char) : List Char → Option Int
  | [] => some 0
  | c :: rest =>
    if c = 'e' ∨ c = 'E' then
      match takeSign rest with
      | (negative, rest) =>
        match take rest with
        | ([], _) => none
        | (ds, []) => some (if negative then -(ofDigits ds : Int) else ofDigits ds)
        | _ => none
    else none

/-- Reads a decimal whose digit groups are taken by `take`. -/
def decimal? (take : List Char → List Nat × List Char) (cs : List Char) : Option Number :=
  let (negative, rest) := takeSign cs
  let word := String.ofList (rest.map Char.toLower)
  if word = "inf" ∨ word = "infinity" then some (infinite negative)
  else if word = "nan" then some nan
  else
    let (whole, rest) := take rest
    let (places, rest) := match rest with
      | '.' :: more => take more
      | _ => ([], rest)
    if whole = [] ∧ places = [] then none
    else (exponent? take rest).map fun e =>
      ofDecimal negative (ofDigits (whole ++ places)) (e - places.length)

/-- Reads an integer that fills the whole text; gives its digits too. -/
def integer? (digit : Char → Option Nat) (cs : List Char) : Option (Bool × List Nat) :=
  let (negative, rest) := takeSign cs
  match takeGrouped digit rest with
  | ([], _) => none
  | (ds, []) => some (negative, ds)
  | _ => none

/-- The integer of a sign and digits. -/
def signed (negative : Bool) (ds : List Nat) : Int :=
  if negative then -(ofDigits ds : Int) else ofDigits ds

/-- Drops a point and the zeros after it at the end of a text. -/
def dropZeroPlaces (cs : List Char) : List Char :=
  match cs.reverse.span (· == '0') with
  | ([], _) => cs
  | (_, '.' :: rest) => rest.reverse
  | _ => cs

/-- Drops single underscores inside a text; `none` unless there are such and no others. -/
def dropUnderscores? (cs : List Char) : Option (List Char) :=
  let doubled := (cs.zip cs.tail).any fun (a, b) => a == '_' && b == '_'
  if cs.head? == some '_' || cs.getLast? == some '_' || !cs.contains '_' || doubled then none
  else some (cs.filter (· != '_'))

/-- Most digits that an integer written as a text may have. -/
def longestInteger : Nat := 4300

/-- What is said of an integer with too many digits. -/
def longIntegerMessage (digits : Nat) : String :=
  "Exceeds the limit (" ++ toString longestInteger ++
    " digits) for integer string conversion: value has " ++ toString digits ++
    " digits; use sys.set_int_max_str_digits() to increase the limit"

/-- Why a text is no integer of a request. -/
inductive IntegerFault where
  | form
  /-- The digits are more than `longestInteger`. -/
  | size
  deriving DecidableEq, Repr

/-- Reads a minus or nothing, then zero alone or digits that do not begin with zero. -/
def plainInteger (cs : List Char) : Except IntegerFault Int :=
  let negative := cs.head? == some '-'
  let body := if negative then cs.drop 1 else cs
  let (ds, rest) := takeDigits asciiDigit? body
  if ds.head? = none then .error .form
  else if ds.head? = some 0 then if body = ['0'] then .ok 0 else .error .form
  else if ds.length > longestInteger then .error .size
  else if rest = [] then .ok (signed negative ds)
  else .error .form

/-- Whether an integer may begin with a character, zeros apart. -/
def beginsInteger (c : Char) : Bool := c == '-' || decide ('1' ≤ c ∧ c ≤ '9')

/-- Passes zeros and underscores up to the beginning of an integer.  Before a point, and at
the end, the last of them is kept. -/
def afterZeros? (last : Char) : List Char → Option (List Char)
  | [] => some [last]
  | c :: rest =>
    if c = '0' ∨ c = '_' then afterZeros? c rest
    else if beginsInteger c then some (c :: rest)
    else if c = '.' then some (last :: c :: rest)
    else none

/-- Drops the zeros in front of an integer. -/
def dropLeadingZeros? : List Char → Option (List Char)
  | [] => none
  | c :: rest =>
    if c = '0' then afterZeros? c rest
    else if beginsInteger c then some (c :: rest)
    else none

/-- Drops one plus; no minus may follow it. -/
def dropPlus? : List Char → Option (List Char)
  | '+' :: '-' :: _ => none
  | '+' :: rest => some rest
  | cs => some cs

/-- What is left of an integer without a plus, zeros in front, zero places and single
underscores. -/
def bareInteger? (cs : List Char) : Option (List Char) :=
  ((dropPlus? cs).bind dropLeadingZeros?).map fun cs =>
    let whole := dropZeroPlaces cs
    (dropUnderscores? whole).getD whole

/-- Reads an integer as a request may write it. -/
def requestInteger (s : String) : Except IntegerFault Int :=
  let cs := trim isSpace s.toList
  match plainInteger cs with
  | .error .form =>
    match bareInteger? cs with
    | some bare => plainInteger bare
    | none => .error .form
  | r => r

/-- A decimal as a request may write it. -/
def requestDecimal? (s : String) : Option Number :=
  let take := takeDigits asciiDigit?
  (decimal? take (trim isSpace s.toList)).or
    ((dropUnderscores? s.toList).bind (decimal? take))

/-- A decimal in the output of another program. -/
def measuredDecimal? (s : String) : Option Number :=
  decimal? (takeGrouped digitValue?) (trim isSpace s.toList)

/-- An integer in the output of another program. -/
def measuredInteger? (s : String) : Option Int :=
  (integer? digitValue? (trim isSpace s.toList)).bind fun (n, ds) =>
    if ds.length > longestInteger then none else some (signed n ds)

end Montage.Number
