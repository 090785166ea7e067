import Montage.Number.Literal
import Montage.Text.Lines
import Montage.Text.Quoted
import Montage.Text.Utf8

/-! # Output of a running engine

The engine writes bytes on two streams.  Both are cut into lines as they come; a line that
is not finished waits for its end or for the end of the stream (`LineBuffer.take`).  A line
has a greatest length, beyond which the stream cannot be read any further.

On one stream the engine reports how much it has encoded (`progressTime?`).  Of the other
stream the last lines that say something are kept (`Tail`).
-/
namespace Montage.Engine

open Montage.Text

/-- Greatest length of a line in bytes. -/
def lineLimit : Nat := 65536

/-- Why output could not be read on. -/
inductive ReadFault where
  /-- Fewer lines than none were to be kept. -/
  | negativeTail
  /-- A finished line beyond the limit. -/
  | longLine
  /-- An unfinished line beyond the limit. -/
  | longRest
  /-- A reported time beyond every number. -/
  | timeRange
  /-- A share of the work that is no number of percent. -/
  | shareRange
  deriving DecidableEq, Repr

def ReadFault.message : ReadFault → String
  | negativeTail => "maxlen must be non-negative"
  | longLine => "Separator is found, but chunk is longer than limit"
  | longRest => "Separator is not found, and chunk exceed the limit"
  | timeRange => "integer division result too large for a float"
  | shareRange => "cannot convert float infinity to integer"

/-- Bytes of a stream that belong to no finished line yet. -/
structure LineBuffer where
  rest : List UInt8
  deriving DecidableEq, Repr

/-- Lines up to the first one that is too long, and whether there is such a one. -/
def withinLimit : List (List UInt8) → List (List UInt8) × Bool
  | [] => ([], false)
  | l :: rest =>
    if lineLimit < l.length then ([], true)
    else match withinLimit rest with
      | (ls, long) => (l :: ls, long)

/-- Takes more bytes, and perhaps the end of the stream; gives the lines that are finished
now and a fault if the stream cannot be read on. -/
def LineBuffer.take (b : LineBuffer) (bytes : List UInt8) (closed : Bool) :
    List (List UInt8) × LineBuffer × Option ReadFault :=
  let (done, rest) := splitFeeds (b.rest ++ bytes)
  match withinLimit done with
  | (ls, true) => (ls, ⟨[]⟩, some .longLine)
  | (ls, false) =>
    if lineLimit < rest.length then (ls, ⟨[]⟩, some .longRest)
    else if closed && !rest.isEmpty then (ls ++ [rest], ⟨[]⟩, none)
    else (ls, ⟨rest⟩, none)

/-- What a line of diagnostics says, without blanks at its end. -/
def diagnostic (line : List UInt8) : String :=
  String.ofList (trimEnd isBlank (decodeFrom .start line))

/-- The last lines of diagnostics, the latest one at the end. -/
structure Tail where
  size : Nat
  lines : List String
  deriving DecidableEq, Repr

/-- Adds a line; beyond the size the first one goes. -/
def Tail.push (t : Tail) (line : String) : Tail :=
  { t with lines := lastN t.size (t.lines ++ [line]) }

/-- Adds what a line of output says, unless it says nothing. -/
def Tail.take (t : Tail) (line : List UInt8) : Tail :=
  let s := diagnostic line
  if s.isEmpty then t else t.push s

/-- What begins a report of the encoded time. -/
def progressMark : List Char := "out_time_us=".toList

/-- The microseconds that a line of output reports. -/
def progressMicroseconds? (line : List UInt8) : Option Int :=
  let cs := trim isBlank (decodeFrom .start line)
  if progressMark.isPrefixOf cs then
    Number.measuredInteger? (String.ofList (cs.drop progressMark.length))
  else none

/-- Microseconds as seconds. -/
def seconds (r : Rounding) (microseconds : Int) : Except ReadFault Number :=
  let x := if microseconds = 0 then Number.finite 0
    else r.fit ((microseconds : Rat) / 1000000)
  if x.isFinite then .ok x else .error .timeRange

/-- The times that lines of output report, up to a fault. -/
def reportedTimes (r : Rounding) : List (List UInt8) → List Number × Option ReadFault
  | [] => ([], none)
  | l :: rest =>
    match progressMicroseconds? l with
    | none => reportedTimes r rest
    | some n =>
      match seconds r n with
      | .error f => ([], some f)
      | .ok x => match reportedTimes r rest with
        | (xs, fault) => (x :: xs, fault)

/-- The share of the work that is done at a time; never above one. -/
def share (r : Rounding) (duration time : Number) : Option Number :=
  if Number.lt (.finite 0) duration then
    some (Number.min (.finite 1) (Number.div r time duration))
  else none

/-- Whole percent of a share. -/
def percent (r : Rounding) (x : Number) : Except ReadFault Int :=
  let y := Number.mul r x (.finite 100)
  if y.isFinite then .ok (Number.truncate y.rat) else .error .shareRange

end Montage.Engine
