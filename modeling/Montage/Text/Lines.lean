/-! # Lines

A text is cut into lines at every line boundary of any kind: line feed, carriage return
(the pair counts once), vertical tab, form feed, the separators `1c` to `1e`, next line,
and the line and paragraph separators.  No line is left after a boundary at the end.

A stream of bytes is cut at line feeds only (`splitFeeds`); what stands after the last
one is kept apart, because it may still grow.
-/
namespace Montage.Text

/-- Whether a character ends a line. -/
def isBoundary (c : Char) : Bool :=
  let n := c.toNat
  (0x0a ≤ n && n ≤ 0x0d) || (0x1c ≤ n && n ≤ 0x1e) || n == 0x85 || n == 0x2028 || n == 0x2029

/-- Lines of a text, with the characters read of the current line in reverse. -/
def linesFrom (current : List Char) : List Char → List (List Char)
  | [] => if current.isEmpty then [] else [current.reverse]
  | '\r' :: '\n' :: rest => current.reverse :: linesFrom [] rest
  | c :: rest =>
    if isBoundary c then current.reverse :: linesFrom [] rest else linesFrom (c :: current) rest

/-- The lines of a text without their boundaries. -/
def lines (s : String) : List String := (linesFrom [] s.toList).map String.ofList

/-- Drops one line feed at the end. -/
def dropFinalFeed (cs : List Char) : List Char :=
  match cs.reverse with
  | '\n' :: rest => rest.reverse
  | _ => cs

/-- Cuts bytes at line feeds, with the bytes read of the current line in reverse. -/
def splitFeedsFrom (current : List UInt8) : List UInt8 → List (List UInt8) × List UInt8
  | [] => ([], current.reverse)
  | b :: rest =>
    if b = 10 then
      match splitFeedsFrom [] rest with
      | (done, last) => (current.reverse :: done, last)
    else splitFeedsFrom (b :: current) rest

/-- Cuts bytes at line feeds: the finished lines without their line feed, and the rest. -/
def splitFeeds (bytes : List UInt8) : List (List UInt8) × List UInt8 := splitFeedsFrom [] bytes

/-- The last `n` elements of a list. -/
def lastN (n : Nat) (xs : List α) : List α := xs.drop (xs.length - n)

end Montage.Text
