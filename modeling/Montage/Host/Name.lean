import Montage.Host.Label

/-! # Host names

A name is a list of labels with points between them, and perhaps a point at its end; the points
of Chinese and Japanese texts count as well.  `encode` gives the name as it is sent, in ASCII,
and `decode` the name that was sent.
-/
namespace Montage.Host

/-- Characters that stand between labels. -/
def isPoint (c : Char) : Bool :=
  c == '.' || c.toNat == 0x3002 || c.toNat == 0xff0e || c.toNat == 0xff61

/-- The labels of a name, and whether a point stands at its end. -/
def labels (name : List Char) : List (List Char) × Bool :=
  let parts := name.splitOnP isPoint
  if parts.getLast? = some [] then (parts.dropLast, true) else (parts, false)

/-- Codes each label of a name. -/
def codeName (code : List Char → Except Fault (List Char)) (name : List Char) :
    Except Fault (List Char) :=
  if longestName < name.length then .error .longName
  else if name.isEmpty then .error .emptyName
  else do
    let (parts, ends) := labels name
    let coded ← parts.mapM fun label => do
      let coded ← code label
      if coded.isEmpty then .error .emptyPart else .ok coded
    .ok (['.'].intercalate (coded ++ if ends then [[]] else []))

/-- The name that was sent. -/
def decode (name : List Char) : Except Fault (List Char) := codeName decodeLabel name

/-- The name as it is sent.  A point at its end does not count for its length. -/
def encode (name : List Char) : Except Fault (List Char) := do
  let sent ← codeName encodeLabel name
  let ends := (labels name).2
  if (if ends then longestName else longestName - 1) < sent.length then .error .longName
  else .ok sent

end Montage.Host
