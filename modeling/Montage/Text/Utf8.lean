/-! # Reading bytes as text

Output of another program is read as UTF-8.  A byte that begins no well-formed sequence
is replaced, and so is each longest beginning of a sequence that does not go on; text
around it is kept.
-/
namespace Montage.Text

/-- What stands for bytes that are no text. -/
def replacement : Char := Char.ofNat 0xfffd

/-- Bounds of the second byte and number of bytes after the first, by the first byte. -/
def sequenceAfter (b : UInt8) : Option (UInt8 × UInt8 × Nat) :=
  if 0xc2 ≤ b ∧ b ≤ 0xdf then some (0x80, 0xbf, 1)
  else if b = 0xe0 then some (0xa0, 0xbf, 2)
  else if b = 0xed then some (0x80, 0x9f, 2)
  else if 0xe1 ≤ b ∧ b ≤ 0xef then some (0x80, 0xbf, 2)
  else if b = 0xf0 then some (0x90, 0xbf, 3)
  else if 0xf1 ≤ b ∧ b ≤ 0xf3 then some (0x80, 0xbf, 3)
  else if b = 0xf4 then some (0x80, 0x8f, 3)
  else none

/-- Value of the first byte of a sequence with the given number of further bytes. -/
def leadValue (b : UInt8) (further : Nat) : Nat :=
  match further with
  | 1 => b.toNat % 0x20
  | 2 => b.toNat % 0x10
  | _ => b.toNat % 0x08

/-- What a reader of UTF-8 has seen of the current sequence. -/
inductive Utf8State where
  | start
  /-- The value so far, the bounds of the next byte, and how many bytes are missing. -/
  | inside (value : Nat) (low high : UInt8) (missing : Nat)
  deriving Repr

/-- Takes a byte that begins a sequence. -/
def Utf8State.first (b : UInt8) : List Char × Utf8State :=
  if b < 0x80 then ([Char.ofNat b.toNat], .start)
  else match sequenceAfter b with
    | some (low, high, further) => ([], .inside (leadValue b further) low high further)
    | none => ([replacement], .start)

/-- Takes one byte. -/
def Utf8State.next : Utf8State → UInt8 → List Char × Utf8State
  | .start, b => Utf8State.first b
  | .inside value low high missing, b =>
    if low ≤ b ∧ b ≤ high then
      let value := value * 0x40 + b.toNat % 0x40
      if missing ≤ 1 then ([Char.ofNat value], .start)
      else ([], .inside value 0x80 0xbf (missing - 1))
    else
      match Utf8State.first b with
      | (cs, state) => (replacement :: cs, state)

/-- Decodes bytes from a state of the reader. -/
def decodeFrom (state : Utf8State) : List UInt8 → List Char
  | [] => match state with
    | .start => []
    | .inside .. => [replacement]
  | b :: rest =>
    match state.next b with
    | (cs, state) => cs ++ decodeFrom state rest

/-- Text of bytes, with replacements where they are no text. -/
def decode (bytes : List UInt8) : String := String.ofList (decodeFrom .start bytes)

/-- Text of bytes, if all of them are text. -/
def decode? (bytes : ByteArray) : Option String := String.fromUTF8? bytes

end Montage.Text
