/-! # Escaping inside a filter graph

A value of a filter option passes two readers.  The reader of the graph takes it first, and
then the reader of the options; each of them drops a backslash and keeps the character
after it.  A value is therefore escaped for the options first and for the graph second, and
is left without quotes.

`unescape` undoes one level: `unescape_escape` holds for every set of special characters
that contains the backslash.
-/
namespace Montage.Plan

/-- Puts a backslash before each special character. -/
def escape (special : Char → Bool) (cs : List Char) : List Char :=
  cs.flatMap fun c => if special c then ['\\', c] else [c]

/-- Special to the reader of options. -/
def isOptionSpecial (c : Char) : Bool := c == '\\' || c == '\'' || c == ':'

/-- Special to the reader of the graph. -/
def isGraphSpecial (c : Char) : Bool :=
  c == '\\' || c == '\'' || c == '[' || c == ']' || c == ',' || c == ';'

/-- Drops each backslash and keeps the character after it. -/
def unescape : List Char → List Char
  | [] => []
  | '\\' :: c :: rest => c :: unescape rest
  | c :: rest => c :: unescape rest

theorem unescape_escape (special : Char → Bool) (h : special '\\' = true) (cs : List Char) :
    unescape (escape special cs) = cs := by
  induction cs with
  | nil => rfl
  | cons c rest ih =>
    by_cases hs : special c = true
    · simpa [escape, hs, unescape] using ih
    · have hc : c ≠ '\\' := fun e => hs (e ▸ h)
      have hescape : escape special (c :: rest) = c :: escape special rest := by
        simp [escape, hs]
      rw [hescape, unescape, ih]
      intro d more he _
      exact hc he

/-- A value as it stands in the graph. -/
def escapeValue (s : String) : String :=
  String.ofList (escape isGraphSpecial (escape isOptionSpecial s.toList))

/-- A line of text to be drawn: line feeds become blanks. -/
def oneLine (s : String) : String := String.ofList (s.toList.map fun c => if c = '\n' then ' ' else c)

/-- A colour as the engine writes it: `0x` for `#`. -/
def engineColor (s : String) : String :=
  String.ofList (s.toList.flatMap fun c => if c = '#' then ['0', 'x'] else [c])

end Montage.Plan
