import Montage.Json.Basic
import Montage.Number.Decimal
import Montage.Text.Quoted

/-! # Values inside messages

A message that names a value writes it for people to read.  The words for nothing and for
the truth values begin with capitals, a decimal is a report, and texts stand between quotes;
only a text that is the whole value stands as it is (`Json.wording`).
-/
namespace Montage.Json

mutual

/-- A value inside another one. -/
def wordingWithin : Json → String
  | null => "None"
  | bool b => if b then "True" else "False"
  | int n => toString n
  | float x => x.report
  | string t => Text.quoted t.shown
  | arr items => "[" ++ ", ".intercalate (wordingItems items) ++ "]"
  | obj fields => "\x7b" ++ ", ".intercalate (wordingFields fields) ++ "\x7d"

/-- The items of a list. -/
def wordingItems : List Json → List String
  | [] => []
  | v :: rest => wordingWithin v :: wordingItems rest

/-- The fields of a record with their names. -/
def wordingFields : List (JsonText × Json) → List String
  | [] => []
  | (name, v) :: rest => (Text.quoted name.shown ++ ": " ++ wordingWithin v) :: wordingFields rest

end

/-- A value in a message. -/
def wording : Json → String
  | string t => t.shown
  | v => wordingWithin v

end Montage.Json
