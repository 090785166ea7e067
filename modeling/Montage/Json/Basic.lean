import Montage.Json.Text
import Montage.Number.Basic

/-! # JSON values

A request body, a settings value and the output of the probe program are JSON.  A value
keeps what the text said: whole numbers and decimals are different things, and the fields
of an object stand in the order in which their names first occurred, each name once, with
the last value given for it (`putField`).

`lookup_putField_self` and `lookup_putField_of_ne` pin down the object as a finite map,
`names_putField` its order.
-/
namespace Montage

inductive Json where
  | null
  | bool (value : Bool)
  | int (value : Int)
  | float (value : Number)
  | string (value : JsonText)
  | arr (items : List Json)
  | obj (fields : List (JsonText × Json))
  deriving Inhabited

namespace Json

/-- A text without halves of pairs. -/
@[match_pattern] abbrev str (s : String) : Json := .string (.plain s)

/-- An object whose names hold no halves of pairs. -/
def ofFields (fields : List (String × Json)) : Json := .obj (fields.map fun f => (.plain f.1, f.2))

/-- The value of a field. -/
def lookup (name : JsonText) : List (JsonText × Json) → Option Json
  | [] => none
  | (n, v) :: rest => if n = name then some v else lookup name rest

/-- Gives a field a value; a name that is already there keeps its place. -/
def putField (name : JsonText) (value : Json) : List (JsonText × Json) → List (JsonText × Json)
  | [] => [(name, value)]
  | (n, v) :: rest => if n = name then (n, value) :: rest else (n, v) :: putField name value rest

theorem lookup_putField_self (name : JsonText) (value : Json) (fields : List (JsonText × Json)) :
    lookup name (putField name value fields) = some value := by
  induction fields with
  | nil => simp [putField, lookup]
  | cons f rest ih =>
    obtain ⟨n, v⟩ := f
    by_cases h : n = name <;> simp [putField, lookup, h, ih]

theorem lookup_putField_of_ne {name other : JsonText} (h : other ≠ name) (value : Json)
    (fields : List (JsonText × Json)) :
    lookup other (putField name value fields) = lookup other fields := by
  induction fields with
  | nil => simp [putField, lookup, Ne.symm h]
  | cons f rest ih =>
    obtain ⟨n, v⟩ := f
    by_cases hn : n = name
    · subst hn; simp [putField, lookup, Ne.symm h]
    · by_cases ho : n = other
      · subst ho; simp [putField, lookup, hn]
      · simp [putField, lookup, hn, ho, ih]

theorem names_putField (name : JsonText) (value : Json) (fields : List (JsonText × Json)) :
    (putField name value fields).map Prod.fst =
      if name ∈ fields.map Prod.fst then fields.map Prod.fst
      else fields.map Prod.fst ++ [name] := by
  induction fields with
  | nil => simp [putField]
  | cons f rest ih =>
    obtain ⟨n, v⟩ := f
    by_cases hn : n = name
    · simp [putField, hn]
    · by_cases hm : name ∈ rest.map Prod.fst <;>
        simp_all [putField, Ne.symm hn]

/-- Null, false, zero, and texts, lists and objects with nothing in them say nothing. -/
def saysSomething : Json → Bool
  | null => false
  | bool b => b
  | int n => n != 0
  | float x => !x.isZero
  | string t => !t.codes.isEmpty
  | arr items => !items.isEmpty
  | obj fields => !fields.isEmpty

/-- The value of a field of an object; nothing for other values. -/
def field? (j : Json) (name : String) : Option Json :=
  match j with
  | obj fields => lookup name fields
  | _ => none

mutual

/-- The same value with another half for each half that stands in a text; names stay. -/
def withOtherHalves : Json → Json
  | string t => string t.withOtherHalves
  | arr items => arr (otherItems items)
  | obj fields => obj (otherFields fields)
  | v => v

/-- The items of a list with other halves. -/
def otherItems : List Json → List Json
  | [] => []
  | v :: rest => v.withOtherHalves :: otherItems rest

/-- The values of fields with other halves. -/
def otherFields : List (JsonText × Json) → List (JsonText × Json)
  | [] => []
  | (name, v) :: rest => (name, v.withOtherHalves) :: otherFields rest

end

mutual

/-- The texts of a value in the order of writing; names do not count. -/
def texts : Json → List JsonText
  | string t => [t]
  | arr items => itemTexts items
  | obj fields => fieldTexts fields
  | _ => []

/-- The texts of the items of a list. -/
def itemTexts : List Json → List JsonText
  | [] => []
  | v :: rest => v.texts ++ itemTexts rest

/-- The texts of the values of fields. -/
def fieldTexts : List (JsonText × Json) → List JsonText
  | [] => []
  | (_, v) :: rest => v.texts ++ fieldTexts rest

end

/-- A text or nothing. -/
def ofOption (f : α → Json) : Option α → Json
  | none => null
  | some a => f a

end Json
end Montage
