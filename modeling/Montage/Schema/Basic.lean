import Montage.Json.Basic
import Montage.Number.Literal

/-! # Reading records out of JSON values

A request, a setting and a media reference are read out of JSON values by small readers
`Json → Except Fault α`.  A reader stops at the **first fault**: fields are read in the
order of their declaration, items in the order of the list.  A `Fault` says what was wrong
and where, as the steps from the outermost value inwards.

Half of a pair may stand in a text that is kept as it is, but not in one that stands for a
word or a number.

Readers are generous with scalars.  A decimal may be a whole number, a truth value or a
text that writes one; an integer may be a truth value, a decimal without a fraction or a
text.  A field has two spellings (`FieldName`), of which the first one counts if both are
there; a fault names the spelling that the record used.
-/
namespace Montage.Schema

/-- One step into a value. -/
inductive Step where
  | field (name : String)
  | index (n : Nat)
  deriving DecidableEq, Repr

def Step.text : Step → String
  | field name => name
  | index n => toString n

/-- What is wrong with a value. -/
inductive Cause where
  | missing
  /-- The value is no record of the named kind. -/
  | record (name : String)
  | list
  | text
  /-- A text holds half of a pair. -/
  | halved
  /-- The value is none of the words that are allowed here. -/
  | word (allowed : List String)
  | decimal
  | decimalText
  | integer
  | integerText
  | fraction
  | tooLarge
  | notFinite
  /-- The record as a whole breaks a rule. -/
  | rule (message : String)
  deriving DecidableEq, Repr

/-- Words between quotes, the last one set off. -/
def alternatives : List String → String
  | [] => ""
  | [w] => "'" ++ w ++ "'"
  | [v, w] => "'" ++ v ++ "' or '" ++ w ++ "'"
  | w :: rest => "'" ++ w ++ "', " ++ alternatives rest

def Cause.message : Cause → String
  | missing => "Field required"
  | record name => "Input should be a valid dictionary or instance of " ++ name
  | list => "Input should be a valid list"
  | text => "Input should be a valid string"
  | halved => "Input should be a valid string, unable to parse raw data as a unicode string"
  | word allowed => "Input should be " ++ alternatives allowed
  | decimal => "Input should be a valid number"
  | decimalText => "Input should be a valid number, unable to parse string as a number"
  | integer => "Input should be a valid integer"
  | integerText => "Input should be a valid integer, unable to parse string as an integer"
  | fraction => "Input should be a valid integer, got a number with a fractional part"
  | tooLarge => "Unable to parse input string as an integer, exceeded maximum size"
  | notFinite => "Input should be a finite number"
  | rule message => "Value error, " ++ message

structure Fault where
  path : List Step
  cause : Cause
  deriving DecidableEq, Repr

namespace Fault

/-- A fault of the value itself. -/
def here (cause : Cause) : Fault := ⟨[], cause⟩

/-- The same fault, seen from outside a step. -/
def under (step : Step) (f : Fault) : Fault := { f with path := step :: f.path }

def message (f : Fault) : String := f.cause.message

/-- The steps with points between them. -/
def place (f : Fault) : String := ".".intercalate (f.path.map Step.text)

end Fault

abbrev Reader (α : Type) := Json → Except Fault α

/-- The two spellings of a field. -/
structure FieldName where
  camel : String
  snake : String
  deriving DecidableEq, Repr

/-- A field that has one spelling only. -/
def FieldName.plain (name : String) : FieldName := ⟨name, name⟩

/-- The value of a field and the spelling under which it was found. -/
def FieldName.find? (n : FieldName) (fields : List (JsonText × Json)) : Option (String × Json) :=
  match Json.lookup n.camel fields with
  | some v => some (n.camel, v)
  | none => (Json.lookup n.snake fields).map fun v => (n.snake, v)

/-- Reads what stands behind a step. -/
def inside (step : Step) (read : Reader α) (v : Json) : Except Fault α :=
  match read v with
  | .ok a => .ok a
  | .error f => .error (f.under step)

/-- A field that has to be there. -/
def required (fields : List (JsonText × Json)) (n : FieldName) (read : Reader α) : Except Fault α :=
  match n.find? fields with
  | some (spelling, v) => inside (.field spelling) read v
  | none => .error ((Fault.here .missing).under (.field n.camel))

/-- A field with a value for its absence. -/
def optional (fields : List (JsonText × Json)) (n : FieldName) (absent : α) (read : Reader α) :
    Except Fault α :=
  match n.find? fields with
  | some (spelling, v) => inside (.field spelling) read v
  | none => .ok absent

/-- Null, or what another reader takes. -/
def nullable (read : Reader α) : Reader (Option α)
  | .null => .ok none
  | v => (read v).map some

/-- A field that may be absent or null. -/
def maybe (fields : List (JsonText × Json)) (n : FieldName) (read : Reader α) :
    Except Fault (Option α) :=
  optional fields n none (nullable read)

/-- Items from an index on. -/
def readItems (read : Reader α) (index : Nat) : List Json → Except Fault (List α)
  | [] => .ok []
  | v :: rest =>
    match inside (.index index) read v with
    | .error f => .error f
    | .ok a =>
      match readItems read (index + 1) rest with
      | .error f => .error f
      | .ok as => .ok (a :: as)

/-- A list, item by item. -/
def listOf (read : Reader α) : Reader (List α)
  | .arr items => readItems read 0 items
  | _ => .error (.here .list)

/-- The fields of a record of the given kind. -/
def record (kind : String) : Reader (List (JsonText × Json))
  | .obj fields => .ok fields
  | _ => .error (.here (.record kind))

/-- A text; private characters stand in it for halves of pairs. -/
def text : Reader String
  | .string t => .ok t.shown
  | _ => .error (.here .text)

/-- One of several words. -/
def word (words : List (String × α)) : Reader α
  | .str s =>
    match words.find? (·.1 == s) with
    | some (_, a) => .ok a
    | none => .error (.here (.word (words.map Prod.fst)))
  | .string _ => .error (.here .halved)
  | _ => .error (.here (.word (words.map Prod.fst)))

def decimal : Reader Number
  | .float x => .ok x
  | .int n =>
    match Number.ofInt? n with
    | some x => .ok x
    | none => .error (.here .decimal)
  | .bool b => .ok (.finite (if b then 1 else 0))
  | .str s =>
    match Number.requestDecimal? s with
    | some x => .ok x
    | none => .error (.here .decimalText)
  | .string _ => .error (.here .halved)
  | _ => .error (.here .decimal)

/-- The integer that a decimal without a fraction stands for; it fits into 64 bits. -/
def integerOfDecimal (x : Number) : Except Fault Int :=
  if !x.isFinite then .error (.here .notFinite)
  else if x.rat.den ≠ 1 then .error (.here .fraction)
  else if x.rat.num.natAbs < Nat.pow 2 63 then .ok x.rat.num
  else .error (.here .tooLarge)

def integer : Reader Int
  | .int n => .ok n
  | .bool b => .ok (if b then 1 else 0)
  | .float x => integerOfDecimal x
  | .str s =>
    match Number.requestInteger s with
    | .ok n => .ok n
    | .error .form => .error (.here .integerText)
    | .error .size => .error (.here .tooLarge)
  | .string _ => .error (.here .halved)
  | _ => .error (.here .integer)

/-- Refuses a record that breaks a rule. -/
def require (rule : Bool) (message : String) : Except Fault Unit :=
  if rule then .ok () else .error (.here (.rule message))

end Montage.Schema
