import Montage.Number.Literal
import Montage.Plan.Basic
import Montage.Problem
import Montage.Text.Digit
import Montage.Text.Lines
import Montage.Text.Order

/-! # Labels of a plan

A label either names a **stream of an input file** or a stream that some chain writes.  In a
sound plan every other label is written once, read once, and written before it is read.

The check reads the plan as a sequence of **events**: chain by chain, each label that is read
and then the label that is written; at the encoder the labels that go into the output.  It
keeps the labels written and the labels read so far, and at the end asks for labels that
were written and never read.
-/
namespace Montage

/-- What happens to labels in the course of a plan, with the name of the stage. -/
inductive LabelEvent (ℓ : Type) where
  | read (stage : String) (label : ℓ)
  | write (stage : String) (label : ℓ)
  deriving DecidableEq, Repr

namespace Stage
variable {ℓ φ : Type}

/-- Events of one chain. -/
def chainEvents (stage : String) (c : Chain ℓ φ) : List (LabelEvent ℓ) :=
  c.inputs.map (.read stage) ++ [.write stage c.output]

/-- Events of a stage. -/
def events (s : Stage ℓ φ) : List (LabelEvent ℓ) :=
  if s.kind = .encode then s.maps.map (.read s.name)
  else s.chains.flatMap (chainEvents s.name)

end Stage

/-- Events of a plan in order. -/
def Plan.events {ℓ φ : Type} (p : Plan ℓ φ) : List (LabelEvent ℓ) := p.stages.flatMap Stage.events

/-- What is wrong with the labels of a plan. -/
inductive LabelFault (ℓ : Type) where
  | missingInput (stage : String) (label : ℓ)
  | unwritten (stage : String) (label : ℓ)
  | readTwice (stage : String) (label : ℓ)
  | writtenTwice (stage : String) (label : ℓ)
  | unread (labels : List ℓ)
  deriving DecidableEq, Repr

/-- The fault of a plan with other labels in place of its own. -/
def LabelFault.map {ℓ ℓ' : Type} (f : ℓ → ℓ') : LabelFault ℓ → LabelFault ℓ'
  | missingInput s l => missingInput s (f l)
  | unwritten s l => unwritten s (f l)
  | readTwice s l => readTwice s (f l)
  | writtenTwice s l => writtenTwice s (f l)
  | unread ls => unread (ls.map f)

/-- Labels written and labels read so far. -/
structure LabelState (ℓ : Type) where
  written : List ℓ
  consumed : List ℓ
  deriving DecidableEq, Repr

section Check
variable {ℓ φ : Type} [DecidableEq ℓ]

/-- Takes one event; `stream` tells which input file a label names a stream of. -/
def LabelState.step (stream : ℓ → Option Nat) (inputs : Nat) (s : LabelState ℓ) :
    LabelEvent ℓ → Except (LabelFault ℓ) (LabelState ℓ)
  | .read stage l =>
    match stream l with
    | some i => if i < inputs then .ok s else .error (.missingInput stage l)
    | none =>
      if l ∉ s.written then .error (.unwritten stage l)
      else if l ∈ s.consumed then .error (.readTwice stage l)
      else .ok { s with consumed := l :: s.consumed }
  | .write stage l =>
    if l ∈ s.written ∨ (stream l).isSome then .error (.writtenTwice stage l)
    else .ok { s with written := l :: s.written }

/-- Takes events one after the other. -/
def LabelState.run (stream : ℓ → Option Nat) (inputs : Nat) (s : LabelState ℓ) :
    List (LabelEvent ℓ) → Except (LabelFault ℓ) (LabelState ℓ)
  | [] => .ok s
  | e :: rest =>
    match s.step stream inputs e with
    | .error f => .error f
    | .ok s => LabelState.run stream inputs s rest

/-- Refuses a plan whose labels do not fit together. -/
def Plan.checkLabels (stream : ℓ → Option Nat) (p : Plan ℓ φ) : Except (LabelFault ℓ) Unit :=
  match LabelState.run stream p.inputs.length ⟨[], []⟩ p.events with
  | .error f => .error f
  | .ok s =>
    match s.written.filter fun l => l ∉ s.consumed with
    | [] => .ok ()
    | unread => .error (.unread unread)

end Check

/-- Labels in the order of their code points. -/
def sortedLabels (labels : List String) : List String :=
  labels.mergeSort fun a b => Text.precedes a.toList b.toList

def LabelFault.message : LabelFault String → String
  | missingInput stage l => "Stage " ++ stage ++ " reads missing input " ++ bracketed l
  | unwritten stage l => "Stage " ++ stage ++ " reads " ++ bracketed l ++ " before it is produced"
  | readTwice stage l => "Label " ++ bracketed l ++ " consumed twice (in " ++ stage ++ ")"
  | writtenTwice stage l => "Label " ++ bracketed l ++ " written twice in " ++ stage
  | unread labels => "Unconsumed labels in plan: " ++ ", ".intercalate (sortedLabels labels)

def LabelFault.problem (f : LabelFault String) : Problem := .saying .compile f.message none

/-! ### Labels that are texts -/

/-- The digits of the input file whose stream a text names: digits, a colon, and `v` or `a`; a
line feed at the end is overlooked. -/
def streamDigits? (label : String) : Option (List Nat) :=
  match Number.takeDigits Text.digitValue? (Text.dropFinalFeed label.toList) with
  | ([], _) => none
  | (ds, [':', c]) => if c = 'v' ∨ c = 'a' then some ds else none
  | _ => none

/-- The input file whose stream a text names. -/
def streamOfText? (label : String) : Option Nat := (streamDigits? label).map Number.ofDigits

/-- What is wrong with the labels of a plan of texts. -/
inductive TextLabelFault where
  | label (fault : LabelFault String)
  /-- The number of an input file has so many digits, which are too many. -/
  | longNumber (digits : Nat)
  deriving DecidableEq, Repr

/-- The problem that a fault is; a long number is none of the plan. -/
def TextLabelFault.problem? : TextLabelFault → Option Problem
  | label f => some f.problem
  | longNumber _ => none

def TextLabelFault.message : TextLabelFault → String
  | label f => f.message
  | longNumber n => Number.longIntegerMessage n

/-- The count of digits of an input file that is read, if they are too many. -/
def LabelEvent.longNumber? : LabelEvent String → Option Nat
  | read _ l => ((streamDigits? l).map List.length).filter (Number.longestInteger < ·)
  | write _ _ => none

/-- Refuses a plan of texts whose labels do not fit together, up to the first number of an
input file that cannot be read. -/
def Plan.checkTexts (p : TextPlan) : Except TextLabelFault Unit :=
  match p.events.findSome? LabelEvent.longNumber? with
  | none => (p.checkLabels streamOfText?).mapError .label
  | some digits =>
    let before := p.events.takeWhile fun e => e.longNumber?.isNone
    match LabelState.run streamOfText? p.inputs.length ⟨[], []⟩ before with
    | .error f => .error (.label f)
    | .ok _ => .error (.longNumber digits)

end Montage
