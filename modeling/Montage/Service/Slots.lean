import Montage.Job.Basic

/-! # Slots

So many jobs may run at once.  A job that finds no free slot waits in a queue; a slot that is
given back goes to the first in the queue that has none.  A job that was handed a slot stays
in the queue until it takes notice, and nobody overtakes the queue.

A job that is told to stop is out of the queue at once (`withdraw`), unless it was handed a slot;
then it keeps the slot until it takes notice and gives it back (`leave`).
-/
namespace Montage

/-- A job in the queue, and whether a slot was handed to it. -/
structure Waiter where
  job : JobId
  granted : Bool
  deriving DecidableEq, Repr

structure Slots where
  free : Nat
  queue : List Waiter
  deriving DecidableEq, Repr

namespace Slots

def begin (count : Nat) : Slots := ⟨count, []⟩

/-- Hands a slot to the first in a queue that has none; nothing if there is no such. -/
def grantFirst? : List Waiter → Option (List Waiter)
  | [] => none
  | w :: rest =>
    if w.granted then (grantFirst? rest).map (w :: ·)
    else some ({ w with granted := true } :: rest)

/-- Hands a free slot on, if somebody waits for one. -/
def wake (s : Slots) : Slots :=
  match s.free with
  | 0 => s
  | n + 1 =>
    match grantFirst? s.queue with
    | some queue => ⟨n, queue⟩
    | none => s

/-- A slot is given back. -/
def release (s : Slots) : Slots := wake { s with free := s.free + 1 }

/-- Takes a free slot, unless others wait. -/
def take? (s : Slots) : Option Slots :=
  match s.free, s.queue with
  | n + 1, [] => some ⟨n, []⟩
  | _, _ => none

/-- Joins the queue. -/
def enqueue (s : Slots) (id : JobId) : Slots := { s with queue := s.queue ++ [⟨id, false⟩] }

/-- Whether a job in the queue was handed a slot. -/
def isGranted (s : Slots) (id : JobId) : Bool :=
  s.queue.any fun w => w.job == id && w.granted

/-- The queue without a job. -/
def without (s : Slots) (id : JobId) : Slots :=
  { s with queue := s.queue.filter fun w => w.job != id }

/-- A job that has no slot yet does not wait for one any more. -/
def withdraw (s : Slots) (id : JobId) : Slots :=
  { s with queue := s.queue.filter fun w => w.job != id || w.granted }

/-- A job goes from the queue to work, with the slot that it was handed. -/
def resume (s : Slots) (id : JobId) : Slots := (s.without id).wake

/-- A job gives up waiting. -/
def leave (s : Slots) (id : JobId) : Slots :=
  if s.isGranted id then (s.without id).release else s.without id

end Slots
end Montage
