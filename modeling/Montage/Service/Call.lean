import Montage.Service.Basic

/-! # Calls

A call that removes jobs goes in three parts.  It tells the tasks of the jobs to stop, one
after the other, and waits for the end of each (`CallPhase.cancelling`); then it removes the
jobs from the store in one step; then it removes the directories that were moved aside
(`CallPhase.clearing`).  A sweep asks a second time which jobs are too old when it removes
them, at the time at which it began.

Draining refuses new jobs at once, leaves the tasks that are there to themselves, and tells
those to stop that are still there when its patience is over.  What can move at once does not
wait for the clock: a task takes its first move before a call that waits for it can lose its
patience.
-/
namespace Montage

namespace Service

/-- Removes from the store what a call is to remove; the next part of the call. -/
def remove (s : Service) : Goal → Service × CallPhase
  | .delete id | .forget id =>
    match s.store.detach id with
    | (.error f, store) => (s.setStore store, .done (.error f))
    | (.ok trash, store) => (s.setStore store, .clearing trash.toList [id])
  | .sweep time =>
    let ids := s.store.expired s.rounding s.setup.lifetime time
    match s.store.detachAll ids with
    | (.error f, store) => (s.setStore store, .done (.error f))
    | (.ok trash, store) => (s.setStore store, .clearing trash ids)
  | .drain _ => (s, .done (.ok []))

/-- Tells the first of the jobs that has a task to stop; without such a job removes. -/
def cancelNext (s : Service) (goal : Goal) : List JobId → Service × CallPhase
  | [] => s.remove goal
  | id :: rest =>
    if (s.task? id).isSome then (s.cancel id, .cancelling (id :: rest))
    else s.cancelNext goal rest

/-- Removes the next directory that was moved aside. -/
def clearNext (s : Service) (removed : List JobId) : List Path → Service × CallPhase
  | [] => (s, .done (.ok removed))
  | p :: rest => (s.setStore (s.store.clear [p]), .clearing rest removed)

/-- The first part of a call. -/
def beginCall (s : Service) : Goal → Service × CallPhase
  | .delete id => s.cancelNext (.delete id) [id]
  | .forget id => s.remove (.forget id)
  | .sweep time =>
    s.cancelNext (.sweep time) (s.store.expired s.rounding s.setup.lifetime time)
  | .drain _ =>
    let s := { s with accepting := false }
    match s.tasks.map Task.job with
    | [] => (s, .done (.ok []))
    | jobs => (s, .patient jobs)

/-- A move of a call that stands at a phase. -/
def advance (s : Service) (goal : Goal) : CallPhase → Service × CallPhase
  | .cancelling (id :: rest) =>
    if (s.task? id).isSome then (s, .cancelling (id :: rest)) else s.cancelNext goal rest
  | .cancelling [] => s.remove goal
  | .patient jobs =>
    if s.anyLive jobs then (s, .patient jobs) else (s, .done (.ok []))
  | .gathering jobs =>
    if s.anyLive jobs then (s, .gathering jobs) else (s, .done (.ok []))
  | .clearing trash removed => s.clearNext removed trash
  | .done r => (s, .done r)

/-- Whether the task of a job has not moved yet. -/
def isNew (s : Service) (id : JobId) : Bool := (s.task? id).any fun t => t.phase.isNew

/-- The patience of a call is over. -/
def losePatience (s : Service) : CallPhase → Service × CallPhase
  | .patient jobs =>
    let live := jobs.filter fun id => (s.task? id).isSome
    if live.any s.isNew then (s, .patient jobs) else (live.foldl cancel s, .gathering live)
  | phase => (s, phase)

/-- Changes the call with a number. -/
def withCall (s : Service) (index : Nat)
    (f : Service → Goal → CallPhase → Service × CallPhase) : Service :=
  match s.calls[index]? with
  | none => s
  | some c =>
    let (s, phase) := f s c.goal c.phase
    { s with calls := s.calls.set index { c with phase } }

/-- Begins a call; its number is the count of calls before it. -/
def ask (s : Service) (goal : Goal) : Service :=
  let (s, phase) := s.beginCall goal
  { s with calls := s.calls ++ [⟨goal, phase⟩] }

/-- The goal of a sweep that begins now. -/
def sweepNow (s : Service) : Goal := .sweep s.now

/-- The result of a call that has come to its end. -/
def answer? (s : Service) (index : Nat) : Option (Except StoreFault (List JobId)) :=
  match s.calls[index]? with
  | some c => match c.phase with
    | .done r => some r
    | _ => none
  | none => none

end Service
end Montage
