import Montage.Clock.Timestamp
import Montage.Job.Basic
import Montage.Problem

/-! # The store of jobs

A store holds the records of its jobs in the order of their creation, and the tree of files in
which each job has a directory of its own below the root.  It is told what time it is; what
would record a time that has no date fails, and may leave its work half done.

Removing a job goes in two parts.  `detach` forgets the record and moves the directory aside,
to a hidden name beside it; `clear` removes what was moved aside.  `delete` and `expire` are
both parts in one; a caller that does something else in between uses the parts.
-/
namespace Montage

structure Store where
  root : Path
  /-- How many ids were given out. -/
  issued : Nat
  jobs : List Job
  files : FileTree
  deriving DecidableEq, Repr

/-- Why the store refuses something. -/
inductive StoreFault where
  | notFound (id : JobId)
  | notReady (id : JobId) (state : JobState)
  | notForward (id : JobId) (source target : JobState)
  | files (fault : FileFault)
  /-- The time has no date. -/
  | clock (fault : Timestamp.ClockFault)
  deriving DecidableEq, Repr

/-- The problem that a fault is, unless it is one of the program or of the disk. -/
def StoreFault.problem? : StoreFault → Option Problem
  | notFound id => some (.notFound (some id))
  | notReady id s => some (.notReady (some id) (some s.word))
  | _ => none

def StoreFault.message : StoreFault → String
  | notForward id a b => "Job " ++ id ++ ": cannot move from " ++ a.word ++ " to " ++ b.word
  | files f => f.message
  | clock f => f.message
  | notFound id => (Problem.notFound (some id)).message
  | notReady id s => (Problem.notReady (some id) (some s.word)).message

namespace Store

/-- A store without jobs over a tree of files. -/
def begin (root : Path) (files : FileTree) : Store := ⟨root, 0, [], files⟩

/-- The record of a job. -/
def find? (s : Store) (id : JobId) : Option Job := s.jobs.find? fun j => j.id == id

/-- A job has had the id. -/
def hasIssued (s : Store) (id : JobId) : Bool :=
  (List.range s.issued).any fun n => jobId (n + 1) == id

/-- Directory of the job with an id. -/
def directory (s : Store) (id : JobId) : Path := s.root ++ [id]

/-- Changes one record. -/
def modify (s : Store) (id : JobId) (f : Job → Job) : Store :=
  { s with jobs := s.jobs.map fun j => if j.id == id then f j else j }

/-- A new job with an empty directory.  The id is used up even if the directory cannot be
made, and the directory is made even if there is no date for the record.  Unless somebody sets
it, the clock reads like the steady one. -/
def create (s : Store) (r : Rounding) (now : Number) (steady : Number := now) :
    Except StoreFault Job × Store :=
  let id := jobId (s.issued + 1)
  let s := { s with issued := s.issued + 1 }
  match s.files.makeDirectory (s.directory id) with
  | .error f => (.error (.files f), s)
  | .ok files =>
    match Timestamp.check r now with
    | .error f => (.error (.clock f), { s with files })
    | .ok () =>
      let job := Job.fresh id (s.directory id) now steady
      (.ok job, { s with files, jobs := s.jobs ++ [job] })

def get (s : Store) (id : JobId) : Except StoreFault Job :=
  match s.find? id with
  | some j => .ok j
  | none => .error (.notFound id)

/-- Size of the output of a job, if it has one. -/
def outputSize? (s : Store) (j : Job) : Option Nat :=
  s.files.size? j.outputPath

/-- Moves a job forward.  When the time has no date the job has moved, but nothing else about
the move is recorded. -/
def transition (s : Store) (r : Rounding) (id : JobId) (state : JobState)
    (error stage : Option String) (now : Number) : Except StoreFault Job × Store :=
  match s.find? id with
  | none => (.error (.notFound id), s)
  | some j =>
    if j.state.canMoveTo state then
      match Timestamp.check r now with
      | .error f => (.error (.clock f), s.modify id fun _ => j.enter state stage)
      | .ok () =>
        let next := j.move state error stage (s.outputSize? j) now
        (.ok next, s.modify id fun _ => next)
    else (.error (.notForward id j.state state), s)

/-- Notes the progress of a job; without the job nothing happens. -/
def setStage (s : Store) (id : JobId) (stage : String) : Store := s.modify id fun j => j.note stage

/-- Opens the output of a completed job. -/
def openOutput (s : Store) (id : JobId) : Except StoreFault Handle :=
  match s.find? id with
  | none => .error (.notFound id)
  | some j =>
    if j.state = .completed then (s.files.openFile j.outputPath).mapError .files
    else .error (.notReady id j.state)

/-! ### Removing -/

/-- Where a directory goes when it is moved aside. -/
def trashOf (directory : Path) : Path := directory.withName (".trash-" ++ directory.name)

/-- Forgets a job and moves its directory aside, if it is there.  The record is forgotten
first, and stays forgotten if the move fails. -/
def detach (s : Store) (id : JobId) : Except StoreFault (Option Path) × Store :=
  match s.find? id with
  | none => (.error (.notFound id), s)
  | some j =>
    let s := { s with jobs := s.jobs.filter fun k => k.id != id }
    if s.files.exists? j.directory then
      match s.files.rename j.directory (trashOf j.directory) with
      | .error f => (.error (.files f), s)
      | .ok files => (.ok (some (trashOf j.directory)), { s with files })
    else (.ok none, s)

/-- Removes what was moved aside. -/
def clear (s : Store) (trash : List Path) : Store :=
  { s with files := trash.foldl FileTree.remove s.files }

/-- Forgets a job and removes its directory. -/
def delete (s : Store) (id : JobId) : Except StoreFault Unit × Store :=
  match s.detach id with
  | (.error f, s) => (.error f, s)
  | (.ok trash, s) => (.ok (), s.clear trash.toList)

/-- Whether a job has been there for the given time of the steady clock. -/
def hasExpired (r : Rounding) (lifetime now : Number) (j : Job) : Bool :=
  Number.le lifetime (Number.sub r now j.since)

/-- Jobs that have been there for the given time, whatever their state. -/
def expired (s : Store) (r : Rounding) (lifetime now : Number) : List JobId :=
  (s.jobs.filter (hasExpired r lifetime now)).map Job.id

/-- Detaches jobs one after the other, up to the first that fails. -/
def detachAll (s : Store) : List JobId → Except StoreFault (List Path) × Store
  | [] => (.ok [], s)
  | id :: rest =>
    match s.detach id with
    | (.error f, s) => (.error f, s)
    | (.ok trash, s) =>
      match s.detachAll rest with
      | (.error f, s) => (.error f, s)
      | (.ok more, s) => (.ok (trash.toList ++ more), s)

/-- Goes through jobs and detaches those that have been there for the given time, up to the first that
fails; the ids of the jobs, and what was moved aside. -/
def detachExpired (s : Store) (r : Rounding) (lifetime now : Number) :
    List Job → Except StoreFault (List JobId × List Path) × Store
  | [] => (.ok ([], []), s)
  | j :: rest =>
    if hasExpired r lifetime now j then
      match s.detach j.id with
      | (.error f, s) => (.error f, s)
      | (.ok trash, s) =>
        match s.detachExpired r lifetime now rest with
        | (.error f, s) => (.error f, s)
        | (.ok (ids, more), s) => (.ok (j.id :: ids, trash.toList ++ more), s)
    else s.detachExpired r lifetime now rest

/-- Removes the jobs that have been there for the given time and gives their ids.  It goes through the
jobs that there are when it begins. -/
def expire (s : Store) (r : Rounding) (lifetime now : Number) :
    Except StoreFault (List JobId) × Store :=
  match s.detachExpired r lifetime now s.jobs with
  | (.error f, s) => (.error f, s)
  | (.ok (ids, trash), s) => (.ok ids, s.clear trash)

end Store
end Montage
