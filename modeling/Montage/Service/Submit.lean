import Montage.Service.Basic
import Montage.Json.Writer
import Montage.Text.Foreign
import Montage.Timeline.Writer

/-! # Submitting a timeline

A submission is read, checked, given a job with a directory, and written down there twice: as
it came and in its stored form.  Only then the task of the job comes to life.  If the disk
fails on the way, the job is removed again and the fault is told.

Half of a pair may stand in a body.  The stored form cannot hold one, so a timeline that one
got into (`Submission.tear?`) leaves behind a job without a task.
-/
namespace Montage

/-- A run of halves of pairs in a text. -/
structure HalvedRun where
  /-- The first of them. -/
  half : Nat
  /-- Positions of the first and the last of them. -/
  first : Nat
  last : Nat
  deriving DecidableEq, Repr

def HalvedRun.message (r : HalvedRun) : String :=
  "'utf-8' codec can't encode " ++
    Text.runWording (['\\', 'u'] ++ Text.hex 4 r.half) r.first r.last ++
    ": surrogates not allowed"

/-- The first run of halves in a text, found by comparison with the text that has others. -/
def halvedRun? (text other : List Char) : Option HalvedRun :=
  let places := text.zip other
  let kept := (places.takeWhile fun (a, b) => a == b).length
  (places[kept]?).map fun (c, _) =>
    let run := (places.drop kept).takeWhile fun (a, b) => a != b
    ⟨JsonText.stoodFor c, kept, kept + run.length - 1⟩

/-- What is submitted: a request body, or a timeline that was read before. -/
inductive Submission where
  | body (value : Json)
  | timeline (value : Timeline)

/-- Why nothing was accepted. -/
inductive SubmitFault where
  | draining
  | request (fault : RequestFault)
  | invalid (fault : TimelineFault)
  | store (fault : StoreFault)
  /-- Half of a pair stands in the timeline. -/
  | torn (run : HalvedRun)
  deriving DecidableEq, Repr

/-- The problem that a fault is, unless the request asks the impossible or the disk fails. -/
def SubmitFault.problem? : SubmitFault → Option Problem
  | draining => some (.plain .unavailable)
  | request (.schema f) => some f.problem
  | request (.noContainer _) => none
  | invalid f => some f.problem.asValidation
  | torn _ => none
  | store f => f.problem?

/-- The timeline of a submission. -/
def Submission.read : Submission → Except RequestFault Timeline
  | body v => Timeline.ofRequest v
  | timeline t => .ok t

/-- The same submission with another half for each half of a pair. -/
def Submission.withOtherHalves : Submission → Submission
  | body v => body v.withOtherHalves
  | timeline t => timeline t

/-- The first run of halves in the stored form of a submission. -/
def Submission.tear? (s : Submission) : Option HalvedRun :=
  match s.read, s.withOtherHalves.read with
  | .ok t, .ok u => (t.toJson.texts.zip u.toJson.texts).findSome? fun (a, b) =>
      halvedRun? a.shown.toList b.shown.toList
  | _, _ => none

/-- The text that is kept of a submission. -/
def Submission.text : Submission → String
  | body v => v.write .received
  | timeline t => t.toJson.write .stored

/-- What the disk says against writing a submission down. -/
inductive DiskRefusal where
  /-- Against the submission as it came. -/
  | request (message : String)
  /-- Against its stored form. -/
  | timeline (message : String)
  deriving DecidableEq, Repr

instance : Coe String DiskRefusal := ⟨.request⟩

/-- Writes a submission down in a directory as it came, unless the disk refuses. -/
def FileTree.writeRequest (files : FileTree) (directory : Path) (submission : Submission)
    (disk : Option DiskRefusal) : Except FileFault FileTree :=
  match disk with
  | some (.request m) => .error (.disk m)
  | _ => files.write (directory ++ ["request.json"]) (.text submission.text)

/-- Writes the stored form of a timeline down in a directory. -/
def FileTree.writeTimeline (files : FileTree) (directory : Path) (t : Timeline) :
    Except FileFault FileTree :=
  files.write (directory ++ ["timeline.json"]) (.text (t.toJson.write .stored))

/-- The same, unless the disk refuses. -/
def FileTree.storeTimeline (files : FileTree) (directory : Path) (t : Timeline)
    (disk : Option DiskRefusal) : Except FileFault FileTree :=
  match disk with
  | some (.timeline m) => .error (.disk m)
  | _ => files.writeTimeline directory t

namespace Service

/-- Gives a new job up because the disk fails. -/
def giveUp (s : Service) (id : JobId) (f : FileFault) : Except SubmitFault JobId × Service :=
  match s.store.delete id with
  | (.error g, store) => (.error (.store g), s.setStore store)
  | (.ok (), store) => (.error (.store (.files f)), s.setStore store)

/-- Takes a checked timeline: job, files, task. -/
def accept (s : Service) (submission : Submission) (t : Timeline) (disk : Option DiskRefusal) :
    Except SubmitFault JobId × Service :=
  match s.store.create s.rounding s.now with
  | (.error f, store) => (.error (.store f), s.setStore store)
  | (.ok job, store) =>
    let s := s.setStore store
    match store.files.writeRequest job.directory submission disk with
    | .error f => s.giveUp job.id f
    | .ok files =>
      let s := s.setFiles files
      match submission.tear? with
      | some run => (.error (.torn run), s)
      | none =>
        match files.storeTimeline job.directory t disk with
        | .error f => s.giveUp job.id f
        | .ok files =>
          let s := s.setFiles files
          (.ok job.id, { s with tasks := s.tasks ++ [⟨job.id, t, .created, false⟩] })

/-- Submits. -/
def submit (s : Service) (submission : Submission) (disk : Option DiskRefusal) :
    Except SubmitFault JobId × Service :=
  if s.accepting then
    match submission.read with
    | .error f => (.error (.request f), s)
    | .ok t =>
      match t.check s.rounding with
      | .error f => (.error (.invalid f), s)
      | .ok () => s.accept submission t disk
  else (.error .draining, s)

end Service
end Montage
