import Montage.Service.Call
import Montage.Service.Submit
import Montage.Service.Task

/-! # Runs of the service

`Service.step` takes one event, and a run takes a list of them.  An event that cannot happen
in a state changes nothing: a task that is told to stop hears no answers any more, though its
downloads go on until it takes notice, and a process that has ended writes nothing.

Events are of three sorts.  Submissions and calls come from clients.  Tasks and calls move by
themselves.  All others are answers of the world: what servers send, what the probe program
finds, what a process writes, that time passes.

What a task waits for can also fail in a way that nobody has foreseen (`Event.raised`).  A copy
that was under way when its download was given up goes on by itself (`Event.strayed`), a process
writes its output little by little (`Event.produced`), and others use the same disk
(`Event.disk`).
-/
namespace Montage

inductive Event where
  /-- A client submits; `disk` is what the disk says against writing it down. -/
  | submitted (submission : Submission) (disk : Option DiskRefusal)
  | asked (goal : Goal)
  /-- The task of a job moves. -/
  | moved (job : JobId)
  /-- Something happens to a download of a job. -/
  | download (job : JobId) (index : Nat) (event : DownloadEvent)
  /-- The next file of a job was probed. -/
  | probed (job : JobId) (outcome : Probe.Outcome)
  | spawned (job : JobId) (outcome : SpawnOutcome)
  | wrote (job : JobId) (output errors : List UInt8)
  /-- A process has made so many bytes of its output. -/
  | produced (job : JobId) (size : Nat)
  /-- A process ends; perhaps it leaves an output of so many bytes. -/
  | exited (job : JobId) (code : Int) (size : Option Nat)
  /-- What the task of a job waits for fails, and nobody has foreseen how. -/
  | raised (job : JobId) (message : String)
  /-- A copy that nobody waits for any more writes among the assets of a job. -/
  | strayed (job : JobId) (name : String) (content : Content)
  /-- A call moves. -/
  | advanced (call : Nat)
  /-- The patience of a call is over. -/
  | outOfPatience (call : Nat)
  | ticked (seconds : Number)
  /-- Others change the files. -/
  | disk (files : FileTree)

namespace Service

/-- The task of a job, unless it was told to stop. -/
def listening? (s : Service) (id : JobId) : Option Task := (s.task? id).filter fun t => !t.cancelled

/-- What a download event does; only a task that was told to stop gives a download up. -/
def takeDownload (s : Service) (t : Task) (index : Nat) (e : DownloadEvent) : Service :=
  match t.phase with
  | .fetching ds =>
    if e = .abandoned ∧ t.cancelled = false then s
    else
      let (ds, files) := ds.step s.setup.fetcher s.store.files index e
      (s.setFiles files).setPhase t.job (.fetching ds)
  | _ => s

/-- What an unforeseen failure does. -/
def takeFailure (s : Service) (t : Task) (message : String) : Service :=
  if t.phase.holdsSlot then s.leave t.job (some (unforeseen message)) else s

/-- Writes among the assets of a job, if there ever was such a job and there is a place for them. -/
def stray (s : Service) (id : JobId) (name : String) (content : Content) : Service :=
  if s.store.hasIssued id then
    match s.store.files.write (s.store.directory id ++ [Job.assetsName, name]) content with
    | .ok files => s.setFiles files
    | .error _ => s
  else s

/-- What the end of a process does. -/
def takeEnd (s : Service) (id : JobId) (code : Int) (size : Option Nat) : Service :=
  if s.process? id = some .running then
    let s := (s.setProcess id (.exited code)).leaveOutput id size
    match s.listening? id with
    | some t => match t.phase with
      | .encoding plan watch => s.takeExit t plan watch code
      | _ => s
    | none => s
  else s

def step (s : Service) : Event → Service
  | .submitted submission disk => (s.submit submission disk).2
  | .asked goal => s.ask goal
  | .moved id =>
    match s.task? id with
    | some t => s.moveTask t
    | none => s
  | .download id index e =>
    match s.task? id with
    | some t => s.takeDownload t index e
    | none => s
  | .probed id outcome =>
    match s.listening? id with
    | some t => match t.phase with
      | .probing done ((source, path) :: left) => s.takeProbed t outcome done source path left
      | _ => s
    | none => s
  | .spawned id outcome =>
    match s.listening? id with
    | some t => match t.phase with
      | .starting plan => s.takeSpawned t plan outcome
      | _ => s
    | none => s
  | .wrote id output errors =>
    match s.listening? id with
    | some t => match t.phase with
      | .encoding plan watch =>
        if s.process? id = some .running then s.takeWritten t plan watch output errors else s
      | _ => s
    | none => s
  | .produced id size =>
    if s.process? id = some .running then s.leaveOutput id (some size) else s
  | .exited id code size => s.takeEnd id code size
  | .raised id message =>
    match s.listening? id with
    | some t => s.takeFailure t message
    | none => s
  | .strayed id name content => s.stray id name content
  | .advanced index => s.withCall index advance
  | .outOfPatience index => s.withCall index fun s _ phase => s.losePatience phase
  | .ticked seconds => { s with now := Number.add s.rounding s.now seconds }
  | .disk files => s.setFiles files

/-- The state after a list of events. -/
def run (s : Service) (events : List Event) : Service := events.foldl step s

@[simp] theorem run_nil (s : Service) : s.run [] = s := rfl

@[simp] theorem run_cons (s : Service) (e : Event) (rest : List Event) :
    s.run (e :: rest) = (s.step e).run rest := rfl

theorem run_append (s : Service) (a b : List Event) : s.run (a ++ b) = (s.run a).run b := by
  simp [run]

end Service
end Montage
