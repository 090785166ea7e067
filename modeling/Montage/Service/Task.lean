import Montage.Json.Writer
import Montage.Service.Basic

/-! # Tasks

How the task of a job moves.  On the way to its end a task holds a slot, from its first move
on or from the moment it was handed one in the queue.  Every way out of the work leads through
`Service.leave`, which gives the slot back, records the failure if there is one, and ends the
task.

A task that was told to stop takes one more move (`Service.stop`): it gives up what it was
waiting for, kills the process of the engine, and records that it was cancelled.  A task that
had not moved at all ends without a trace.
-/
namespace Montage

/-! ### What is fetched -/

/-- Kinds of the sources of a timeline, the first mention of each source first. -/
def Timeline.kinds (t : Timeline) : List (String × String) :=
  (t.clips ++ t.soundtrack).flatMap fun c =>
    (c.source.key, c.mediaType.word) ::
      (c.overlays.filterMap fun o => o.content.source?).map fun s => (s.key, "image")

/-- The kind of a source. -/
def Timeline.kindOf (t : Timeline) (s : MediaSource) : String := (t.kinds.lookup s.key).getD ""

/-- Where sources from an index on are fetched to. -/
def fetchItems (t : Timeline) (directory : Path) (index : Nat) :
    List MediaSource → Except UrlParts.Fault (List (MediaSource × Path))
  | [] => .ok []
  | s :: rest => do
    let suffix ← suffixFor s (t.kindOf s)
    let more ← fetchItems t directory (index + 1) rest
    .ok ((s, directory ++ [toString index ++ suffix]) :: more)

/-- Name of the directory of a job's assets. -/
def Job.assetsName : String := "assets"

/-- The directory of a job's assets. -/
def Job.assets (j : Job) : Path := j.directory ++ [assetsName]

/-- What the plan reads from a fetched file; its path is seen from the job's directory. -/
def assetOf (directory path : Path) (i : Probe.MediaInfo) : Asset :=
  ⟨((directory.below? path).getD path).text, i.hasVideo, i.hasAudio, i.duration⟩

/-! ### Messages -/

/-- A failure that nobody has foreseen. -/
def unforeseen (message : String) : String := "Internal error: " ++ message

def cancelledMessage : String := "Render cancelled"

/-- The failure that a fault of the store is; a job that is gone cannot fail. -/
def storeFailure? : StoreFault → Option String
  | .notFound _ => none
  | f => some (match f.problem? with
    | some p => p.message
    | none => unforeseen f.message)

def fetchFailure (f : FetchFault) : String :=
  match f.problem? with
  | some p => p.message
  | none => unforeseen f.message

/-- The failure of a probe; a fault of the file names the source. -/
def probeFailure (s : MediaSource) (f : Probe.Fault) : String :=
  if f.isOfFile then "Unreadable media " ++ s.wording ++ ": " ++ f.message
  else unforeseen f.message

/-- The failure of an output of so many bytes. -/
def outputFailure (size : Nat) : String :=
  (Problem.engine .outputInvalid
    (some ("Output video invalid or empty (" ++ toString size ++ " bytes)")) none "").message

/-- The note about a share of the work. -/
def progressNote (percent : Int) : String := "Encoding (" ++ toString percent ++ "%)"

/-- What becomes of the start of a process. -/
inductive SpawnOutcome where
  | started
  /-- The program does not exist. -/
  | missing
  | refused (message : String)
  deriving DecidableEq, Repr

namespace Service

/-! ### Ends -/

/-- Records a failure, if the job is still there and has not ended. -/
def fail (s : Service) (id : JobId) (message : String) : Service :=
  s.setStore (s.store.transition s.rounding id .failed (some message) none s.now).2

/-- Leaves the work: the slot goes back, a failure is recorded, the task is over. -/
def leave (s : Service) (id : JobId) (failure : Option String) : Service :=
  let s := s.setSlots s.slots.release
  (match failure with
    | some m => s.fail id m
    | none => s).endTask id

/-- Leaves the work because the store refuses. -/
def leaveRefused (s : Service) (id : JobId) (f : StoreFault) : Service :=
  s.leave id (storeFailure? f)

/-! ### Work -/

/-- Begins to work on a slot: the job is downloading, and the assets are asked for. -/
def beginWork (s : Service) (t : Task) : Service :=
  match s.store.transition s.rounding t.job .downloading none (some "Fetching assets") s.now with
  | (.error f, store) => (s.setStore store).leaveRefused t.job f
  | (.ok job, store) =>
    let s := s.setStore store
    match s.store.files.ensureChild job.assets with
    | .error f => s.leave t.job (some (unforeseen f.message))
    | .ok files =>
      let s := s.setFiles files
      match fetchItems t.timeline job.assets 0 t.timeline.sources with
      | .error f => s.leave t.job (some (unforeseen f.message))
      | .ok items => s.setPhase t.job (.fetching (Downloads.begin items))

/-- Compiles with the assets that are known, and writes the plan down. -/
def compile (s : Service) (t : Task) (assets : List (String × Asset)) : Service :=
  match s.store.transition s.rounding t.job .rendering none (some "Compiling timeline") s.now with
  | (.error f, store) => (s.setStore store).leaveRefused t.job f
  | (.ok job, store) =>
    let s := s.setStore store
    match s.setup.compiler.compile t.timeline fun key => assets.lookup key with
    | .error f => s.leave t.job (some f.problem.message)
    | .ok plan =>
      let plan := plan.toText
      let file := job.directory ++ ["plan.json"]
      match s.store.files.write file (.text (plan.describe.write .received)) with
      | .error f => s.leave t.job (some (unforeseen f.message))
      | .ok files =>
        ((s.setFiles files).note t.job "Encoding").setPhase t.job (.starting plan)

/-- Goes on to the next file that is to be probed, or compiles. -/
def continueProbing (s : Service) (t : Task) (done : List (String × Asset)) :
    List (MediaSource × Path) → Service
  | [] => s.compile t done
  | left => s.setPhase t.job (.probing done left)

/-- Takes the result of all downloads. -/
def takeFetched (s : Service) (t : Task) (ds : Downloads) : Service :=
  match ds.result? with
  | none => s
  | some (.error f) => s.leave t.job (some (fetchFailure f))
  | some (.ok _) =>
    (s.note t.job "Probing assets").continueProbing t [] (ds.map fun d => (d.source, d.target))

/-- Takes the outcome of probing the next file. -/
def takeProbed (s : Service) (t : Task) (outcome : Probe.Outcome) (done : List (String × Asset))
    (source : MediaSource) (path : Path) (left : List (MediaSource × Path)) : Service :=
  match Probe.probe path.text outcome with
  | .error f => s.leave t.job (some (probeFailure source f))
  | .ok i =>
    s.continueProbing t (done ++ [(source.key, assetOf (s.store.directory t.job) path i)]) left

/-- Takes the result of a process that never ran or has ended. -/
def takeResult (s : Service) (id : JobId) (result : Engine.Result) : Service :=
  match result.accept with
  | .error f => s.leave id (some f.problem.message)
  | .ok _ =>
    let output := s.store.directory id ++ [Job.outputName]
    let size := (s.store.files.size? output).getD 0
    if (size : Int) < s.setup.minOutputBytes then s.leave id (some (outputFailure size))
    else match s.store.transition s.rounding id .completed none none s.now with
      | (.error f, store) => (s.setStore store).leaveRefused id f
      | (.ok _, store) => (s.setStore store).leave id none

/-- Takes the outcome of starting the engine. -/
def takeSpawned (s : Service) (t : Task) (plan : TextPlan) : SpawnOutcome → Service
  | .refused m => s.leave t.job (some (unforeseen m))
  | .missing => s.takeResult t.job (Engine.Result.missing s.setup.engine.program)
  | .started =>
    let s := s.addProcess t.job
    match Engine.Watch.begin s.setup.engine with
    | .error f => s.leave t.job (some (unforeseen f.message))
    | .ok watch => s.setPhase t.job (.encoding plan watch)

/-- Notes the progress that reported times stand for, up to a fault. -/
def noteTimes (s : Service) (id : JobId) (plan : TextPlan) :
    List Number → Service × Option Engine.ReadFault
  | [] => (s, none)
  | t :: rest =>
    match Engine.share s.rounding plan.duration t with
    | none => s.noteTimes id plan rest
    | some share =>
      match Engine.percent s.rounding share with
      | .error f => (s, some f)
      | .ok p =>
        (s.note id (progressNote p)).noteTimes id plan rest

/-- Reads what a process has written: the watch afterwards, and a fault. -/
def readOutput (s : Service) (id : JobId) (plan : TextPlan) (watch : Engine.Watch)
    (written : Engine.Written) : Service × Engine.Watch × Option Engine.ReadFault :=
  let reading := watch.take s.rounding true written
  let (s, shareFault) := s.noteTimes id plan reading.times
  (s, reading.watch, reading.errorFault.or (shareFault.or reading.outputFault))

/-- A running process writes. -/
def takeWritten (s : Service) (t : Task) (plan : TextPlan) (watch : Engine.Watch)
    (output errors : List UInt8) : Service :=
  match s.readOutput t.job plan watch ⟨output, errors, false⟩ with
  | (s, _, some f) => s.leave t.job (some (unforeseen f.message))
  | (s, watch, none) => s.setPhase t.job (.encoding plan watch)

/-- The process has ended. -/
def takeExit (s : Service) (t : Task) (plan : TextPlan) (watch : Engine.Watch) (code : Int) :
    Service :=
  match s.readOutput t.job plan watch ⟨[], [], true⟩ with
  | (s, _, some f) => s.leave t.job (some (unforeseen f.message))
  | (s, watch, none) => s.takeResult t.job (watch.result code)

/-- A process that ends leaves its output in the directory of the job, if that is there. -/
def leaveOutput (s : Service) (id : JobId) (size : Option Nat) : Service :=
  match size with
  | none => s
  | some n =>
    match s.store.files.write (s.store.directory id ++ [Job.outputName]) (.media n) with
    | .ok files => s.setFiles files
    | .error _ => s

/-! ### Moves -/

/-- Stops a task that was told to. -/
def stop (s : Service) (t : Task) : Service :=
  match t.phase with
  | .created => s.endTask t.job
  | .waiting =>
    ((s.setSlots (s.slots.leave t.job)).fail t.job cancelledMessage).endTask t.job
  | .fetching ds =>
    let (_, files) := ds.abandon s.setup.fetcher s.store.files
    (s.setFiles files).leave t.job (some cancelledMessage)
  | .probing _ _ | .starting _ => s.leave t.job (some cancelledMessage)
  | .encoding _ _ =>
    (if s.process? t.job = some .running then s.setProcess t.job .killed else s).leave t.job
      (some cancelledMessage)

/-- A move of a task that needs no answer from outside. -/
def moveTask (s : Service) (t : Task) : Service :=
  if t.cancelled then s.stop t
  else match t.phase with
  | .created =>
    match s.slots.take? with
    | some slots => (s.setSlots slots).beginWork t
    | none => (s.setSlots (s.slots.enqueue t.job)).setPhase t.job .waiting
  | .waiting =>
    if s.slots.isGranted t.job then (s.setSlots (s.slots.resume t.job)).beginWork t else s
  | .fetching ds => s.takeFetched t ds
  | _ => s

end Service
end Montage
