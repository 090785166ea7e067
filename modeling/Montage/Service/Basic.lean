import Montage.Asset.Fetch
import Montage.Asset.Probe
import Montage.Engine.Run
import Montage.Job.Store
import Montage.Service.Slots
import Montage.Settings

/-! # The render service

The service keeps jobs, and for each job that has not come to its end a **task** that brings
it there.  A task waits for a slot, fetches and probes the assets, compiles the timeline, and
runs the engine; `TaskPhase` says where it stands.

Besides the tasks there are **calls** that take more than one step: removing a job, sweeping
old jobs away, draining the service.  A call first cancels tasks and waits for their end, then
acts on the store.

What happens is a sequence of events, and the state after an event depends on the state
before it alone.  A task and a call move by events of their own, and what the world outside
answers is carried by the events; so every order in which tasks, calls and answers can
interleave is a list of events.
-/
namespace Montage

/-- How a service is set up. -/
structure Setup where
  compiler : Compiler
  engine : Engine
  fetcher : Fetcher
  /-- Greatest number of jobs that run at once. -/
  slots : Nat
  /-- Seconds for which a job is kept. -/
  lifetime : Number
  /-- A smaller output counts as failed. -/
  minOutputBytes : Int

/-- The engine of standard settings. -/
def Engine.standard : Engine :=
  { program := Settings.standard.engineProgram
    diagnosticLines := Settings.standard.diagnosticLines
    options := Settings.standard.engineOptions }

/-- Why no service can be set up. -/
inductive SetupFault where
  | negativeSlots
  deriving DecidableEq, Repr

def SetupFault.message : SetupFault → String
  | negativeSlots => "Semaphore initial value must be >= 0"

/-- The setup that settings ask for. -/
def Settings.setup (s : Settings) (fetcher : Fetcher) : Except SetupFault Setup :=
  if s.maxConcurrentJobs < 0 then .error .negativeSlots
  else .ok
    { compiler := ⟨s.defaults, s.overlayFontFile, .binary64⟩
      engine := .standard
      fetcher
      slots := s.maxConcurrentJobs.toNat
      lifetime := (Number.ofInt? s.jobLifetime).getD (.infinite (s.jobLifetime < 0))
      minOutputBytes := s.minOutputBytes }

/-- Where the task of a job stands. -/
inductive TaskPhase where
  /-- It has not moved yet. -/
  | created
  /-- It is in the queue for a slot. -/
  | waiting
  | fetching (downloads : Downloads)
  /-- Assets that are known by the keys of their sources, and files that are still to be
  probed. -/
  | probing (done : List (String × Asset)) (left : List (MediaSource × Path))
  /-- The engine is about to be started. -/
  | starting (plan : TextPlan)
  | encoding (plan : TextPlan) (watch : Engine.Watch)

/-- A task on a slot is neither new nor in the queue. -/
def TaskPhase.holdsSlot : TaskPhase → Bool
  | created | waiting => false
  | _ => true

/-- The task has not moved yet. -/
def TaskPhase.isNew : TaskPhase → Bool
  | created => true
  | _ => false

/-- What brings a job to its end. -/
structure Task where
  job : JobId
  timeline : Timeline
  phase : TaskPhase
  /-- It was told to stop and has not noticed yet. -/
  cancelled : Bool

inductive ProcessStatus where
  | running
  | exited (code : Int)
  | killed
  deriving DecidableEq, Repr

/-- A process of the engine. -/
structure Process where
  job : JobId
  status : ProcessStatus
  deriving DecidableEq, Repr

/-- What a call is to do. -/
inductive Goal where
  /-- Ends a job and removes it. -/
  | delete (id : JobId)
  /-- Removes a job and leaves its task alone. -/
  | forget (id : JobId)
  /-- Ends and removes the jobs that are too old at a time. -/
  | sweep (time : Number)
  /-- Waits for all jobs to end, for so many seconds; no new ones are accepted. -/
  | drain (patience : Number)
  deriving DecidableEq, Repr

/-- Where a call stands. -/
inductive CallPhase where
  /-- The task of the first job was told to stop; the others are not told yet. -/
  | cancelling (jobs : List JobId)
  /-- Tasks are left to come to their end by themselves. -/
  | patient (jobs : List JobId)
  /-- Tasks were told to stop. -/
  | gathering (jobs : List JobId)
  /-- Directories that were moved aside are removed. -/
  | clearing (trash : List Path) (removed : List JobId)
  | done (result : Except StoreFault (List JobId))

structure Call where
  goal : Goal
  phase : CallPhase

/-- The call has not come to its end. -/
def Call.isMidway (c : Call) : Bool :=
  match c.phase with
  | .done _ => false
  | _ => true

structure Service where
  setup : Setup
  store : Store
  slots : Slots
  /-- Tasks that have not come to their end, in the order of their jobs. -/
  tasks : List Task
  processes : List Process
  calls : List Call
  /-- New jobs are taken. -/
  accepting : Bool
  /-- Seconds of the clock. -/
  now : Number

namespace Service

/-- A service without jobs. -/
def begin (setup : Setup) (root : Path) (files : FileTree) : Service :=
  { setup, store := .begin root files, slots := .begin setup.slots, tasks := [], processes := []
    calls := [], accepting := true, now := .finite 0 }

def rounding (s : Service) : Rounding := s.setup.compiler.rounding

/-- The task of a job, if it has not come to its end. -/
def task? (s : Service) (id : JobId) : Option Task := s.tasks.find? fun t => t.job == id

/-- How many jobs were accepted and have not come to their end. -/
def inFlight (s : Service) : Nat := s.tasks.length

/-- Whether any of the jobs has a task. -/
def anyLive (s : Service) (jobs : List JobId) : Bool := jobs.any fun id => (s.task? id).isSome

/-- The status of the process of a job, if it was started. -/
def process? (s : Service) (id : JobId) : Option ProcessStatus :=
  (s.processes.find? fun p => p.job == id).map Process.status

def setFiles (s : Service) (files : FileTree) : Service :=
  { s with store := { s.store with files } }

/-- Puts another store in place. -/
def setStore (s : Service) (store : Store) : Service := { s with store }

/-- Notes the progress of a job. -/
def note (s : Service) (id : JobId) (stage : String) : Service :=
  s.setStore (s.store.setStage id stage)

/-- Puts other slots in place. -/
def setSlots (s : Service) (slots : Slots) : Service := { s with slots }

/-- Remembers a process that was started. -/
def addProcess (s : Service) (id : JobId) : Service :=
  { s with processes := s.processes ++ [⟨id, .running⟩] }

/-- Lets the task of a job stand at a phase. -/
def setPhase (s : Service) (id : JobId) (phase : TaskPhase) : Service :=
  { s with tasks := s.tasks.map fun t => if t.job == id then { t with phase } else t }

/-- The task of a job is over. -/
def endTask (s : Service) (id : JobId) : Service :=
  { s with tasks := s.tasks.filter fun t => t.job != id }

/-- Tells the task of a job to stop. -/
def cancel (s : Service) (id : JobId) : Service :=
  { s with
    tasks := s.tasks.map fun t => if t.job == id then { t with cancelled := true } else t
    slots := s.slots.withdraw id }

/-- Lets the process of a job have a status. -/
def setProcess (s : Service) (id : JobId) (status : ProcessStatus) : Service :=
  { s with processes := s.processes.map fun p => if p.job == id then { p with status } else p }

end Service
end Montage
