import Montage.Service.Run

/-! # A world around the service

A `World` says what the service meets: how servers reply, what the probe program finds in a
file, and what processes of the engine do.  `World.next` reads off a state which events come
next in a world that answers as soon as it is asked, and `World.settle` lets them come until
nothing can move any more.

Moves come before answers: first tasks that are new, were told to stop, or were handed a slot;
then calls; then the answers, job by job.  A call loses its patience when nothing else can
move, and at once if it has none.
-/
namespace Montage

/-- What a process does. -/
structure ProcessScript where
  start : SpawnOutcome
  output : List UInt8
  errors : List UInt8
  exitCode : Int
  /-- It goes on until somebody lets it end. -/
  holds : Bool
  /-- Size of the output that it leaves behind. -/
  size : Option Nat
  deriving DecidableEq, Repr

/-- A process that writes nothing and leaves a good output behind. -/
def ProcessScript.standard : ProcessScript := ⟨.started, [], [], 0, false, some 200000⟩

structure World where
  network : Network
  /-- What the probe program finds in a file with a name. -/
  probe : String → Probe.Outcome
  process : JobId → ProcessScript

namespace World

/-- A task that moves by itself at once. -/
def isUrgent (s : Service) (t : Task) : Bool :=
  t.cancelled || match t.phase with
    | .created => true
    | .waiting => s.slots.isGranted t.job
    | _ => false

/-- A call that can move. -/
def canAdvance (s : Service) (c : Call) : Bool :=
  match c.phase with
  | .cancelling (id :: _) => (s.task? id).isNone
  | .cancelling [] | .clearing _ _ => true
  | .patient jobs | .gathering jobs => !s.anyLive jobs
  | .done _ => false

/-- A call that waits with patience, and has none if `spent`. -/
def isPatient (spent : Bool) (c : Call) : Bool :=
  match c.goal, c.phase with
  | .drain patience, .patient _ => !spent || Number.le patience (.finite 0)
  | _, _ => false

/-- Events of the first element for which there are any. -/
def firstEvents (events : α → List Event) : List α → List Event
  | [] => []
  | a :: rest => match events a with
    | [] => firstEvents events rest
    | es => es

/-- Events of downloads in a round. -/
def roundEvents (id : JobId) (ds : Downloads) (events : Download → List DownloadEvent) :
    List Event :=
  ds.zipIdx.flatMap fun (d, i) => (events d).map fun e => .download id i e

/-- The next round of downloads: uploads are copied, servers answer, and what is only to be
settled is settled. -/
def downloadEvents (w : World) (f : Fetcher) (id : JobId) (ds : Downloads) : List Event :=
  firstEvents (roundEvents id ds)
    [Downloads.uploadEvents, Downloads.remoteEvents w.network f, Downloads.finalEvents]

/-- What a process that is started does at once. -/
def processEvents (w : World) (id : JobId) : List Event :=
  let p := w.process id
  [.spawned id p.start, .wrote id p.output p.errors] ++
    if p.holds then [] else [.exited id p.exitCode p.size]

/-- The answers that a task gets. -/
def answers (w : World) (f : Fetcher) (t : Task) : List Event :=
  match t.phase with
  | .fetching ds => if ds.areOver then [.moved t.job] else w.downloadEvents f t.job ds
  | .probing _ ((_, path) :: _) => [.probed t.job (w.probe path.name)]
  | .starting _ => w.processEvents t.job
  | _ => []

/-- An event for the first call of a kind. -/
def callEvents (isSuch : Call → Bool) (event : Nat → Event) (s : Service) : List Event :=
  firstEvents (fun (c, i) => if isSuch c then [event i] else []) s.calls.zipIdx

/-- The events that come next; none if nothing can move. -/
def next (w : World) (s : Service) : List Event :=
  firstEvents id
    [firstEvents (fun t => if isUrgent s t then [.moved t.job] else []) s.tasks,
      callEvents (canAdvance s) .advanced s,
      callEvents (isPatient true) .outOfPatience s,
      firstEvents (w.answers s.setup.fetcher) s.tasks,
      callEvents (isPatient false) .outOfPatience s]

/-- Lets events come, at most so many times. -/
def settleWithin (w : World) : Nat → Service → Service
  | 0, s => s
  | fuel + 1, s =>
    match w.next s with
    | [] => s
    | es => settleWithin w fuel (s.run es)

/-- More rounds than a state can take before nothing moves. -/
def rounds (s : Service) : Nat :=
  s.tasks.foldl (fun n t => n + 16 + 4 * t.timeline.sources.length) 0 +
    s.calls.length * (8 + 2 * s.store.jobs.length + 2 * s.tasks.length) + 8

/-- Lets events come until nothing can move. -/
def settle (w : World) (s : Service) : Service := w.settleWithin (rounds s) s

/-- Asks and lets events come; the result of the call, if it has one by then. -/
def call (w : World) (s : Service) (goal : Goal) :
    Option (Except StoreFault (List JobId)) × Service :=
  let index := s.calls.length
  let s := w.settle (s.ask goal)
  (s.answer? index, s)

/-- Sweeps so many times, whatever becomes of a sweep. -/
def sweepTimes (w : World) : Nat → Service → Service
  | 0, s => s
  | n + 1, s => sweepTimes w n (w.call s s.sweepNow).2

/-- What retention does in a moment: it sweeps again and again if there is no time between two
sweeps, and not at all otherwise.  A job on which a sweep fails is gone in the next one, so
there is nothing left to do after as many sweeps as there are jobs. -/
def retain (w : World) (s : Service) (interval : Int) : Service :=
  if interval ≤ 0 then w.sweepTimes (s.store.jobs.length + 1) s else s

end World
end Montage
