import Montage.Proofs.Courses
import Montage.Proofs.DownloadSchedules

/-! # What becomes of a job

What becomes of a job can be told from what it is for (`Brief`) and from what it is told: by servers and
in the uploads (`Delivery`), and by the programs that it asks (`Notice`).  Nothing else goes in: no slot,
no other job, and of the files only those that are fetched.  The id of the job matters to the words of its
error alone, where the id may stand in a path (`Wording`).

`Brief.station` is how far the job has come.  As long as it fetches its downloads go on by themselves, so
the stations begin behind them.
-/
namespace Montage

open FileTree Path

/-! ### What a job is told -/

/-- What happens to a download of a job; a copy finds something in the uploads. -/
structure Delivery where
  index : Nat
  event : DownloadEvent
  found : Except FetchFault Content
  deriving DecidableEq

/-- What the programs answer that a job asks. -/
inductive Notice where
  /-- Fetching fails, and nobody has foreseen how. -/
  | broken (message : String)
  | probed (outcome : Probe.Outcome)
  | spawned (outcome : SpawnOutcome)
  | wrote (output errors : List UInt8)
  | produced (size : Nat)
  | exited (code : Int) (size : Option Nat)
  /-- What comes after fetching fails, and nobody has foreseen how. -/
  | raised (message : String)
  deriving DecidableEq

/-- The notices that an event brings to a task at a phase. -/
def TaskPhase.notices : TaskPhase → Event → List Notice
  | .fetching _, .raised _ m => [.broken m]
  | .probing _ _, .probed _ outcome => [.probed outcome]
  | .starting _, .spawned _ outcome => [.spawned outcome]
  | .encoding _ _, .wrote _ output errors => [.wrote output errors]
  | .encoding _ _, .produced _ size => [.produced size]
  | .encoding _ _, .exited _ code size => [.exited code size]
  | .probing _ _, .raised _ m | .starting _, .raised _ m | .encoding _ _, .raised _ m => [.raised m]
  | _, _ => []

namespace Service

/-- What an event brings to the downloads of a job, unless they are over. -/
def deliveriesTo (id : JobId) (s : Service) : Event → List Delivery
  | .download job index e =>
    if job = id then
      ((s.downloads id)[index]?.filter fun d => !d.phase.isOver && e != .abandoned).toList.map
        fun d => ⟨index, e,
          if e = .copied then d.found s.setup.fetcher s.store.files else .error .unspeakable⟩
    else []
  | _ => []

/-- What an event tells a job besides. -/
def noticesTo (id : JobId) (s : Service) (e : Event) : List Notice :=
  if e.job? = some id then ((s.task? id).map fun t => t.phase.notices e).getD [] else []

end Service

/-! ### Words -/

/-- A text that may speak of a path of the job: then the id of the job stands in it. -/
inductive Wording where
  | plain (text : String)
  | around (before after : String)
  deriving DecidableEq, Repr

def Wording.text (id : JobId) : Wording → String
  | plain text => text
  | around before after => before ++ id ++ after

/-- What stands before and behind a piece in a quoted text, if quoting leaves the piece as it is. -/
def Text.quotedAround (before after : String) : String × String :=
  let cs := before.toList ++ after.toList
  let quote := if cs.contains '\'' && !cs.contains '"' then '"' else '\''
  (String.ofList (quote :: before.toList.flatMap (quotedChar quote)),
    String.ofList (after.toList.flatMap (quotedChar quote) ++ [quote]))

/-! ### Stations -/

/-- How a job ends. -/
structure Verdict where
  state : JobState
  failure : Option Wording
  /-- The plan that was written down. -/
  plan : Option String
  outputSize : Option Nat
  deriving DecidableEq, Repr

namespace Verdict

def failed (failure : Wording) (plan : Option String) : Verdict := ⟨.failed, some failure, plan, none⟩

/-- The error in the record of the job. -/
def error (v : Verdict) (id : JobId) : Option String :=
  v.failure.map fun w => Job.orElseText (some (w.text id)) Job.unexplained

end Verdict

/-- How far a job has come that has its files. -/
inductive Station where
  /-- The paths of files are seen from the directory of the job. -/
  | probing (done : List (String × Asset)) (left : List (MediaSource × Path))
  | starting (plan : TextPlan)
  /-- What stands at the output has so many bytes, if anything does. -/
  | encoding (plan : TextPlan) (watch : Engine.Watch) (size : Option Nat)
  | ended (verdict : Verdict)

/-- A plan as it is written down. -/
def TextPlan.written (plan : TextPlan) : String := plan.describe.write .received

namespace Station

/-- The plan that is written down. -/
def plan? : Station → Option String
  | probing _ _ => none
  | starting plan | encoding plan _ _ => some plan.written
  | ended v => v.plan

def fail (failure : Wording) (plan : Option String) : Station := ended (.failed failure plan)

end Station

/-- All that a job depends on before it is told anything. -/
structure Brief where
  compiler : Compiler
  engine : Engine
  fetcher : Fetcher
  minOutputBytes : Int
  root : Path
  timeline : Timeline

def Setup.brief (setup : Setup) (root : Path) (timeline : Timeline) : Brief :=
  ⟨setup.compiler, setup.engine, setup.fetcher, setup.minOutputBytes, root, timeline⟩

/-- The fault among times that are noted, as `Service.noteTimes` comes upon it. -/
def Engine.timesFault? (r : Rounding) (duration : Number) : List Number → Option ReadFault
  | [] => none
  | t :: rest =>
    match share r duration t with
    | none => timesFault? r duration rest
    | some share =>
      match percent r share with
      | .error f => some f
      | .ok _ => timesFault? r duration rest

/-- What speaks against a name. -/
def Path.nameFault? (name : String) : Option FileCause :=
  if Path.holdsEnd [name] then some .endedName
  else if longestName < name.utf8ByteSize then some .longName
  else none

namespace Brief
variable (b : Brief)

def rounding : Rounding := b.compiler.rounding

/-- A path in the directory of the job, as a text with the id left out. -/
def around (path : Path) : String × String := (Path.text (b.root ++ [""]), Path.text ("" :: path))

/-! #### Fetching -/

/-- What is to be fetched; paths are seen from the directory of the job. -/
def items : Except UrlParts.Fault (List (MediaSource × Path)) :=
  fetchItems b.timeline [Job.assetsName] 0 b.timeline.sources

/-- A download meets what is found when it copies, and what stands against its part file. -/
def fateOf (obstacle : Option FileFault) (source : MediaSource) (fate : Fate) (d : Delivery) : Fate :=
  fate.step ⟨source, b.fetcher.limit, obstacle, d.found⟩ d.event

/-- What a download comes to. -/
def fate (obstacle : Option FileFault) (deliveries : List Delivery) (index : Nat)
    (source : MediaSource) : Fate :=
  (deliveries.filter fun d => d.index == index).foldl (b.fateOf obstacle source) .waiting

/-- The failure of a download whose part file cannot stand. -/
def partFailure (c : FileCause) (part : Path) : Wording :=
  match c with
  | .endedName => .plain (unforeseen FileCause.endedName.wording)
  | c =>
    let quoted := Text.quotedAround (b.around part).1 (b.around part).2
    .around (unforeseen (c.wording ++ ": ") ++ quoted.1) quoted.2

/-- The failure of a download that is over. -/
def failure? (deliveries : List Delivery) (index : Nat) (item : MediaSource × Path) : Option Wording :=
  match Path.nameFault? (partName item.2.name) with
  | some c => some (b.partFailure c [Job.assetsName, partName item.2.name])
  | none =>
    match b.fate none deliveries index item.1 with
    | .failed f => some (.plain (fetchFailure f))
    | _ => none

/-! #### Probing and compiling -/

def compile (done : List (String × Asset)) : Station :=
  match b.compiler.compile b.timeline fun key => done.lookup key with
  | .error f => .fail (.plain f.problem.message) none
  | .ok plan => .starting plan.toText

def continueProbing (done : List (String × Asset)) : List (MediaSource × Path) → Station
  | [] => b.compile done
  | left => .probing done left

/-- Only a file without streams is told by its path. -/
def probeFailure (source : MediaSource) (path : Path) : Probe.Fault → Wording
  | .noStream _ =>
    .around (Montage.probeFailure source (.noStream (b.around path).1)) (b.around path).2
  | f => .plain (Montage.probeFailure source f)

def probe (outcome : Probe.Outcome) (done : List (String × Asset)) (source : MediaSource) (path : Path)
    (left : List (MediaSource × Path)) : Station :=
  match Probe.probe "" outcome with
  | .error f => .fail (b.probeFailure source path f) none
  | .ok info => b.continueProbing (done ++ [(source.key, assetOf [] path info)]) left

/-- The station behind the downloads. -/
def gathered (deliveries : List Delivery) : Station :=
  match b.items with
  | .error f => .fail (.plain (unforeseen f.message)) none
  | .ok items =>
    match items.zipIdx.findSome? fun i => b.failure? deliveries i.2 i.1 with
    | some failure => .fail failure none
    | none => b.continueProbing [] items

/-! #### The engine -/

def result (result : Engine.Result) (plan : TextPlan) (size : Option Nat) : Station :=
  match result.accept with
  | .error f => .fail (.plain f.problem.message) (some plan.written)
  | .ok _ =>
    if (size.getD 0 : Int) < b.minOutputBytes then
      .fail (.plain (outputFailure (size.getD 0))) (some plan.written)
    else .ended ⟨.completed, none, some plan.written, size⟩

def spawn (plan : TextPlan) : SpawnOutcome → Station
  | .refused m => .fail (.plain (unforeseen m)) (some plan.written)
  | .missing => b.result (Engine.Result.missing b.engine.program) plan none
  | .started =>
    match Engine.Watch.begin b.engine with
    | .error f => .fail (.plain (unforeseen f.message)) (some plan.written)
    | .ok watch => .encoding plan watch none

/-- What is read, and the fault if it cannot be. -/
def read (plan : TextPlan) (watch : Engine.Watch) (written : Engine.Written) :
    Engine.Watch × Option Engine.ReadFault :=
  let reading := watch.take b.rounding true written
  (reading.watch, reading.errorFault.or
    ((Engine.timesFault? b.rounding plan.duration reading.times).or reading.outputFault))

def write (plan : TextPlan) (watch : Engine.Watch) (size : Option Nat) (output errors : List UInt8) :
    Station :=
  match b.read plan watch ⟨output, errors, false⟩ with
  | (_, some f) => .fail (.plain (unforeseen f.message)) (some plan.written)
  | (watch, none) => .encoding plan watch size

def exit (plan : TextPlan) (watch : Engine.Watch) (code : Int) (size : Option Nat) : Station :=
  match b.read plan watch ⟨[], [], true⟩ with
  | (_, some f) => .fail (.plain (unforeseen f.message)) (some plan.written)
  | (watch, none) => b.result (watch.result code) plan size

/-! #### Step by step -/

/-- What a notice makes of a station. -/
def step : Station → Notice → Station
  | _, .broken m => .fail (.plain (unforeseen m)) none
  | .ended v, _ => .ended v
  | .probing done ((source, path) :: left), .probed outcome => b.probe outcome done source path left
  | .starting plan, .spawned outcome => b.spawn plan outcome
  | .encoding plan watch size, .wrote output errors => b.write plan watch size output errors
  | .encoding plan watch _, .produced n => .encoding plan watch (some n)
  | .encoding plan watch size, .exited code n => b.exit plan watch code (n.or size)
  | station, .raised m => .fail (.plain (unforeseen m)) station.plan?
  | station, _ => station

/-- **How far a job has come**, told from what it was told. -/
def station (deliveries : List Delivery) (notices : List Notice) : Station :=
  notices.foldl b.step (b.gathered deliveries)

/-- The downloads of the job are over, or the job has given up fetching. -/
def Complete (deliveries : List Delivery) (notices : List Notice) : Prop :=
  (∃ m, notices = [.broken m]) ∨ ∀ items, b.items = .ok items →
    ∀ (i : Nat) (item : MediaSource × Path), items[i]? = some item →
      Path.nameFault? (partName item.2.name) = none →
        (b.fate none deliveries i item.1).isOver = true

end Brief

/-! ### Part files that cannot stand -/

/-- Against a part file stands what stands against its name. -/
theorem FileTree.Stands.obstacleAt?_part {t : FileTree} {directory place : Path}
    (stands : t.Stands directory place) (name : String) :
    t.obstacleAt? (directory ++ [partName name]) =
      (Path.nameFault? (partName name)).map fun c => .at c (directory ++ [partName name]) := by
  rw [obstacleAt?, stands.locate_entry, Path.nameFault?, if_neg (ne_dots_of_part name)]
  by_cases hended : Path.holdsEnd [partName name] = true
  · simp only [if_pos hended, Option.map_some]
  · by_cases hlong : longestName < (partName name).utf8ByteSize
    · simp only [if_neg hended, if_pos hlong, Option.map_some]
    · simp only [if_neg hended, if_neg hlong, Option.map_none]

namespace Brief
variable (b : Brief)

/-! ### The fates of downloads -/

theorem fate_concat_self (obstacle : Option FileFault) (deliveries : List Delivery) (d : Delivery)
    (source : MediaSource) : b.fate obstacle (deliveries ++ [d]) d.index source =
      b.fateOf obstacle source (b.fate obstacle deliveries d.index source) d := by
  simp [fate]

/-- What another download is told does not matter. -/
theorem fate_append_of_ne (obstacle : Option FileFault) (deliveries : List Delivery)
    {more : List Delivery} {index : Nat} (others : ∀ d ∈ more, d.index ≠ index)
    (source : MediaSource) : b.fate obstacle (deliveries ++ more) index source =
      b.fate obstacle deliveries index source := by
  have hnone : (more.filter fun d => d.index == index) = [] :=
    List.filter_eq_nil_iff.mpr fun d hd => by simpa using others d hd
  rw [fate, fate, List.filter_append, hnone, List.append_nil]

/-- A download without a part file waits, will fail, or has failed for want of one. -/
inductive Lost (e : FileFault) : Fate → Prop where
  | waiting : Lost e .waiting
  | doomed (fault : FetchFault) : Lost e (.doomed fault)
  | failed : Lost e (.failed (.cleaning e))

theorem lost_step {e : FileFault} {source : MediaSource} {fate : Fate} (h : Lost e fate)
    (d : Delivery) : Lost e (b.fateOf (some e) source fate d) := by
  obtain ⟨index, event, found⟩ := d
  rw [fateOf]
  cases h with
  | failed => exact .failed
  | doomed fault =>
    cases event with
    | settled => exact .failed
    | timedOut | broken _ | unasked _ =>
      cases hremote : source.remote? <;>
        simpa [Fate.step, Fate.isOver, Fate.isOpen, hremote] using Lost.doomed fault
    | refused | copied | answered | data | ended | abandoned => exact .doomed _
  | waiting =>
    cases event with
    | refused | data | ended | settled | abandoned => first | exact .waiting | exact .doomed _
    | copied =>
      cases hremote : source.remote? with
      | some url => simpa [Fate.step, Fate.isOver, hremote] using Lost.waiting
      | none =>
        simp only [Fate.step, Fate.isOver, hremote, Fate.copy]
        cases found <;> exact .failed
    | answered status =>
      cases hremote : source.remote? with
      | none => simpa [Fate.step, Fate.isOver, hremote] using Lost.waiting
      | some url =>
        simp only [Fate.step, Fate.isOver, hremote, Fate.answer]
        repeat' split
        all_goals first | contradiction | exact .doomed _
    | timedOut | broken _ | unasked _ =>
      cases hremote : source.remote? with
      | none => simpa [Fate.step, Fate.isOver, Fate.isOpen, hremote] using Lost.waiting
      | some url => simpa [Fate.step, Fate.isOver, Fate.isOpen, hremote] using Lost.doomed _

/-- A download whose part file cannot stand fails for that. -/
theorem fate_of_obstacle {e : FileFault} (deliveries : List Delivery) (index : Nat)
    (source : MediaSource) (ended : (b.fate (some e) deliveries index source).isOver = true) :
    b.fate (some e) deliveries index source = .failed (.cleaning e) := by
  have hlost : Lost e (b.fate (some e) deliveries index source) :=
    List.foldlRecOn _ _ Lost.waiting fun _ h d _ => b.lost_step h d
  cases hfate : b.fate (some e) deliveries index source <;> rw [hfate] at hlost ended <;>
    cases hlost
  · cases ended
  · cases ended
  · rfl

theorem fold_of_isOver {obstacle : Option FileFault} {source : MediaSource} {fate : Fate}
    (ended : fate.isOver = true) (deliveries : List Delivery) :
    deliveries.foldl (b.fateOf obstacle source) fate = fate := by
  induction deliveries with
  | nil => rfl
  | cons d rest ih => rw [List.foldl_cons, fateOf, Fate.step_of_isOver ended, ih]

/-! ### What is told decides -/

/-- Deliveries say the same to each download, as far as it is told. -/
def Concur (a b : List Delivery) : Prop :=
  ∀ i, (a.filter fun d => d.index == i) <+: (b.filter fun d => d.index == i) ∨
    (b.filter fun d => d.index == i) <+: a.filter fun d => d.index == i

variable {ds ds' : List Delivery} {notices : List Notice}

/-- A download that is over hears nothing more. -/
theorem fate_eq (concur : Concur ds ds') {i : Nat} {source : MediaSource}
    (ended : (b.fate none ds i source).isOver = true)
    (ended' : (b.fate none ds' i source).isOver = true) :
    b.fate none ds i source = b.fate none ds' i source := by
  rw [fate] at ended ended' ⊢
  rw [fate]
  rcases concur i with ⟨more, hmore⟩ | ⟨more, hmore⟩
  · rw [← hmore, List.foldl_append, b.fold_of_isOver ended]
  · rw [← hmore, List.foldl_append, b.fold_of_isOver ended']

theorem gathered_eq (concur : Concur ds ds')
    (ended : ∀ items, b.items = .ok items → ∀ (i : Nat) (item : MediaSource × Path),
      items[i]? = some item → Path.nameFault? (partName item.2.name) = none →
        (b.fate none ds i item.1).isOver = true ∧ (b.fate none ds' i item.1).isOver = true) :
    b.gathered ds = b.gathered ds' := by
  rw [gathered, gathered]
  cases hitems : b.items with
  | error f => rfl
  | ok items =>
    have hfailures : (items.zipIdx.findSome? fun i => b.failure? ds i.2 i.1) =
        items.zipIdx.findSome? fun i => b.failure? ds' i.2 i.1 := by
      have hmap : (items.zipIdx.map fun i => b.failure? ds i.2 i.1) =
          items.zipIdx.map fun i => b.failure? ds' i.2 i.1 := by
        refine List.map_congr_left fun i hi => ?_
        rw [failure?, failure?]
        cases hname : Path.nameFault? (partName i.1.2.name) with
        | some c => rfl
        | none =>
          obtain ⟨hover, hover'⟩ := ended items hitems i.2 i.1
            (List.mem_zipIdx_iff_getElem?.mp hi) hname
          dsimp only
          rw [b.fate_eq concur hover hover']
      have hfind := congrArg (List.findSome? id) hmap
      rwa [List.findSome?_map, List.findSome?_map] at hfind
    dsimp only
    rw [hfailures]

/-- **What a job is told decides how far it comes.** -/
theorem station_eq (complete : b.Complete ds notices) (complete' : b.Complete ds' notices)
    (concur : Concur ds ds') : b.station ds notices = b.station ds' notices := by
  have hbroken (m : String) (heq : notices = [.broken m]) :
      b.station ds notices = b.station ds' notices := by
    rw [heq, station, station, List.foldl_cons, List.foldl_cons]
    rfl
  rcases complete with ⟨m, heq⟩ | ended
  · exact hbroken m heq
  rcases complete' with ⟨m, heq⟩ | ended'
  · exact hbroken m heq
  · rw [station, station, b.gathered_eq concur fun items hitems i item hi hname =>
      ⟨ended items hitems i item hi hname, ended' items hitems i item hi hname⟩]

end Brief
end Montage
