import Montage.Proofs.Removals
import Montage.Proofs.Supplies

/-! # The course of a job

A job fetches the files of its timeline and probes them, and then it has its assets and goes on to
render (`Gathered`).  What it does on the way is kept in two journals of the run: the files that
were brought into place (`Service.storedBy`), and what was found out about files
(`Service.probedBy`).

An event leads the task of a job on by one step of its course at most (`Course`).  This is more than
the moves say (`Montage.Proofs.TaskMoves`): a move to the next file does not tell what was found out
about the last one.
-/
namespace Montage

open Service

/-! ### Downloads that are over -/

namespace Download
variable {d : Download} {f : Fetcher} {t : FileTree} {e : DownloadEvent}

/-- The file is in place. -/
def isStored (d : Download) : Bool := d.phase == .stored

theorem isStored_iff : d.isStored = true ↔ d.phase = .stored := by simp [isStored]

theorem step_of_isStored (h : d.isStored = true) : d.step f t e = (d, t) :=
  step_of_isOver (by rw [isStored_iff.mp h]; rfl)

theorem fail_ne_abandoned (fault : FetchFault) : (d.fail t fault).1.phase ≠ .abandoned := by
  unfold fail
  split <;> simp

theorem settle_ne_abandoned (size : Nat) : (d.settle t size).1.phase ≠ .abandoned := by
  unfold settle
  split
  · exact fail_ne_abandoned _
  · split
    · simp
    · exact fail_ne_abandoned _

theorem copy_ne_abandoned : (d.copy f t).1.phase ≠ .abandoned := by
  unfold copy
  split
  · exact fail_ne_abandoned _
  · split
    · exact fail_ne_abandoned _
    · split
      · exact fail_ne_abandoned _
      · exact settle_ne_abandoned _

theorem begin_ne_abandoned (status : Nat) (url : String) :
    (d.begin t status url).1.phase ≠ .abandoned := by
  unfold begin receive
  split
  · simp [doom]
  · split
    · split <;> simp [doom]
    · simp [doom]

/-- A download is given up only when it is told to. -/
theorem step_ne_abandoned (h : d.phase ≠ .abandoned) (he : e ≠ .abandoned) :
    (d.step f t e).1.phase ≠ .abandoned := by
  unfold step
  split
  · exact h
  · cases e with
    | abandoned => exact absurd rfl he
    | refused fault => simp [doom]
    | settled =>
      dsimp only
      split
      · exact settle_ne_abandoned _
      · exact fail_ne_abandoned _
      · exact h
    | copied =>
      dsimp only
      split
      · exact copy_ne_abandoned
      · exact h
    | answered status =>
      dsimp only
      split
      · exact begin_ne_abandoned _ _
      · exact h
    | data | ended | timedOut | broken | unasked =>
      dsimp only
      split
      · simp [append, doom]
      · exact h

end Download

namespace Downloads
variable {ds : Downloads} {f : Fetcher} {t : FileTree} {index : Nat} {e : DownloadEvent}

/-- The items whose files are in place. -/
def storedItems (ds : Downloads) : List (MediaSource × Path) :=
  (ds.filter Download.isStored).map Download.item

/-- The item whose file an event brings into place. -/
def newlyStored (ds : Downloads) (f : Fetcher) (t : FileTree) (index : Nat) (e : DownloadEvent) :
    List (MediaSource × Path) :=
  ((ds[index]?.filter fun d => !d.isStored && (d.step f t e).1.isStored).map Download.item).toList

theorem storedItems_begin (items : List (MediaSource × Path)) :
    Downloads.storedItems (Downloads.begin items) = [] := by
  rw [storedItems, List.filter_eq_nil_iff.mpr fun d hd => ?_, List.map_nil]
  obtain ⟨i, -, rfl⟩ := List.mem_map.mp hd
  simp [Download.isStored]

/-- **What is in place was there before, or the event has brought it.** -/
theorem storedItems_step :
    (ds.step f t index e).1.storedItems.Perm (ds.storedItems ++ ds.newlyStored f t index e) := by
  induction ds generalizing index with
  | nil => exact List.Perm.refl _
  | cons d rest ih =>
    cases index with
    | zero =>
      have hstep : (Downloads.step (d :: rest) f t 0 e).1 = (d.step f t e).1 :: rest := rfl
      have hnew : Downloads.newlyStored (d :: rest) f t 0 e =
          if !d.isStored && (d.step f t e).1.isStored then [d.item] else [] := by
        simp only [newlyStored, List.getElem?_cons_zero, Option.filter_some]
        split <;> rfl
      rw [hstep, hnew]
      cases hold : d.isStored with
      | true => simp [Download.step_of_isStored hold]
      | false =>
        cases hstored : (d.step f t e).1.isStored with
        | true => simpa [storedItems, hold, hstored, d.item_step t f e] using
            (List.perm_append_singleton _ _).symm
        | false => simp [storedItems, hold, hstored]
    | succ index =>
      have hstep : (Downloads.step (d :: rest) f t (index + 1) e).1 =
          d :: (Downloads.step rest f t index e).1 := by
        simp only [Downloads.step, List.getElem?_cons_succ]
        cases rest[index]? <;> rfl
      have hnew : Downloads.newlyStored (d :: rest) f t (index + 1) e =
          Downloads.newlyStored rest f t index e := rfl
      rw [hstep, hnew]
      cases hold : d.isStored with
      | true => simpa [storedItems, hold] using ih
      | false => simpa [storedItems, hold] using ih

theorem step_ne_abandoned (h : ∀ d ∈ ds, d.phase ≠ .abandoned) (he : e ≠ .abandoned) :
    ∀ d ∈ (ds.step f t index e).1, d.phase ≠ .abandoned := by
  unfold step
  split
  · exact h
  · rename_i d hd
    intro d' hd'
    rcases List.mem_or_eq_of_mem_set hd' with hd' | rfl
    · exact h d' hd'
    · exact Download.step_ne_abandoned (h d (List.mem_of_getElem? hd)) he

/-- A download that is given up is not in place. -/
theorem newlyStored_abandoned : ds.newlyStored f t index .abandoned = [] := by
  have hnone (d : Download) : (!d.isStored && (d.step f t .abandoned).1.isStored) = false := by
    by_cases hover : d.phase.isOver = true
    · rw [Download.step_of_isOver hover, Bool.not_and_self]
    · simp [Download.step, hover, Download.isStored]
  simp [newlyStored, hnone]

/-- Without a fault all files are in place, if no download was given up. -/
theorem storedItems_of_result {paths : List Path} (h : ds.result? = some (.ok paths))
    (kept : ∀ d ∈ ds, d.phase ≠ .abandoned) : ds.storedItems = ds.map Download.item := by
  unfold result? at h
  split at h
  · rename_i hover
    split at h
    · cases h
    · rename_i hfine
      rw [storedItems, List.filter_eq_self.mpr fun d hd => ?_]
      have hd' := List.all_eq_true.mp hover d hd
      have hfail := List.findSome?_eq_none_iff.mp hfine d hd
      rw [Download.isStored_iff]
      have hgiven := kept d hd
      cases hphase : d.phase <;> simp_all [DownloadPhase.isOver]
  · cases h

end Downloads

/-! ### Journals -/

namespace Service
variable {s : Service} {id : JobId} {t t' : Task} {e : Event}

/-- What is noted along a run, event by event. -/
def journal {α : Type} (note : Service → Event → List α) (s : Service) : List Event → List α
  | [] => []
  | e :: rest => note s e ++ (s.step e).journal note rest

theorem journal_append {α : Type} {note : Service → Event → List α} (before after : List Event) :
    s.journal note (before ++ after) =
      s.journal note before ++ (s.run before).journal note after := by
  induction before generalizing s with
  | nil => rfl
  | cons e rest ih => rw [List.cons_append, journal, ih, journal, run_cons, List.append_assoc]

theorem journal_concat {α : Type} {note : Service → Event → List α} (before : List Event) :
    s.journal note (before ++ [e]) = s.journal note before ++ note (s.run before) e := by
  rw [journal_append, journal, journal, List.append_nil]

/-- The downloads of a job. -/
def downloads (s : Service) (id : JobId) : Downloads :=
  match (s.task? id).map Task.phase with
  | some (.fetching ds) => ds
  | _ => []

/-- The file that an event brings into place for a job, with its source. -/
def storedBy (id : JobId) (s : Service) : Event → List (MediaSource × Path)
  | .download job index e =>
    if job = id then (s.downloads id).newlyStored s.setup.fetcher s.store.files index e else []
  | _ => []

/-- What is known of a file that was probed. -/
abbrev Finding := (MediaSource × Path) × Probe.MediaInfo

/-- What an event finds out for a job about the next of its files. -/
def probedBy (id : JobId) (s : Service) : Event → List Finding
  | .probed job outcome =>
    if job = id then
      match (s.listening? id).map Task.phase with
      | some (.probing _ (item :: _)) =>
        (Probe.probe item.2.text outcome).toOption.toList.map fun info => (item, info)
      | _ => []
    else []
  | _ => []

/-- The asset that a file is, under the key of its source. -/
def Finding.entry (directory : Path) (n : Finding) : String × Asset :=
  (n.1.1.key, assetOf directory n.1.2 n.2)

theorem storedBy_of_other (other : e.job? ≠ some id) : s.storedBy id e = [] := by
  cases e with
  | download job index e =>
    exact if_neg fun h => other (congrArg some h)
  | _ => rfl

theorem probedBy_of_other (other : e.job? ≠ some id) : s.probedBy id e = [] := by
  cases e with
  | probed job outcome => exact if_neg fun h => other (congrArg some h)
  | _ => rfl

/-- Where nothing is fetched there are no downloads. -/
theorem downloads_of_not_fetching (task : s.task? id = some t)
    (other : ∀ ds, t.phase ≠ .fetching ds) : s.downloads id = [] := by
  unfold downloads
  rw [task]
  split
  · rename_i phase
    exact absurd (Option.some.inj phase) (other _)
  · rfl

theorem tasks_leaveOutput (s : Service) (id : JobId) (size : Option Nat) :
    (s.leaveOutput id size).tasks = s.tasks := by
  unfold leaveOutput
  repeat' split
  all_goals rfl

/-! ### The course of a task -/

/-- The task of a job has its assets with an event: nothing was to be fetched, or the last of its
files was probed. -/
inductive Gathered (s : Service) : Event → Task → List (String × Asset) → Prop where
  | nothing (t : Task) (task : s.listening? t.job = some t) (phase : t.phase = .fetching []) :
      Gathered s (.moved t.job) t []
  | last (t : Task) (outcome : Probe.Outcome) (done : List (String × Asset))
      (item : MediaSource × Path) (info : Probe.MediaInfo) (task : s.listening? t.job = some t)
      (phase : t.phase = .probing done [item])
      (read : Probe.probe item.2.text outcome = .ok info) :
      Gathered s (.probed t.job outcome) t
        (done ++ [Finding.entry (s.store.directory t.job) (item, info)])

/-- How a task that is still there stands after an event. -/
inductive Course (s : Service) (t : Task) (e : Event) : TaskPhase → Prop where
  | stays (stored : s.storedBy t.job e = []) (probed : s.probedBy t.job e = []) :
      Course s t e t.phase
  | waits (about : e = .moved t.job) (phase : t.phase = .created) : Course s t e .waiting
  | fetches (items : List (MediaSource × Path)) (about : e = .moved t.job)
      (early : t.phase = .created ∨ t.phase = .waiting)
      (targets : fetchItems t.timeline (s.store.directory t.job ++ [Job.assetsName]) 0
        t.timeline.sources = .ok items) : Course s t e (.fetching (Downloads.begin items))
  | downloads (ds : Downloads) (index : Nat) (d : DownloadEvent)
      (about : e = .download t.job index d) (phase : t.phase = .fetching ds)
      (told : d = .abandoned → t.cancelled = true) :
      Course s t e (.fetching (ds.step s.setup.fetcher s.store.files index d).1)
  | fetched (ds : Downloads) (paths : List Path) (about : e = .moved t.job)
      (awake : t.cancelled = false) (phase : t.phase = .fetching ds)
      (result : ds.result? = some (.ok paths)) :
      Course s t e (.probing [] (ds.map Download.item))
  | probes (outcome : Probe.Outcome) (done : List (String × Asset)) (item : MediaSource × Path)
      (left : List (MediaSource × Path)) (info : Probe.MediaInfo)
      (about : e = .probed t.job outcome) (awake : t.cancelled = false)
      (phase : t.phase = .probing done (item :: left))
      (read : Probe.probe item.2.text outcome = .ok info) :
      Course s t e (.probing (done ++ [Finding.entry (s.store.directory t.job) (item, info)]) left)
  | renders (assets : List (String × Asset)) (plan : Plan Label Filter)
      (gathered : Gathered s e t assets)
      (made : (s.setup.compiler.compile t.timeline fun key => assets.lookup key) = .ok plan) :
      Course s t e (.starting plan.toText)
  | goesOn (p : TaskPhase) (before : t.phase.jobState = .rendering)
      (after : p.jobState = .rendering) : Course s t e p

/-- The task of a job is over or goes on in its course. -/
def Continues (s : Service) (t : Task) (e : Event) (s' : Service) : Prop :=
  ∀ t', s'.task? t.job = some t' → ∃ p, t' = { t with phase := p } ∧ Course s t e p

/-- The task renders, or it is over. -/
def Renders (t : Task) (s : Service) : Prop :=
  ∀ t', s.task? t.job = some t' → ∃ p, t' = { t with phase := p } ∧ p.jobState = .rendering

namespace Renders
variable {s' : Service}

theorem of_gone (gone : s.task? t.job = none) : Renders t s := fun _ task' =>
  nomatch gone.symm.trans task'

theorem not_early (h : Renders t s) (task : s.task? t.job = some t')
    (early : t'.phase.jobState ≠ .rendering) : False := by
  obtain ⟨p, rfl, after⟩ := h t' task
  exact early after

theorem setPhase (h : Renders t s) (tasks : s'.tasks = s.tasks) {p : TaskPhase}
    (after : p.jobState = .rendering) : Renders t (s'.setPhase t.job p) := by
  intro t' task'
  rw [task?_setPhase, task?, tasks] at task'
  obtain ⟨u, task, rfl⟩ := Option.map_eq_some_iff.mp task'
  obtain ⟨q, rfl, -⟩ := h u task
  exact ⟨p, if_pos rfl, after⟩

theorem quiet (h : Renders t s) (move : Quiet t.job s s') : Renders t s' := by
  cases move with
  | note | write | exit | kill => exact h
  | download u ds index d task phase =>
    exact (h.not_early task (by simp [phase, TaskPhase.jobState])).elim
  | fetch u j items task phase found targets =>
    exact (h.not_early task (by simp [phase, TaskPhase.jobState])).elim
  | probe u done left task phase => exact (h.not_early task (by simp [phase])).elim
  | spawn | watch => exact h.setPhase rfl rfl
  | wait u task phase awake => exact (h.not_early task (by simp [phase, TaskPhase.jobState])).elim
  | vanish | resign => exact of_gone (by rw [task?_endTask, if_pos rfl])
  | leave => exact of_gone (task?_leave _ _ _)

theorem advance (h : Renders t s) (move : Advance t.job s s') : Renders t s' := by
  cases move with
  | begin u slots task awake slot =>
    have early : u.phase.jobState ≠ .rendering := by
      rcases slot with ⟨phase, -⟩ | ⟨phase, -⟩ <;> simp [phase, TaskPhase.jobState]
    exact (h.not_early task early).elim
  | render u plan task phase => exact (h.not_early task (by simp [phase])).elim
  | complete => exact of_gone (task?_leave _ _ _)

theorem moves {b : Bool} (h : Renders t s) (moves : Moves t.job s b s') : Renders t s' :=
  moves.preserves (fun _ _ h move => h.quiet move) (fun _ _ h move => h.advance move) h

end Renders

section Continues
variable {s' : Service}

theorem continues_gone (gone : s'.task? t.job = none) : Continues s t e s' :=
  fun _ task' => nomatch gone.symm.trans task'

theorem continues_setPhase (task : s'.task? t.job = some t) {p : TaskPhase}
    (course : Course s t e p) : Continues s t e (s'.setPhase t.job p) := by
  intro t' task'
  cases (task?_setPhase_self task p).symm.trans task'
  exact ⟨p, rfl, course⟩

variable (task : s.task? t.job = some t)
include task

theorem continues_same (same : s'.task? t.job = s.task? t.job) (stored : s.storedBy t.job e = [])
    (probed : s.probedBy t.job e = []) : Continues s t e s' := by
  intro t' task'
  cases (same.trans task).symm.trans task'
  exact ⟨t.phase, rfl, .stays stored probed⟩

theorem continues_beginWork (placed : Placed s) {slots : Slots}
    (early : t.phase = .created ∨ t.phase = .waiting) :
    Continues s t (.moved t.job) ((s.setSlots slots).beginWork t) := by
  rw [beginWork]
  rcases heq : (s.setSlots slots).store.transition (s.setSlots slots).rounding t.job .downloading
    none (some "Fetching assets") (s.setSlots slots).now with ⟨answer, store⟩
  cases answer with
  | error f => exact continues_gone (task?_leave _ _ _)
  | ok job =>
    have hdirectory : job.directory = s.store.directory t.job := by
      have hfound := Store.find?_of_transition_ok heq
      have hmoved := Store.find?_transition (s.setSlots slots).store (s.setSlots slots).rounding
        t.job .downloading none (some "Fetching assets") (s.setSlots slots).now t.job
      rw [heq, hfound] at hmoved
      obtain ⟨j, hj, rfl⟩ := Option.map_eq_some_iff.mp hmoved.symm
      rw [if_pos rfl, Store.directory_moved]
      exact placed.directories t.job j hj
    dsimp only
    split
    · exact continues_gone (task?_leave _ _ _)
    · split
      · exact continues_gone (task?_leave _ _ _)
      · rename_i items targets
        rw [Job.assets, hdirectory] at targets
        exact continues_setPhase task (.fetches items rfl early targets)

/-- Compiling ends the task or leads on to the engine. -/
theorem continues_compile (tasks : s'.tasks = s.tasks) (setup : s'.setup = s.setup)
    {assets : List (String × Asset)} (gathered : Gathered s e t assets) :
    Continues s t e (s'.compile t assets) := by
  unfold compile
  split
  · exact continues_gone (task?_leave _ _ _)
  · dsimp only
    split
    · exact continues_gone (task?_leave _ _ _)
    · rename_i plan made
      split
      · exact continues_gone (task?_leave _ _ _)
      · refine continues_setPhase ?_ (.renders assets plan gathered (setup ▸ made))
        rw [← task]
        exact congrArg (List.find? _) tasks

theorem continues_takeFetched {ds : Downloads} (awake : t.cancelled = false)
    (phase : t.phase = .fetching ds) : Continues s t (.moved t.job) (s.takeFetched t ds) := by
  unfold takeFetched
  split
  · exact continues_same task rfl rfl rfl
  · exact continues_gone (task?_leave _ _ _)
  · rename_i paths result
    cases ds with
    | nil =>
      change Continues s t _ ((s.note t.job "Probing assets").compile t [])
      have gathered := Gathered.nothing t (listening?_eq_some.mpr ⟨task, awake⟩) phase
      exact continues_compile task (by rfl) (by rfl) gathered
    | cons d rest =>
      exact continues_setPhase task (.fetched (d :: rest) paths rfl awake phase result)

theorem continues_takeProbed {outcome : Probe.Outcome} (awake : t.cancelled = false)
    {done : List (String × Asset)} {source : MediaSource} {path : Path}
    {left : List (MediaSource × Path)} (phase : t.phase = .probing done ((source, path) :: left)) :
    Continues s t (.probed t.job outcome) (s.takeProbed t outcome done source path left) := by
  unfold takeProbed
  split
  · exact continues_gone (task?_leave _ _ _)
  · rename_i info read
    cases left with
    | nil =>
      exact continues_compile task rfl rfl (.last t outcome done (source, path) info
        (listening?_eq_some.mpr ⟨task, awake⟩) phase read)
    | cons item rest =>
      exact continues_setPhase task
        (.probes outcome done (source, path) (item :: rest) info rfl awake phase read)

theorem continues_moveTask (placed : Placed s) :
    Continues s t (.moved t.job) (s.moveTask t) := by
  unfold moveTask
  split
  · exact continues_gone (task?_stop s t)
  · rename_i hawake
    have awake : t.cancelled = false := by simpa using hawake
    split
    · rename_i phase
      split
      · exact continues_beginWork task placed (Or.inl phase)
      · exact continues_setPhase task (.waits rfl phase)
    · rename_i phase
      split
      · exact continues_beginWork task placed (Or.inr phase)
      · exact continues_same task rfl rfl rfl
    · rename_i ds phase
      exact continues_takeFetched task awake phase
    · exact continues_same task rfl rfl rfl

theorem continues_takeDownload (index : Nat) (d : DownloadEvent) :
    Continues s t (.download t.job index d) (s.takeDownload t index d) := by
  unfold takeDownload
  split
  · rename_i ds phase
    split
    · rename_i hawake
      refine continues_same task rfl ?_ rfl
      rw [storedBy, if_pos rfl, hawake.1]
      exact Downloads.newlyStored_abandoned
    · rename_i htold
      refine continues_setPhase task (.downloads ds index d rfl phase fun habandoned => ?_)
      simpa [habandoned] using htold
  · rename_i hother
    refine continues_same task rfl ?_ rfl
    rw [storedBy, if_pos rfl, downloads_of_not_fetching task hother]
    rfl

/-- A task that renders goes on rendering, or it is over. -/
theorem continues_of_rendering (about : e.job? = some t.job)
    (before : t.phase.jobState = .rendering) : Continues s t e (s.step e) := by
  obtain ⟨b, moves⟩ := step_moves about s
  have hstart : Renders t s := fun t' task' => by
    cases task.symm.trans task'
    exact ⟨t.phase, rfl, before⟩
  intro t' task'
  obtain ⟨p, heq, after⟩ := hstart.moves moves t' task'
  exact ⟨p, heq, .goesOn p before after⟩

/-- **The course of a task, event by event.** -/
theorem continues_step (placed : Placed s) (about : e.job? = some t.job) :
    Continues s t e (s.step e) := by
  by_cases before : t.phase.jobState = .rendering
  · exact continues_of_rendering task about before
  cases e with
  | submitted | asked | advanced | outOfPatience | ticked | disk => cases about
  | moved job =>
    obtain rfl := Option.some.inj about
    rw [step, task]
    exact continues_moveTask task placed
  | download job index d =>
    obtain rfl := Option.some.inj about
    rw [step, task]
    exact continues_takeDownload task index d
  | probed job outcome =>
    obtain rfl := Option.some.inj about
    rw [step]
    split
    · rename_i u listens
      obtain ⟨task', awake⟩ := listening?_eq_some.mp listens
      cases task.symm.trans task'
      split
      · rename_i done source path left phase
        exact continues_takeProbed task awake phase
      · rename_i hother
        refine continues_same task rfl rfl ?_
        rw [probedBy, if_pos rfl, listens]
        dsimp only [Option.map_some]
        split
        · rename_i phase
          exact absurd (Option.some.inj phase) (hother _ _ _ _)
        · rfl
    · rename_i silent
      refine continues_same task rfl rfl ?_
      rw [probedBy, if_pos rfl, silent]
      rfl
  | spawned job outcome =>
    obtain rfl := Option.some.inj about
    rw [step]
    split
    · rename_i u listens
      cases task.symm.trans (listening?_eq_some.mp listens).1
      split
      · rename_i plan phase
        exact absurd (phase ▸ rfl) before
      · exact continues_same task rfl rfl rfl
    · exact continues_same task rfl rfl rfl
  | wrote job output errors =>
    obtain rfl := Option.some.inj about
    rw [step]
    split
    · rename_i u listens
      cases task.symm.trans (listening?_eq_some.mp listens).1
      split
      · rename_i plan watch phase
        exact absurd (phase ▸ rfl) before
      · exact continues_same task rfl rfl rfl
    · exact continues_same task rfl rfl rfl
  | produced job size =>
    refine continues_same task ?_ rfl rfl
    rw [step]
    split
    · exact congrArg (List.find? _) (tasks_leaveOutput _ _ _)
    · rfl
  | exited job code size =>
    obtain rfl := Option.some.inj about
    rw [step, takeEnd]
    have hsame : ((s.setProcess t.job (.exited code)).leaveOutput t.job size).task? t.job =
        s.task? t.job := congrArg (List.find? _) (tasks_leaveOutput _ _ _)
    split
    · dsimp only
      split
      · rename_i u listens
        cases task.symm.trans (hsame.symm.trans (listening?_eq_some.mp listens).1)
        split
        · rename_i plan watch phase
          exact absurd (phase ▸ rfl) before
        · exact continues_same task hsame rfl rfl
      · exact continues_same task hsame rfl rfl
    · exact continues_same task rfl rfl rfl
  | raised job message =>
    obtain rfl := Option.some.inj about
    rw [step]
    split
    · rename_i u listens
      cases task.symm.trans (listening?_eq_some.mp listens).1
      unfold takeFailure
      split
      · exact continues_gone (task?_leave _ _ _)
      · exact continues_same task rfl rfl rfl
    · exact continues_same task rfl rfl rfl
  | strayed job name content =>
    refine continues_same task ?_ rfl rfl
    rw [step, stray]
    repeat' split
    all_goals rfl

end Continues

end Service
end Montage
