import Montage.Proofs.StoreRecords
import Montage.Service.Run

/-! # What a task can do

An event of a job is answered by handlers that call each other, and each of them ends in several
ways.  For what is to hold in all runs this is too coarse: here every such event is taken apart
into **moves**, each of which changes one thing.

A move either advances the job to its next state (`Advance`) or leaves the state of the job alone
as long as the job goes on (`Quiet`): it takes a note, writes a file, or ends the task, with a
failure if the job is still there.  A move names what the handlers have looked at, and nothing of
how they call each other.

`step_moves` is the one place where the handlers are opened: an event of a job is a chain of moves
with at most one advance.  So no job skips a state, and whatever every move preserves is preserved
by every such event.
-/
namespace Montage

/-- The state of a job whose task stands at a phase. -/
def TaskPhase.jobState : TaskPhase → JobState
  | created | waiting => .queued
  | fetching _ | probing _ _ => .downloading
  | starting _ | encoding _ _ => .rendering

/-- The job whose task, process or files an event is about. -/
def Event.job? : Event → Option JobId
  | moved id | download id _ _ | probed id _ | spawned id _ | wrote id _ _ | produced id _
  | exited id _ _ | raised id _ | strayed id _ _ => some id
  | _ => none

namespace Service

variable {s : Service} {id other : JobId}

/-! ### Looking at the tasks -/

theorem job_of_task? {t : Task} (h : s.task? id = some t) : t.job = id := by
  simpa using List.find?_some h

theorem mem_of_task? {t : Task} (h : s.task? id = some t) : t ∈ s.tasks :=
  List.mem_of_find?_eq_some h

theorem task?_eq_none : s.task? id = none ↔ ∀ t ∈ s.tasks, t.job ≠ id := by
  simp [task?]

theorem task?_isSome : (s.task? id).isSome = true ↔ ∃ t ∈ s.tasks, t.job = id := by
  simp [task?]

@[simp] theorem store_setStore (s : Service) (store : Store) : (s.setStore store).store = store := rfl

theorem setFiles_setPhase (s : Service) (id : JobId) (p : TaskPhase) (files : FileTree) :
    (s.setPhase id p).setFiles files = (s.setFiles files).setPhase id p := rfl

theorem listening?_eq_some {t : Task} :
    s.listening? id = some t ↔ s.task? id = some t ∧ t.cancelled = false := by
  simp [listening?, Option.filter_eq_some_iff]

theorem task?_setPhase (s : Service) (id other : JobId) (p : TaskPhase) :
    (s.setPhase id p).task? other =
      (s.task? other).map fun t => if other = id then { t with phase := p } else t :=
  find?_changeAt Task.job (f := fun t => { t with phase := p }) (fun _ h => h) s.tasks other

theorem task?_cancel (s : Service) (id other : JobId) :
    (s.cancel id).task? other =
      (s.task? other).map fun t => if other = id then { t with cancelled := true } else t :=
  find?_changeAt Task.job (f := fun t => { t with cancelled := true }) (fun _ h => h) s.tasks other

theorem process?_setProcess (s : Service) (id other : JobId) (status : ProcessStatus) :
    (s.setProcess id status).process? other =
      (s.process? other).map fun p => if other = id then status else p := by
  have hfind := find?_changeAt Process.job (f := fun p => { p with status })
    (fun _ (h : _ = id) => h) s.processes other
  simp only [process?, setProcess, hfind, Option.map_map]
  congr 1
  funext p
  simp only [Function.comp]
  split <;> rfl

theorem task?_setPhase_self {t : Task} (h : s.task? id = some t) (p : TaskPhase) :
    (s.setPhase id p).task? id = some { t with phase := p } := by
  simp [task?_setPhase, h]

theorem task?_endTask (s : Service) (id other : JobId) :
    (s.endTask id).task? other = if other = id then none else s.task? other := by
  simp only [task?, endTask, List.find?_filter]
  split
  · rename_i h
    subst h
    simp
  · rename_i h
    congr 1
    funext t
    by_cases ht : t.job = other <;> simp [ht, h]

theorem task?_append (s : Service) (t : Task) (id : JobId) :
    Service.task? { s with tasks := s.tasks ++ [t] } id =
      (s.task? id).or (if t.job = id then some t else none) := by
  simp only [task?, List.find?_append]
  congr 1
  by_cases hid : t.job = id <;> simp [hid]

theorem task?_append_eq_some {t u : Task}
    (h : Service.task? { s with tasks := s.tasks ++ [t] } id = some u) :
    s.task? id = some u ∨ id = t.job ∧ u = t := by
  rw [task?_append, Option.or_eq_some_iff] at h
  rcases h with h | ⟨-, h⟩
  · exact Or.inl h
  · split at h
    · rename_i hid
      exact Or.inr ⟨hid.symm, (Option.some.inj h).symm⟩
    · cases h

@[simp] theorem setPhase_setPhase (s : Service) (id : JobId) (p q : TaskPhase) :
    (s.setPhase id p).setPhase id q = s.setPhase id q := by
  simp only [setPhase, List.map_map]
  congr 1
  refine List.map_congr_left fun t _ => ?_
  by_cases h : t.job = id <;> simp [h]

@[simp] theorem endTask_setPhase (s : Service) (id : JobId) (p : TaskPhase) :
    (s.setPhase id p).endTask id = s.endTask id := by
  simp only [setPhase, endTask]
  congr 1
  induction s.tasks with
  | nil => rfl
  | cons t rest ih =>
    simp only [beq_iff_eq] at ih
    by_cases h : t.job = id <;> simp [h, ih]

/-- Where a task stood does not matter when it is over. -/
@[simp] theorem leave_setPhase (s : Service) (id : JobId) (p : TaskPhase) (failure : Option String) :
    (s.setPhase id p).leave id failure = s.leave id failure := by
  cases failure with
  | none => exact endTask_setPhase (s.setSlots s.slots.release) id p
  | some m => exact endTask_setPhase ((s.setSlots s.slots.release).fail id m) id p

end Service

/-! ### Moves -/

open Service

/-- What can be written on the way of a job. -/
inductive Writing (id : JobId) (s : Service) : FileTree → Prop where
  | assets (j : Job) (u : FileTree) (found : s.store.find? id = some j)
      (made : s.store.files.ensureChild j.assets = .ok u) : Writing id s u
  | plan (t : Task) (j : Job) (c : Content) (u : FileTree) (task : s.task? id = some t)
      (found : s.store.find? id = some j)
      (made : s.store.files.write (j.directory ++ ["plan.json"]) c = .ok u) : Writing id s u
  | output (size : Nat) (u : FileTree) (running : s.process? id = some .running)
      (made : s.store.files.write (s.store.directory id ++ [Job.outputName]) (.media size) = .ok u) :
      Writing id s u
  | stray (name : String) (c : Content) (u : FileTree) (issued : s.store.hasIssued id = true)
      (made : s.store.files.write (s.store.directory id ++ [Job.assetsName, name]) c = .ok u) :
      Writing id s u
  /-- The part files of downloads that were given up are removed. -/
  | abandoned (t : Task) (ds : Downloads) (task : s.task? id = some t)
      (phase : t.phase = .fetching ds) :
      Writing id s (ds.abandon s.setup.fetcher s.store.files).2

/-- A move that does not advance the job. -/
inductive Quiet (id : JobId) (s : Service) : Service → Prop where
  | note (stage : String) : Quiet id s (s.note id stage)
  | write (u : FileTree) (written : Writing id s u) : Quiet id s (s.setFiles u)
  /-- Something happens to a download. -/
  | download (t : Task) (ds : Downloads) (index : Nat) (e : DownloadEvent)
      (task : s.task? id = some t) (phase : t.phase = .fetching ds) :
      Quiet id s ((s.setFiles (ds.step s.setup.fetcher s.store.files index e).2).setPhase id
        (.fetching (ds.step s.setup.fetcher s.store.files index e).1))
  /-- The assets are asked for. -/
  | fetch (t : Task) (j : Job) (items : List (MediaSource × Path)) (task : s.task? id = some t)
      (phase : t.phase = .fetching []) (found : s.store.find? id = some j)
      (targets : fetchItems t.timeline j.assets 0 t.timeline.sources = .ok items) :
      Quiet id s (s.setPhase id (.fetching (Downloads.begin items)))
  | probe (t : Task) (done : List (String × Asset)) (left : List (MediaSource × Path))
      (task : s.task? id = some t) (phase : t.phase.jobState = .downloading) :
      Quiet id s (s.setPhase id (.probing done left))
  /-- The engine is started. -/
  | spawn (t : Task) (plan : TextPlan) (watch : Engine.Watch) (task : s.task? id = some t)
      (phase : t.phase = .starting plan) :
      Quiet id s ((s.addProcess id).setPhase id (.encoding plan watch))
  /-- Output of the engine is read. -/
  | watch (t : Task) (plan : TextPlan) (before after : Engine.Watch) (task : s.task? id = some t)
      (phase : t.phase = .encoding plan before) :
      Quiet id s (s.setPhase id (.encoding plan after))
  | exit (code : Int) (running : s.process? id = some .running) :
      Quiet id s (s.setProcess id (.exited code))
  | kill (running : s.process? id = some .running) : Quiet id s (s.setProcess id .killed)
  /-- No slot is free. -/
  | wait (t : Task) (task : s.task? id = some t) (phase : t.phase = .created)
      (awake : t.cancelled = false) :
      Quiet id s ((s.setSlots (s.slots.enqueue id)).setPhase id .waiting)
  /-- The task was told to stop before it moved. -/
  | vanish (t : Task) (task : s.task? id = some t) (phase : t.phase = .created)
      (told : t.cancelled = true) : Quiet id s (s.endTask id)
  /-- The task was told to stop while it waited. -/
  | resign (t : Task) (task : s.task? id = some t) (phase : t.phase = .waiting)
      (told : t.cancelled = true) :
      Quiet id s (((s.setSlots (s.slots.leave id)).fail id cancelledMessage).endTask id)
  /-- Without a failure only a job that is gone is left.  A task that was told to stop does not
  leave a process that runs. -/
  | leave (t : Task) (failure : Option String) (task : s.task? id = some t)
      (holds : t.phase.holdsSlot = true) (gone : failure = none → s.store.find? id = none)
      (killed : ∀ plan watch, t.phase = .encoding plan watch → t.cancelled = true →
        s.process? id ≠ some .running) :
      Quiet id s (s.leave id failure)

/-- A move that advances the job. -/
inductive Advance (id : JobId) (s : Service) : Service → Prop where
  /-- The task goes to work on a slot. -/
  | begin (t : Task) (slots : Slots) (task : s.task? id = some t) (awake : t.cancelled = false)
      (slot : t.phase = .created ∧ s.slots.take? = some slots ∨
        t.phase = .waiting ∧ s.slots.isGranted id = true ∧ slots = s.slots.resume id) :
      Advance id s (((s.setSlots slots).setStore (s.store.transition s.rounding id .downloading none
        (some "Fetching assets") s.now).2).setPhase id (.fetching []))
  /-- All assets are there. -/
  | render (t : Task) (plan : TextPlan) (task : s.task? id = some t)
      (phase : t.phase.jobState = .downloading) :
      Advance id s ((s.setStore (s.store.transition s.rounding id .rendering none
        (some "Compiling timeline") s.now).2).setPhase id (.starting plan))
  /-- The engine has succeeded. -/
  | complete (t : Task) (plan : TextPlan) (watch : Engine.Watch) (failure : Option String)
      (task : s.task? id = some t) (phase : t.phase = .encoding plan watch)
      (exited : s.process? id = some (.exited 0))
      (size : s.setup.minOutputBytes ≤
        ((s.store.files.size? (s.store.directory id ++ [Job.outputName])).getD 0 : Nat)) :
      Advance id s ((s.setStore (s.store.transition s.rounding id .completed none none
        s.now).2).leave id failure)

/-- A chain of moves, and whether one of them is an advance; there is at most one. -/
inductive Moves (id : JobId) (s : Service) : Bool → Service → Prop where
  | refl : Moves id s false s
  | quiet {b : Bool} {t u : Service} (before : Moves id s b t) (move : Quiet id t u) :
      Moves id s b u
  | advance {t u : Service} (before : Moves id s false t) (move : Advance id t u) :
      Moves id s true u

namespace Moves
variable {id : JobId} {s t u : Service} {b : Bool}

theorem of_quiet (h : Quiet id s t) : Moves id s false t := .quiet .refl h

theorem of_advance (h : Advance id s t) : Moves id s true t := .advance .refl h

theorem trans (h : Moves id s false t) (h' : Moves id t b u) : Moves id s b u := by
  induction h' with
  | refl => exact h
  | quiet _ move ih => exact ih.quiet move
  | advance _ move ih => exact ih.advance move

/-- **What every move preserves is preserved by a chain.** -/
theorem preserves {P : Service → Prop} (quiet : ∀ s t, P s → Quiet id s t → P t)
    (advance : ∀ s t, P s → Advance id s t → P t) (h : Moves id s b t) (hs : P s) : P t := by
  induction h with
  | refl => exact hs
  | quiet _ move ih => exact quiet _ _ ih move
  | advance _ move ih => exact advance _ _ ih move

end Moves

/-- What no move of a task changes. -/
structure SameFrame (s t : Service) : Prop where
  setup : t.setup = s.setup
  calls : t.calls = s.calls
  accepting : t.accepting = s.accepting
  now : t.now = s.now
  root : t.store.root = s.store.root
  issued : t.store.issued = s.store.issued

theorem sameFrame_leave (s : Service) (id : JobId) (failure : Option String) :
    SameFrame s (s.leave id failure) := by
  cases failure with
  | none => exact ⟨rfl, rfl, rfl, rfl, rfl, rfl⟩
  | some m =>
    exact ⟨rfl, rfl, rfl, rfl, Store.transition_frame.1, Store.transition_frame.2.1⟩

theorem Quiet.sameFrame {id : JobId} {s t : Service} (move : Quiet id s t) : SameFrame s t := by
  cases move with
  | leave t failure task holds gone killed => exact sameFrame_leave s id failure
  | resign t task phase told =>
    exact ⟨rfl, rfl, rfl, rfl, Store.transition_frame.1, Store.transition_frame.2.1⟩
  | _ => exact ⟨rfl, rfl, rfl, rfl, rfl, rfl⟩

theorem Advance.sameFrame {id : JobId} {s t : Service} (move : Advance id s t) : SameFrame s t := by
  cases move with
  | begin t slots task awake slot =>
    exact ⟨rfl, rfl, rfl, rfl, Store.transition_frame.1, Store.transition_frame.2.1⟩
  | render t plan task phase =>
    exact ⟨rfl, rfl, rfl, rfl, Store.transition_frame.1, Store.transition_frame.2.1⟩
  | complete t plan watch failure task phase exited size =>
    have h := sameFrame_leave (s.setStore
      (s.store.transition s.rounding id .completed none none s.now).2) id failure
    exact ⟨h.setup, h.calls, h.accepting, h.now, h.root.trans Store.transition_frame.1,
      h.issued.trans Store.transition_frame.2.1⟩

theorem SameFrame.trans {s t u : Service} (h : SameFrame s t) (h' : SameFrame t u) :
    SameFrame s u :=
  ⟨h'.setup.trans h.setup, h'.calls.trans h.calls, h'.accepting.trans h.accepting,
    h'.now.trans h.now, h'.root.trans h.root, h'.issued.trans h.issued⟩

theorem Moves.sameFrame {id : JobId} {s t : Service} {b : Bool} (h : Moves id s b t) :
    SameFrame s t :=
  h.preserves (fun _ _ h move => h.trans move.sameFrame) (fun _ _ h move => h.trans move.sameFrame)
    ⟨rfl, rfl, rfl, rfl, rfl, rfl⟩

namespace Service

variable {s : Service} {id : JobId} {t : Task}

/-- A refusal without a failure is that the job is gone. -/
theorem find?_of_refused {state : JobState} {error stage : Option String} {f : StoreFault}
    {store : Store}
    (h : s.store.transition s.rounding id state error stage s.now = (.error f, store))
    (hf : storeFailure? f = none) : store.find? id = none := by
  cases f with
  | notFound missing => exact Store.find?_of_transition_notFound h
  | notReady | notForward | files | clock => cases hf

theorem moves_leave {b : Bool} {s' : Service} (h : Moves id s b s') (task : s'.task? id = some t)
    (holds : t.phase.holdsSlot = true) (awake : t.cancelled = false) (m : String) :
    Moves id s b (s'.leave id (some m)) :=
  h.quiet (.leave t (some m) task holds nofun fun _ _ _ h => nomatch awake.symm.trans h)

theorem moves_leaveRefused {b : Bool} {s' : Service} {f : StoreFault} (h : Moves id s b s')
    (task : s'.task? id = some t) (holds : t.phase.holdsSlot = true) (awake : t.cancelled = false)
    (gone : storeFailure? f = none → s'.store.find? id = none) :
    Moves id s b (s'.leaveRefused id f) :=
  h.quiet (.leave t _ task holds gone fun _ _ _ h => nomatch awake.symm.trans h)

/-! ### Working on a slot -/

theorem moves_beginWork {slots : Slots} (task : s.task? t.job = some t)
    (awake : t.cancelled = false)
    (slot : t.phase = .created ∧ s.slots.take? = some slots ∨
      t.phase = .waiting ∧ s.slots.isGranted t.job = true ∧ slots = s.slots.resume t.job) :
    Moves t.job s true ((s.setSlots slots).beginWork t) := by
  have hbegin := Moves.of_advance (Advance.begin t slots task awake slot)
  have htask : ∀ store, (((s.setSlots slots).setStore store).setPhase t.job (.fetching [])).task?
      t.job = some { t with phase := .fetching [] } := fun store => task?_setPhase_self task _
  rw [beginWork]
  rcases heq : (s.setSlots slots).store.transition (s.setSlots slots).rounding t.job .downloading
    none (some "Fetching assets") (s.setSlots slots).now with ⟨answer, store⟩
  have heq' : s.store.transition s.rounding t.job .downloading none (some "Fetching assets") s.now =
    (answer, store) := heq
  rw [heq'] at hbegin
  cases answer with
  | error f =>
    -- the store refuses: what has begun is left again
    have hleave := moves_leaveRefused hbegin (htask store) rfl awake (find?_of_refused heq')
    rwa [leaveRefused, leave_setPhase] at hleave
  | ok job =>
    have hfound : store.find? t.job = some job := Store.find?_of_transition_ok heq'
    dsimp only
    cases hmade : store.files.ensureChild job.assets with
    | error f =>
      have hleave := moves_leave hbegin (htask store) rfl awake (unforeseen f.message)
      rw [leave_setPhase] at hleave
      simpa only [store_setStore, hmade] using hleave
    | ok files =>
      have hassets := hbegin.quiet (.write files (.assets job files hfound hmade))
      have htask' : ((((s.setSlots slots).setStore store).setPhase t.job (.fetching [])).setFiles
          files).task? t.job = some { t with phase := .fetching [] } := htask store
      simp only [store_setStore, hmade]
      cases hitems : fetchItems t.timeline job.assets 0 t.timeline.sources with
      | error f =>
        have hleave := moves_leave hassets htask' rfl awake (unforeseen f.message)
        rwa [setFiles_setPhase, leave_setPhase] at hleave
      | ok items =>
        have hfetch := hassets.quiet (.fetch _ job items htask' rfl hfound hitems)
        rwa [setFiles_setPhase, setPhase_setPhase] at hfetch

theorem moves_compile (task : s.task? t.job = some t) (awake : t.cancelled = false)
    (phase : t.phase.jobState = .downloading) (assets : List (String × Asset)) :
    Moves t.job s true (s.compile t assets) := by
  -- a plan that cannot be made is left at once, so any plan may stand for it
  have hrender (plan : TextPlan) := Moves.of_advance (Advance.render t plan task phase)
  have htask : ∀ (store : Store) (plan : TextPlan), ((s.setStore store).setPhase t.job
      (.starting plan)).task? t.job = some { t with phase := .starting plan } :=
    fun store plan => task?_setPhase_self task _
  rw [compile]
  rcases heq : s.store.transition s.rounding t.job .rendering none (some "Compiling timeline") s.now
    with ⟨answer, store⟩
  rw [heq] at hrender
  cases answer with
  | error f =>
    have hleave := moves_leaveRefused (hrender ⟨[], [], "", .nan, []⟩) (htask store _) rfl awake
      (find?_of_refused heq)
    rwa [leaveRefused, leave_setPhase] at hleave
  | ok job =>
    have hfound : store.find? t.job = some job := Store.find?_of_transition_ok heq
    dsimp only
    split
    · rename_i f hcompile
      have hleave := moves_leave (hrender ⟨[], [], "", .nan, []⟩) (htask store _) rfl awake
        f.problem.message
      rwa [leave_setPhase] at hleave
    · rename_i plan hcompile
      split
      · rename_i f hwrite
        have hleave := moves_leave (hrender plan.toText) (htask store _) rfl awake
          (unforeseen f.message)
        rwa [leave_setPhase] at hleave
      · rename_i files hwrite
        have hwritten := (hrender plan.toText).quiet
          (.write files (.plan _ job _ files (htask store _) hfound hwrite))
        exact hwritten.quiet (.note "Encoding")

theorem moves_continueProbing (task : s.task? t.job = some t) (awake : t.cancelled = false)
    (phase : t.phase.jobState = .downloading) (done : List (String × Asset))
    (left : List (MediaSource × Path)) : ∃ b, Moves t.job s b (s.continueProbing t done left) := by
  cases left with
  | nil => exact ⟨true, moves_compile task awake phase done⟩
  | cons next rest => exact ⟨false, .of_quiet (.probe t done (next :: rest) task phase)⟩

theorem moves_takeFetched {ds : Downloads} (task : s.task? t.job = some t)
    (awake : t.cancelled = false) (phase : t.phase = .fetching ds) :
    ∃ b, Moves t.job s b (s.takeFetched t ds) := by
  unfold takeFetched
  split
  · exact ⟨false, .refl⟩
  · exact ⟨false, moves_leave .refl task (by rw [phase]; rfl) awake _⟩
  · obtain ⟨b, hprobe⟩ := moves_continueProbing (s := s.note t.job "Probing assets") task awake
      (by rw [phase]; rfl) [] (ds.map fun d => (d.source, d.target))
    exact ⟨b, (Moves.of_quiet (.note "Probing assets")).trans hprobe⟩

theorem moves_takeProbed (task : s.task? t.job = some t) (awake : t.cancelled = false)
    {done : List (String × Asset)} {source : MediaSource} {path : Path}
    {left : List (MediaSource × Path)} (phase : t.phase = .probing done ((source, path) :: left))
    (outcome : Probe.Outcome) :
    ∃ b, Moves t.job s b (s.takeProbed t outcome done source path left) := by
  unfold takeProbed
  split
  · exact ⟨false, moves_leave .refl task (by rw [phase]; rfl) awake _⟩
  · exact moves_continueProbing task awake (by rw [phase]; rfl) _ left

/-! ### The engine -/

theorem moves_takeResult (task : s.task? t.job = some t) (awake : t.cancelled = false)
    (holds : t.phase.holdsSlot = true) (result : Engine.Result)
    (exited : result.isOk = true → s.process? t.job = some (.exited 0) ∧
      ∃ plan watch, t.phase = .encoding plan watch) :
    ∃ b, Moves t.job s b (s.takeResult t.job result) := by
  unfold takeResult Engine.Result.accept
  split
  · exact ⟨false, moves_leave .refl task holds awake _⟩
  · rename_i accepted haccept
    have hok : result.isOk = true := by
      by_contra hfail
      simp [hfail] at haccept
    obtain ⟨hexit, plan, watch, phase⟩ := exited hok
    dsimp only
    by_cases hsize : (((s.store.files.size? (s.store.directory t.job ++ [Job.outputName])).getD 0 :
        Nat) : Int) < s.setup.minOutputBytes
    · rw [if_pos hsize]
      exact ⟨false, moves_leave .refl task holds awake _⟩
    · rw [if_neg hsize]
      have hcomplete (failure : Option String) := Moves.of_advance
        (Advance.complete t plan watch failure task phase hexit (by omega))
      rcases heq : s.store.transition s.rounding t.job .completed none none s.now with
        ⟨answer, store⟩
      rw [heq] at hcomplete
      cases answer with
      | error f => exact ⟨true, hcomplete (storeFailure? f)⟩
      | ok job => exact ⟨true, hcomplete none⟩

theorem moves_takeSpawned {plan : TextPlan} (task : s.task? t.job = some t)
    (awake : t.cancelled = false) (phase : t.phase = .starting plan) (outcome : SpawnOutcome) :
    ∃ b, Moves t.job s b (s.takeSpawned t plan outcome) := by
  have holds : t.phase.holdsSlot = true := by rw [phase]; rfl
  cases outcome with
  | refused m => exact ⟨false, moves_leave .refl task holds awake _⟩
  | missing =>
    refine moves_takeResult task awake holds (.missing s.setup.engine.program) fun h => ?_
    exact nomatch (h : false = true)
  | started =>
    have hspawn (watch : Engine.Watch) := Moves.of_quiet (Quiet.spawn t plan watch task phase)
    have htask (watch : Engine.Watch) : ((s.addProcess t.job).setPhase t.job
        (.encoding plan watch)).task? t.job = some { t with phase := .encoding plan watch } :=
      task?_setPhase_self task _
    rw [takeSpawned]
    split
    · -- the process runs, and nobody can watch it
      rename_i f hbegin
      have hleave := moves_leave (hspawn ⟨⟨[]⟩, ⟨[]⟩, ⟨0, []⟩⟩) (htask _) rfl awake
        (unforeseen f.message)
      rw [leave_setPhase] at hleave
      exact ⟨false, hleave⟩
    · rename_i watch hbegin
      exact ⟨false, hspawn watch⟩

/-- Noting progress is about the record alone. -/
theorem moves_noteTimes (s : Service) (id : JobId) (plan : TextPlan) (times : List Number) :
    ∃ store, (s.noteTimes id plan times).1 = s.setStore store ∧
      Moves id s false (s.setStore store) := by
  induction times generalizing s with
  | nil => exact ⟨s.store, rfl, .refl⟩
  | cons t rest ih =>
    rw [noteTimes]
    split
    · exact ih s
    · split
      · exact ⟨s.store, rfl, .refl⟩
      · rename_i p hpercent
        obtain ⟨store, heq, hmoves⟩ := ih (s.note id (progressNote p))
        exact ⟨store, heq, (Moves.of_quiet (.note (progressNote p))).trans hmoves⟩

theorem moves_takeWritten {plan : TextPlan} {watch : Engine.Watch} (task : s.task? t.job = some t)
    (awake : t.cancelled = false) (phase : t.phase = .encoding plan watch)
    (output errors : List UInt8) :
    Moves t.job s false (s.takeWritten t plan watch output errors) := by
  obtain ⟨store, heq, hmoves⟩ := moves_noteTimes s t.job plan
    (watch.take s.rounding true ⟨output, errors, false⟩).times
  unfold takeWritten readOutput
  simp only [heq]
  split
  · rename_i s' w f hread
    cases (Prod.mk.inj hread).1
    exact moves_leave hmoves task (by rw [phase]; rfl) awake _
  · rename_i s' w hread
    cases (Prod.mk.inj hread).1
    exact hmoves.quiet (.watch t plan watch w task phase)

theorem moves_takeExit {plan : TextPlan} {watch : Engine.Watch} (task : s.task? t.job = some t)
    (awake : t.cancelled = false) (phase : t.phase = .encoding plan watch) (code : Int)
    (exited : s.process? t.job = some (.exited code)) :
    ∃ b, Moves t.job s b (s.takeExit t plan watch code) := by
  have holds : t.phase.holdsSlot = true := by rw [phase]; rfl
  obtain ⟨store, heq, hmoves⟩ := moves_noteTimes s t.job plan
    (watch.take s.rounding true ⟨[], [], true⟩).times
  unfold takeExit readOutput
  simp only [heq]
  split
  · rename_i s' w f hread
    cases (Prod.mk.inj hread).1
    exact ⟨false, moves_leave hmoves task holds awake _⟩
  · rename_i s' w hread
    cases (Prod.mk.inj hread).1
    obtain ⟨b, hresult⟩ := moves_takeResult (s := s.setStore store) task awake holds
      (w.result code) fun hok => by
        have hcode : code = 0 := by simpa [Engine.Result.isOk, Engine.Watch.result] using hok
        exact ⟨hcode ▸ exited, plan, watch, phase⟩
    exact ⟨b, hmoves.trans hresult⟩

theorem moves_leaveOutput (running : s.process? id = some .running) (size : Option Nat) :
    ∃ files, s.leaveOutput id size = s.setFiles files ∧ Moves id s false (s.setFiles files) := by
  cases size with
  | none => exact ⟨s.store.files, rfl, .refl⟩
  | some n =>
    rw [leaveOutput]
    split
    · rename_i files hwrite
      exact ⟨files, rfl, .of_quiet (.write files (.output n files running hwrite))⟩
    · exact ⟨s.store.files, rfl, .refl⟩

/-! ### Events -/

theorem process?_setProcess_self {status status' : ProcessStatus}
    (h : s.process? id = some status) : (s.setProcess id status').process? id = some status' := by
  simp [process?_setProcess, h]

theorem moves_stop (task : s.task? t.job = some t) (told : t.cancelled = true) :
    Moves t.job s false (s.stop t) := by
  unfold stop
  split
  · rename_i phase
    exact .of_quiet (.vanish t task phase told)
  · rename_i phase
    exact .of_quiet (.resign t task phase told)
  · -- the downloads are given up, and then the work is left
    rename_i ds phase
    have hfiles := Moves.of_quiet (Quiet.write _ (.abandoned t ds task phase))
    refine hfiles.quiet (.leave t _ task (by rw [phase]; rfl) nofun fun plan watch h => ?_)
    exact nomatch phase.symm.trans h
  · rename_i done left phase
    refine .of_quiet (.leave t _ task (by rw [phase]; rfl) nofun fun plan watch h => ?_)
    exact nomatch phase.symm.trans h
  · rename_i plan phase
    refine .of_quiet (.leave t _ task (by rw [phase]; rfl) nofun fun plan watch h => ?_)
    exact nomatch phase.symm.trans h
  · rename_i plan watch phase
    have holds : t.phase.holdsSlot = true := by rw [phase]; rfl
    by_cases running : s.process? t.job = some .running
    · rw [if_pos running]
      refine (Moves.of_quiet (.kill running)).quiet (.leave t _ task holds nofun ?_)
      intro _ _ _ _
      rw [process?_setProcess_self running]
      exact nofun
    · rw [if_neg running]
      exact .of_quiet (.leave t _ task holds nofun fun _ _ _ _ => running)

theorem moves_moveTask (task : s.task? t.job = some t) :
    ∃ b, Moves t.job s b (s.moveTask t) := by
  unfold moveTask
  split
  · rename_i told
    exact ⟨false, moves_stop task told⟩
  · rename_i hawake
    have awake : t.cancelled = false := by simpa using hawake
    split
    · rename_i phase
      split
      · rename_i slots htake
        exact ⟨true, moves_beginWork task awake (Or.inl ⟨phase, htake⟩)⟩
      · exact ⟨false, .of_quiet (.wait t task phase awake)⟩
    · rename_i phase
      split
      · rename_i hgranted
        exact ⟨true, moves_beginWork task awake (Or.inr ⟨phase, hgranted, rfl⟩)⟩
      · exact ⟨false, .refl⟩
    · rename_i ds phase
      exact moves_takeFetched task awake phase
    · exact ⟨false, .refl⟩

theorem moves_takeDownload (task : s.task? t.job = some t) (index : Nat) (e : DownloadEvent) :
    Moves t.job s false (s.takeDownload t index e) := by
  unfold takeDownload
  split
  · rename_i ds phase
    split
    · exact .refl
    · exact .of_quiet (.download t ds index e task phase)
  · exact .refl

theorem moves_takeFailure (task : s.task? t.job = some t) (awake : t.cancelled = false)
    (message : String) : Moves t.job s false (s.takeFailure t message) := by
  unfold takeFailure
  split
  · rename_i holds
    exact moves_leave .refl task holds awake _
  · exact .refl

theorem moves_stray (s : Service) (id : JobId) (name : String) (content : Content) :
    Moves id s false (s.stray id name content) := by
  unfold stray
  split
  · rename_i hissued
    split
    · rename_i files hwrite
      exact .of_quiet (.write files (.stray name content files hissued hwrite))
    · exact .refl
  · exact .refl

theorem leaveOutput_setProcess (s : Service) (id : JobId) (status : ProcessStatus)
    (size : Option Nat) : (s.setProcess id status).leaveOutput id size =
      (s.leaveOutput id size).setProcess id status := by
  cases size with
  | none => rfl
  | some n =>
    have hstore : (s.setProcess id status).store = s.store := rfl
    simp only [leaveOutput, hstore]
    cases s.store.files.write (s.store.directory id ++ [Job.outputName]) (.media n) <;> rfl

theorem moves_takeEnd (s : Service) (id : JobId) (code : Int) (size : Option Nat) :
    ∃ b, Moves id s b (s.takeEnd id code size) := by
  unfold takeEnd
  split
  · rename_i running
    -- whether the output or the exit is noted first makes no difference
    obtain ⟨files, heq, hmoves⟩ := moves_leaveOutput running size
    have hexit := hmoves.quiet (.exit code running)
    rw [leaveOutput_setProcess, heq]
    dsimp only
    split
    · rename_i t hlisten
      obtain ⟨task, awake⟩ := listening?_eq_some.mp hlisten
      obtain rfl := job_of_task? task
      split
      · rename_i plan watch phase
        obtain ⟨b, hend⟩ := moves_takeExit task awake phase code
          (process?_setProcess_self running)
        exact ⟨b, hexit.trans hend⟩
      · exact ⟨false, hexit⟩
    · exact ⟨false, hexit⟩
  · exact ⟨false, .refl⟩

/-- **An event of a job is a chain of moves with at most one advance.** -/
theorem step_moves {e : Event} (h : e.job? = some id) (s : Service) :
    ∃ b, Moves id s b (s.step e) := by
  cases e with
  | submitted | asked | advanced | outOfPatience | ticked | disk => cases h
  | moved job =>
    cases h
    rw [step]
    split
    · rename_i t task
      obtain rfl := job_of_task? task
      exact moves_moveTask task
    · exact ⟨false, .refl⟩
  | download job index e =>
    cases h
    rw [step]
    split
    · rename_i t task
      obtain rfl := job_of_task? task
      exact ⟨false, moves_takeDownload task index e⟩
    · exact ⟨false, .refl⟩
  | probed job outcome =>
    cases h
    rw [step]
    split
    · rename_i t hlisten
      obtain ⟨task, awake⟩ := listening?_eq_some.mp hlisten
      obtain rfl := job_of_task? task
      split
      · rename_i done source path left phase
        exact moves_takeProbed task awake phase outcome
      · exact ⟨false, .refl⟩
    · exact ⟨false, .refl⟩
  | spawned job outcome =>
    cases h
    rw [step]
    split
    · rename_i t hlisten
      obtain ⟨task, awake⟩ := listening?_eq_some.mp hlisten
      obtain rfl := job_of_task? task
      split
      · rename_i plan phase
        exact moves_takeSpawned task awake phase outcome
      · exact ⟨false, .refl⟩
    · exact ⟨false, .refl⟩
  | wrote job output errors =>
    cases h
    rw [step]
    split
    · rename_i t hlisten
      obtain ⟨task, awake⟩ := listening?_eq_some.mp hlisten
      obtain rfl := job_of_task? task
      split
      · rename_i plan watch phase
        split
        · exact ⟨false, moves_takeWritten task awake phase output errors⟩
        · exact ⟨false, .refl⟩
      · exact ⟨false, .refl⟩
    · exact ⟨false, .refl⟩
  | produced job size =>
    cases h
    rw [step]
    split
    · rename_i running
      obtain ⟨files, heq, hmoves⟩ := moves_leaveOutput running (some size)
      exact ⟨false, heq ▸ hmoves⟩
    · exact ⟨false, .refl⟩
  | exited job code size =>
    cases h
    exact moves_takeEnd s id code size
  | raised job message =>
    cases h
    rw [step]
    split
    · rename_i t hlisten
      obtain ⟨task, awake⟩ := listening?_eq_some.mp hlisten
      obtain rfl := job_of_task? task
      exact ⟨false, moves_takeFailure task awake message⟩
    · exact ⟨false, .refl⟩
  | strayed job name content =>
    cases h
    exact ⟨false, moves_stray s id name content⟩

end Service
end Montage
