import Montage.Proofs.Deletions
import Montage.Proofs.Outputs

/-! # How the engine of a job comes to its end

While a process of the engine writes, the state of its job depends on what it has written so far and
not on the pieces (`Service.reading`), and when it exits its task takes the result with its own exit
code and the last lines of its diagnostics.  So it is if what the process writes can be read.

A task that cannot read on fails at once.  It does nothing about the process then, which runs on.
These are the ways in which a task stops to watch a process that runs: it reads something that it
cannot read, or what it waits for fails in a way that nobody has foreseen.  On all other ways the
process has exited, or it was killed because the task was told to stop (`ways_out`).
-/
namespace Montage

open Service

/-! ### Notes -/

namespace Engine
variable {r : Rounding} {duration : Number} {times : List Number}

/-- All shares of the work that times stand for are numbers of percent. -/
def Calm (r : Rounding) (duration : Number) (times : List Number) : Prop :=
  ∀ x ∈ times, ∀ y, share r duration x = some y → ∃ p, percent r y = .ok p

instance (times : List Number) : Decidable (Calm r duration times) :=
  decidable_of_iff (∀ x ∈ times, ∀ y ∈ share r duration x, (percent r y).isOk = true) <| by
    refine forall₂_congr fun x _ => forall_congr' fun y => imp_congr Option.mem_def ?_
    cases percent r y <;> simp [Except.isOk, Except.toBool]

/-- The notes that times stand for. -/
def stagesOf (r : Rounding) (duration : Number) (times : List Number) : List String :=
  times.filterMap fun x =>
    (share r duration x).bind fun y => (percent r y).toOption.map progressNote

theorem stagesOf_append (a b : List Number) :
    stagesOf r duration (a ++ b) = stagesOf r duration a ++ stagesOf r duration b :=
  List.filterMap_append

theorem calm_append {a b : List Number} :
    Calm r duration (a ++ b) ↔ Calm r duration a ∧ Calm r duration b := List.forall_mem_append

/-- The shares of a piece are among those of all that is written. -/
theorem Calm.piece {past more rest : List UInt8}
    (calm : Calm r duration (timesOf r (finished (past ++ more ++ rest)))) :
    Calm r duration (timesOf r (finished (unfinished past ++ more))) := by
  rw [finished_append, timesOf_append, calm_append, finished_append, timesOf_append,
    calm_append] at calm
  exact calm.1.2

end Engine

namespace Service

open Engine

/-- Notes progress again and again. -/
def noteAll (s : Service) (id : JobId) (stages : List String) : Service :=
  s.setStore (stages.foldl (fun store stage => store.setStage id stage) s.store)

theorem noteAll_append (s : Service) (id : JobId) (a b : List String) :
    s.noteAll id (a ++ b) = (s.noteAll id a).noteAll id b :=
  congrArg s.setStore List.foldl_append

variable {s : Service} {id : JobId} {plan : TextPlan} {times : List Number} {size : Nat}
  {output errors : List UInt8} {t : Task}

theorem noteTimes_of_calm (calm : Calm s.rounding plan.duration times) :
    s.noteTimes id plan times =
      (s.noteAll id (stagesOf s.rounding plan.duration times), none) := by
  induction times generalizing s with
  | nil => rfl
  | cons x rest ih =>
    obtain ⟨hx, hrest⟩ := List.forall_mem_cons.mp calm
    cases hshare : share s.rounding plan.duration x with
    | none =>
      simp only [noteTimes, stagesOf, List.filterMap_cons, hshare, Option.bind_none]
      exact ih hrest
    | some y =>
      obtain ⟨p, hp⟩ := hx y hshare
      simp only [noteTimes, stagesOf, List.filterMap_cons, hshare, Option.bind_some, hp]
      exact ih (s := s.note id (progressNote p)) hrest

theorem noteTimes_fault (id : JobId) (uneasy : ¬ Calm s.rounding plan.duration times) :
    ∃ f, (s.noteTimes id plan times).2 = some f := by
  induction times generalizing s with
  | nil => exact absurd (List.forall_mem_nil _) uneasy
  | cons x rest ih =>
    have hrest (hx : ∀ y, share s.rounding plan.duration x = some y →
        ∃ p, percent s.rounding y = .ok p) : ¬ Calm s.rounding plan.duration rest :=
      fun hrest => uneasy (List.forall_mem_cons.mpr ⟨hx, hrest⟩)
    cases hshare : share s.rounding plan.duration x with
    | none =>
      simp only [noteTimes, hshare]
      refine ih (hrest fun y hy => ?_)
      cases hshare.symm.trans hy
    | some y =>
      cases hp : percent s.rounding y with
      | error f =>
        simp only [noteTimes, hshare, hp]
        exact ⟨f, rfl⟩
      | ok p =>
        simp only [noteTimes, hshare, hp]
        refine ih (s := s.note id (progressNote p)) (hrest fun y' hy' => ?_)
        cases hshare.symm.trans hy'
        exact ⟨p, hp⟩

/-- Times are noted up to the first that is no number of percent. -/
theorem exists_noteTimes (s : Service) (id : JobId) (plan : TextPlan) (times : List Number) :
    ∃ stages fault, s.noteTimes id plan times = (s.noteAll id stages, fault) := by
  induction times generalizing s with
  | nil => exact ⟨[], none, rfl⟩
  | cons x rest ih =>
    rw [noteTimes]
    split
    · exact ih s
    · split
      · exact ⟨[], _, rfl⟩
      · rename_i p hp
        obtain ⟨stages, fault, h⟩ := ih (s.note id (progressNote p))
        exact ⟨progressNote p :: stages, fault, h⟩

/-! ### Reading -/

/-- The service after so many bytes of both streams, if the engine of a job has just been started and
nothing else has happened. -/
def reading (s : Service) (id : JobId) (plan : TextPlan) (size : Nat) (output errors : List UInt8) :
    Service :=
  (s.noteAll id (stagesOf s.rounding plan.duration (timesOf s.rounding (finished output)))).setPhase
    id (.encoding plan (Watch.after size output errors))

theorem noteAll_setPhase (s : Service) (id : JobId) (phase : TaskPhase) (stages : List String) :
    (s.setPhase id phase).noteAll id stages = (s.noteAll id stages).setPhase id phase := rfl

theorem listening?_setPhase (listens : s.listening? id = some t) (phase : TaskPhase) :
    (s.setPhase id phase).listening? id = some { t with phase } := by
  obtain ⟨task, awake⟩ := listening?_eq_some.mp listens
  exact listening?_eq_some.mpr ⟨task?_setPhase_self task phase, awake⟩

/-- A task that listens still listens when its process has written. -/
theorem listening?_reading (listens : s.listening? id = some t) (plan : TextPlan) (size : Nat)
    (output errors : List UInt8) : (s.reading id plan size output errors).listening? id =
      some { t with phase := .encoding plan (Watch.after size output errors) } :=
  listening?_setPhase (s := s.noteAll id _) listens _

theorem process?_reading (running : s.process? id = some .running) (plan : TextPlan) (size : Nat)
    (output errors : List UInt8) :
    (s.reading id plan size output errors).process? id = some .running := running

theorem leave_reading (s : Service) (id : JobId) (plan : TextPlan) (size : Nat)
    (output errors : List UInt8) (stages : List String) (failure : Option String) :
    ((s.reading id plan size output errors).noteAll id stages).leave id failure =
      (s.noteAll id (stagesOf s.rounding plan.duration (timesOf s.rounding (finished output)) ++
        stages)).leave id failure := by
  rw [reading, noteAll_setPhase, leave_setPhase, noteAll_append]

/-- What is written is read by a task that watches. -/
theorem step_wrote_eq (listens : s.listening? id = some t) {watch : Watch}
    (phase : t.phase = .encoding plan watch) (running : s.process? id = some .running)
    (o e : List UInt8) : s.step (.wrote id o e) = s.takeWritten t plan watch o e := by
  unfold step
  simp only [listens, phase, running, if_true]

theorem takeWritten_of_legible (legible : Engine.Legible s.rounding true output errors)
    {o e : List UInt8} (ahead : Engine.Legible s.rounding true (output ++ o) (errors ++ e))
    (calm : Calm s.rounding plan.duration
      (timesOf s.rounding (finished (unfinished output ++ o)))) :
    s.takeWritten t plan (Watch.after size output errors) o e =
      (s.noteAll t.job (stagesOf s.rounding plan.duration
        (timesOf s.rounding (finished (unfinished output ++ o))))).setPhase t.job
          (.encoding plan (Watch.after size (output ++ o) (errors ++ e))) := by
  rw [takeWritten, readOutput, Watch.take_of_legible legible ahead]
  simp only [if_true, noteTimes_of_calm calm, Option.or_none]

/-- What cannot be read is a fault, and so is a time that is no number of percent. -/
theorem readOutput_of_fault (id : JobId) (plan : TextPlan) {watch : Watch} {written : Written}
    {f : ReadFault}
    (fault : (watch.take s.rounding true written).fault? = some f ∨
      (s.noteTimes id plan (watch.take s.rounding true written).times).2 = some f) :
    ∃ (stages : List String) (w : Watch) (f : ReadFault),
      s.readOutput id plan watch written = (s.noteAll id stages, w, some f) := by
  obtain ⟨stages, shareFault, hnotes⟩ := exists_noteTimes s id plan
    (watch.take s.rounding true written).times
  have hfault : ((watch.take s.rounding true written).errorFault.or (shareFault.or
      (watch.take s.rounding true written).outputFault)).isSome = true := by
    rw [hnotes] at fault
    rcases fault with h | h
    · rw [Reading.fault?, Option.or_eq_some_iff] at h
      rcases h with h | ⟨-, h⟩ <;> simp [h]
    · simp [show shareFault = some f from h]
  obtain ⟨f, hf⟩ := Option.isSome_iff_exists.mp hfault
  refine ⟨stages, (watch.take s.rounding true written).watch, f, ?_⟩
  rw [readOutput, hnotes]
  simp only [hf]

/-- **What is read adds up.** -/
theorem reading_step (listens : s.listening? id = some t) (running : s.process? id = some .running)
    (legible : Engine.Legible s.rounding true output errors) {o e : List UInt8}
    (ahead : Engine.Legible s.rounding true (output ++ o) (errors ++ e))
    (calm : Calm s.rounding plan.duration
      (timesOf s.rounding (finished (unfinished output ++ o)))) :
    (s.reading id plan size output errors).step (.wrote id o e) =
      s.reading id plan size (output ++ o) (errors ++ e) := by
  obtain rfl : t.job = id := job_of_task? (listening?_eq_some.mp listens).1
  rw [step_wrote_eq (listening?_reading listens plan size output errors) rfl
    (process?_reading running plan size output errors)]
  refine (takeWritten_of_legible (s := s.reading t.job plan size output errors) legible ahead
    calm).trans ?_
  rw [reading, reading, noteAll_setPhase, finished_append output o, timesOf_append, stagesOf_append,
    noteAll_append]
  exact setPhase_setPhase ..

/-- A task fails with what it cannot read, and with a time that is no number of percent.  It leaves
its process alone. -/
theorem reading_step_fault (size : Nat) (listens : s.listening? id = some t)
    (running : s.process? id = some .running)
    (legible : Engine.Legible s.rounding true output errors)
    {o e : List UInt8}
    (trouble : ¬ Engine.Legible s.rounding true (output ++ o) (errors ++ e) ∨
      ¬ Calm s.rounding plan.duration
        (timesOf s.rounding (finished (unfinished output ++ o)))) :
    ∃ (stages : List String) (f : ReadFault),
      (s.reading id plan size output errors).step (.wrote id o e) =
        (s.noteAll id stages).leave id (some (unforeseen f.message)) := by
  obtain rfl : t.job = id := job_of_task? (listening?_eq_some.mp listens).1
  have hfault : ∃ f, ((Watch.after size output errors).take s.rounding true
      ⟨o, e, false⟩).fault? = some f ∨ ((s.reading t.job plan size output errors).noteTimes t.job
        plan ((Watch.after size output errors).take s.rounding true ⟨o, e, false⟩).times).2 =
          some f := by
    by_cases ahead : Engine.Legible s.rounding true (output ++ o) (errors ++ e)
    · obtain ⟨f, hf⟩ := noteTimes_fault (s := s.reading t.job plan size output errors)
        t.job (trouble.resolve_left (not_not_intro ahead))
      refine ⟨f, Or.inr ?_⟩
      rw [Watch.take_of_legible legible ahead]
      exact hf
    · obtain ⟨f, hf⟩ := Watch.take_fault size legible ahead
      exact ⟨f, Or.inl hf⟩
  obtain ⟨f, hf⟩ := hfault
  obtain ⟨stages, w, f, h⟩ := readOutput_of_fault
    (s := s.reading t.job plan size output errors) t.job plan hf
  refine ⟨stagesOf s.rounding plan.duration (timesOf s.rounding (finished output)) ++ stages, f, ?_⟩
  rw [step_wrote_eq (listening?_reading listens plan size output errors) rfl
    (process?_reading running plan size output errors), takeWritten, h]
  exact leave_reading ..

/-- What a process of a job writes piece by piece. -/
def writes (id : JobId) (pieces : List (List UInt8 × List UInt8)) : List Event :=
  pieces.map fun p => .wrote id p.1 p.2

/-- A task that is over reads nothing. -/
theorem run_writes_of_finished (finished : s.task? id = none)
    (pieces : List (List UInt8 × List UInt8)) : s.run (writes id pieces) = s := by
  induction pieces with
  | nil => rfl
  | cons p rest ih =>
    have hstep : s.step (.wrote id p.1 p.2) = s := by
      unfold step
      simp only [listening?, finished, Option.filter_none]
    rw [writes, List.map_cons, run_cons, hstep]
    exact ih

/-- **The pieces of a process add up**, as long as they can be read. -/
theorem reading_run (output errors : List UInt8) (listens : s.listening? id = some t)
    (running : s.process? id = some .running)
    {pieces : List (List UInt8 × List UInt8)}
    (legible : Engine.Legible s.rounding true (output ++ pieces.flatMap Prod.fst)
      (errors ++ pieces.flatMap Prod.snd))
    (calm : Calm s.rounding plan.duration
      (timesOf s.rounding (finished (output ++ pieces.flatMap Prod.fst)))) :
    (s.reading id plan size output errors).run (writes id pieces) =
      s.reading id plan size (output ++ pieces.flatMap Prod.fst)
        (errors ++ pieces.flatMap Prod.snd) := by
  induction pieces generalizing output errors with
  | nil => simp [writes]
  | cons p rest ih =>
    obtain ⟨o, e⟩ := p
    simp only [List.flatMap_cons, ← List.append_assoc] at legible calm ⊢
    have ahead : Engine.Legible s.rounding true (output ++ o) (errors ++ e) := legible.of_append
    rw [writes, List.map_cons, run_cons,
      reading_step listens running ahead.of_append ahead calm.piece]
    exact ih _ _ legible calm

/-- **A process that cannot be read is left alone**: its task fails, and the process runs on. -/
theorem reading_run_fault (listens : s.listening? id = some t)
    (running : s.process? id = some .running)
    (legible : Engine.Legible s.rounding true output errors)
    {pieces : List (List UInt8 × List UInt8)}
    (illegible : ¬ Engine.Legible s.rounding true (output ++ pieces.flatMap Prod.fst)
      (errors ++ pieces.flatMap Prod.snd)) :
    ∃ (stages : List String) (f : ReadFault),
      (s.reading id plan size output errors).run (writes id pieces) =
        (s.noteAll id stages).leave id (some (unforeseen f.message)) := by
  induction pieces generalizing output errors with
  | nil =>
    simp only [List.flatMap_nil, List.append_nil] at illegible
    exact absurd legible illegible
  | cons p rest ih =>
    obtain ⟨o, e⟩ := p
    simp only [List.flatMap_cons, ← List.append_assoc] at illegible
    rw [writes, List.map_cons, run_cons]
    -- it is this piece that cannot be read, or a later one
    by_cases trouble : ¬ Engine.Legible s.rounding true (output ++ o) (errors ++ e) ∨
        ¬ Calm s.rounding plan.duration (timesOf s.rounding (finished (unfinished output ++ o)))
    · obtain ⟨stages, f, hstep⟩ := reading_step_fault size listens running legible trouble
      rw [hstep]
      exact ⟨stages, f, run_writes_of_finished (task?_leave ..) rest⟩
    · obtain ⟨ahead, calm⟩ := not_or.mp trouble
      rw [reading_step listens running legible (not_not.mp ahead) (not_not.mp calm)]
      exact ih (not_not.mp ahead) illegible

/-! ### Ends -/

theorem processes_leave (s : Service) (id : JobId) (failure : Option String) :
    (s.leave id failure).processes = s.processes := by
  rw [leave_eq]
  rfl

/-- Taking a result ends the task, and no process. -/
theorem takeResult_ends (s : Service) (id : JobId) (result : Result) :
    (s.takeResult id result).processes = s.processes ∧
      (s.takeResult id result).task? id = none := by
  have hleave (u : Service) (h : u.processes = s.processes) (failure : Option String) :
      (u.leave id failure).processes = s.processes ∧ (u.leave id failure).task? id = none :=
    ⟨(processes_leave u id failure).trans h, task?_leave u id failure⟩
  unfold takeResult
  split
  · exact hleave s rfl _
  · dsimp only
    split
    · exact hleave s rfl _
    · split
      · rename_i f store _
        exact hleave (s.setStore store) rfl (storeFailure? f)
      · rename_i store _
        exact hleave (s.setStore store) rfl none

/-- So does the end of its process, and changes no process then. -/
theorem takeExit_ends (s : Service) (t : Task) (plan : TextPlan) (watch : Watch) (code : Int) :
    (s.takeExit t plan watch code).processes = s.processes ∧
      (s.takeExit t plan watch code).task? t.job = none := by
  obtain ⟨stages, shareFault, hnotes⟩ := exists_noteTimes s t.job plan
    (watch.take s.rounding true ⟨[], [], true⟩).times
  unfold takeExit readOutput
  simp only [hnotes]
  split
  · rename_i u w f hread
    rw [← (Prod.mk.inj hread).1]
    exact ⟨processes_leave (s.noteAll t.job stages) t.job _, task?_leave ..⟩
  · rename_i u w hread
    rw [← (Prod.mk.inj hread).1]
    exact takeResult_ends (s.noteAll t.job stages) t.job _

/-- The process of a job has ended, and perhaps left an output. -/
def closing (s : Service) (id : JobId) (code : Int) (bytes : Option Nat) : Service :=
  (s.setProcess id (.exited code)).leaveOutput id bytes

theorem exists_leaveOutput (s : Service) (id : JobId) (bytes : Option Nat) :
    ∃ files, s.leaveOutput id bytes = s.setFiles files := by
  unfold leaveOutput
  split
  · exact ⟨s.store.files, rfl⟩
  · split
    · exact ⟨_, rfl⟩
    · exact ⟨s.store.files, rfl⟩

theorem process?_closing (running : s.process? id = some .running) (code : Int)
    (bytes : Option Nat) : (s.closing id code bytes).process? id = some (.exited code) := by
  obtain ⟨files, h⟩ := exists_leaveOutput (s.setProcess id (.exited code)) id bytes
  rw [closing, h]
  exact process?_setProcess_self running

theorem rounding_closing (s : Service) (id : JobId) (code : Int) (bytes : Option Nat) :
    (s.closing id code bytes).rounding = s.rounding := by
  obtain ⟨files, h⟩ := exists_leaveOutput (s.setProcess id (.exited code)) id bytes
  rw [closing, h]
  rfl

/-- What a process leaves unread is read when it has ended. -/
theorem step_exited_eq (listens : s.listening? id = some t) {watch : Watch}
    (phase : t.phase = .encoding plan watch) (running : s.process? id = some .running) (code : Int)
    (bytes : Option Nat) : s.step (.exited id code bytes) =
      (s.closing id code bytes).takeExit t plan watch code := by
  have hlistens : (s.closing id code bytes).listening? id = some t := by
    obtain ⟨files, h⟩ := exists_leaveOutput (s.setProcess id (.exited code)) id bytes
    rw [closing, h]
    exact listens
  rw [closing] at hlistens ⊢
  unfold step
  simp only [takeEnd, running, if_true, hlistens, phase]

/-- **The task takes the result of its process**, with the exit code of the process. -/
theorem step_exited_of_readable (listens : s.listening? id = some t)
    (phase : t.phase = .encoding plan (Watch.after size output errors))
    (running : s.process? id = some .running) (readable : Readable s.rounding true output errors)
    (calm : Calm s.rounding plan.duration (timesOf s.rounding (lastLine output))) (code : Int)
    (bytes : Option Nat) :
    s.step (.exited id code bytes) = ((s.closing id code bytes).noteAll id
      (stagesOf s.rounding plan.duration (timesOf s.rounding (lastLine output)))).takeResult id
        ⟨code, diagnosticsOf size errors⟩ := by
  obtain rfl : t.job = id := job_of_task? (listening?_eq_some.mp listens).1
  have hrounding := rounding_closing s t.job code bytes
  have hlast := (timed_append.mp (readable.times rfl)).2
  have htake := Watch.take_end size readable.legible fun _ => hlast
  rw [step_exited_eq listens phase running, takeExit, readOutput, hrounding, htake]
  rw [← hrounding] at calm ⊢
  simp only [if_true, noteTimes_of_calm calm, Option.or_none]
  rfl

theorem reading_exit (listens : s.listening? id = some t) (running : s.process? id = some .running)
    (readable : Readable s.rounding true output errors)
    (calm : Calm s.rounding plan.duration (timesOf s.rounding (lastLine output))) (code : Int)
    (bytes : Option Nat) :
    (s.reading id plan size output errors).step (.exited id code bytes) =
      (((s.reading id plan size output errors).closing id code bytes).noteAll id
        (stagesOf s.rounding plan.duration (timesOf s.rounding (lastLine output)))).takeResult id
          ⟨code, diagnosticsOf size errors⟩ :=
  step_exited_of_readable (listening?_reading listens plan size output errors) rfl
    (process?_reading running plan size output errors) readable calm code bytes

/-- A task can also fail with the last line of a process that has ended. -/
theorem reading_exit_fault (listens : s.listening? id = some t)
    (running : s.process? id = some .running)
    (legible : Engine.Legible s.rounding true output errors)
    (part : ¬ Timed s.rounding (lastLine output)) (code : Int) (bytes : Option Nat) :
    ∃ (stages : List String) (f : ReadFault),
      (s.reading id plan size output errors).step (.exited id code bytes) =
        (((s.reading id plan size output errors).closing id code bytes).noteAll id stages).leave id
          (some (unforeseen f.message)) := by
  obtain rfl : t.job = id := job_of_task? (listening?_eq_some.mp listens).1
  have hrounding := rounding_closing (s.reading t.job plan size output errors) t.job code bytes
  change _ = s.rounding at hrounding
  obtain ⟨f, hf⟩ := Watch.take_end_fault size legible part
  rw [← hrounding] at hf
  obtain ⟨stages, w, f, h⟩ := readOutput_of_fault t.job plan (Or.inl hf)
  refine ⟨stages, f, ?_⟩
  rw [step_exited_eq (listening?_reading listens plan size output errors) rfl
    (process?_reading running plan size output errors), takeExit, h]

/-- However the process ends, its task is over then. -/
theorem reading_exit_ends (listens : s.listening? id = some t)
    (running : s.process? id = some .running) (code : Int) (bytes : Option Nat) :
    let s' := (s.reading id plan size output errors).step (.exited id code bytes)
    s'.task? id = none ∧ s'.process? id = some (.exited code) := by
  obtain rfl : t.job = id := job_of_task? (listening?_eq_some.mp listens).1
  have hclosing := process?_closing (process?_reading running plan size output errors) code bytes
  dsimp only
  rw [step_exited_eq (listening?_reading listens plan size output errors) rfl
    (process?_reading running plan size output errors)]
  obtain ⟨hprocesses, hover⟩ := takeExit_ends
    ((s.reading t.job plan size output errors).closing t.job code bytes)
    { t with phase := .encoding plan (Watch.after size output errors) } plan
    (Watch.after size output errors) code
  exact ⟨hover, (process?_of_processes hprocesses t.job).trans hclosing⟩

/-- A process is killed when its task is told to stop and takes notice. -/
theorem reading_cancel (listens : s.listening? id = some t)
    (running : s.process? id = some .running) :
    (((s.reading id plan size output errors).cancel id).step (.moved id)).process? id =
      some .killed := by
  obtain rfl : t.job = id := job_of_task? (listening?_eq_some.mp listens).1
  have task := (listening?_eq_some.mp (listening?_reading listens plan size output errors)).1
  have told : ((s.reading t.job plan size output errors).cancel t.job).task? t.job =
      some ⟨t.job, t.timeline, .encoding plan (Watch.after size output errors), true⟩ := by
    rw [task?_cancel, task]
    simp
  have hrunning : ((s.reading t.job plan size output errors).cancel t.job).process? t.job =
      some .running := running
  unfold step
  simp only [told, moveTask, if_true, stop, hrunning]
  exact (process?_of_processes (processes_leave ..) t.job).trans (process?_setProcess_self hrunning)

/-- A task that watches fails with what it waits for. -/
theorem step_raised_eq (listens : s.listening? id = some t) {watch : Watch}
    (phase : t.phase = .encoding plan watch) (message : String) :
    s.step (.raised id message) = s.leave id (some (unforeseen message)) := by
  obtain rfl : t.job = id := job_of_task? (listening?_eq_some.mp listens).1
  unfold step
  simp only [listens, takeFailure, phase, TaskPhase.holdsSlot, if_true]

/-- Nobody does anything about a process when what its task waits for fails. -/
theorem reading_raised (listens : s.listening? id = some t)
    (running : s.process? id = some .running) (message : String) :
    let s' := (s.reading id plan size output errors).step (.raised id message)
    s'.task? id = none ∧ s'.process? id = some .running := by
  have hstep := step_raised_eq (listening?_reading listens plan size output errors) rfl message
  dsimp only
  rw [hstep]
  exact ⟨task?_leave .., (process?_of_processes (processes_leave ..) id).trans running⟩

/-- A process is watched from its start on. -/
theorem step_spawned (listens : s.listening? id = some t) (phase : t.phase = .starting plan)
    (lines : 0 ≤ s.setup.engine.diagnosticLines) : s.step (.spawned id .started) =
      (s.addProcess id).reading id plan s.setup.engine.diagnosticLines.toNat [] [] := by
  obtain rfl : t.job = id := job_of_task? (listening?_eq_some.mp listens).1
  have hbegin := Watch.begin_of_nonneg lines
  rw [show s.setup = (s.addProcess t.job).setup from rfl] at hbegin
  unfold step
  simp only [listens, phase, takeSpawned, hbegin]
  rfl

/-- Without room for diagnostics it cannot be watched, and is left alone. -/
theorem step_spawned_fault (listens : s.listening? id = some t) (phase : t.phase = .starting plan)
    (lines : s.setup.engine.diagnosticLines < 0) : s.step (.spawned id .started) =
      (s.addProcess id).leave id (some (unforeseen ReadFault.negativeTail.message)) := by
  obtain rfl : t.job = id := job_of_task? (listening?_eq_some.mp listens).1
  have hbegin := Watch.begin_of_neg lines
  rw [show s.setup = (s.addProcess t.job).setup from rfl] at hbegin
  unfold step
  simp only [listens, phase, takeSpawned, hbegin]

end Service

/-! ### What a task sees -/

namespace Service

variable {s : Service} {id : JobId} {t : Task} {plan : TextPlan} {watch : Engine.Watch} {e : Event}

/-- The reports that the process of a job writes at an event. -/
def outputBy (id : JobId) : Event → List UInt8
  | .wrote job output _ => if job = id then output else []
  | _ => []

/-- The diagnostics that it writes. -/
def errorsBy (id : JobId) : Event → List UInt8
  | .wrote job _ errors => if job = id then errors else []
  | _ => []

theorem outputBy_of_other (other : e.job? ≠ some id) : outputBy id e = [] := by
  cases e with
  | wrote job output errors => exact if_neg fun h => other (congrArg some h)
  | _ => rfl

theorem errorsBy_of_other (other : e.job? ≠ some id) : errorsBy id e = [] := by
  cases e with
  | wrote job output errors => exact if_neg fun h => other (congrArg some h)
  | _ => rfl

/-- What an event is for a task that watches. -/
inductive Sees (s : Service) (id : JobId) : Event → Prop where
  | piece (output errors : List UInt8) : Sees s id (.wrote id output errors)
  | close (code : Int) (bytes : Option Nat) : Sees s id (.exited id code bytes)
  | trouble (message : String) : Sees s id (.raised id message)
  /-- At most files change. -/
  | nothing {e : Event} (files : FileTree) (output : outputBy id e = []) (errors : errorsBy id e = [])
      (same : s.step e = s.setFiles files) : Sees s id e

theorem sees_of_watching (listens : s.listening? id = some t) (phase : t.phase = .encoding plan watch)
    (about : e.job? = some id) : s.Sees id e := by
  obtain ⟨task, awake⟩ := listening?_eq_some.mp listens
  cases e with
  | submitted | asked | advanced | outOfPatience | ticked | disk => cases about
  | wrote job output errors =>
    cases about
    exact .piece output errors
  | exited job code bytes =>
    cases about
    exact .close code bytes
  | raised job message =>
    cases about
    exact .trouble message
  | moved | download | probed | spawned =>
    cases about
    refine .nothing s.store.files rfl rfl ?_
    unfold step
    simp only [task, listens, moveTask, awake, phase, takeDownload, Bool.false_eq_true, if_false]
    rfl
  | produced job size =>
    cases about
    obtain ⟨files, h⟩ := exists_leaveOutput s id (some size)
    by_cases running : s.process? id = some .running
    · exact .nothing files rfl rfl (by rw [step, if_pos running, h])
    · exact .nothing s.store.files rfl rfl (by rw [step, if_neg running]; rfl)
  | strayed job name content =>
    cases about
    have hfiles : ∃ files, s.stray id name content = s.setFiles files := by
      rw [stray]
      split
      · split
        · exact ⟨_, rfl⟩
        · exact ⟨s.store.files, rfl⟩
      · exact ⟨s.store.files, rfl⟩
    obtain ⟨files, h⟩ := hfiles
    exact .nothing files rfl rfl (by rw [step, h])

end Service

/-! ### Who has a process -/

/-- The task watches the engine. -/
def TaskPhase.watches : TaskPhase → Bool
  | encoding _ _ => true
  | _ => false

/-- Tasks that watch the engine have a process, and no others. -/
def Manned (s : Service) : Prop :=
  ∀ id t, s.task? id = some t → (s.process? id).isSome = t.phase.watches

namespace Manned
variable {s s' : Service} {id : JobId}

theorem begin (setup : Setup) (root : Path) (files : FileTree) :
    Manned (Service.begin setup root files) := fun _ _ h => nomatch h

/-- Some tasks are over, and the others stand where they stood. -/
theorem of_fewer (h : Manned s)
    (processes : ∀ other, (s'.process? other).isSome = (s.process? other).isSome)
    (tasks : ∀ other t', s'.task? other = some t' →
      ∃ t, s.task? other = some t ∧ t'.phase = t.phase) : Manned s' := by
  intro other t' task'
  obtain ⟨t, task, phase⟩ := tasks other t' task'
  rw [processes, phase]
  exact h other t task

/-- The task of a job stands somewhere else. -/
theorem setPhase {u : Service} (h : Manned s) (tasks : u.tasks = s.tasks) {phase : TaskPhase}
    (others : ∀ other ≠ id, u.process? other = s.process? other)
    (own : (u.process? id).isSome = phase.watches) : Manned (u.setPhase id phase) := by
  intro other t' task'
  rw [task?_setPhase, task?, tasks] at task'
  obtain ⟨t, task, rfl⟩ := Option.map_eq_some_iff.mp task'
  by_cases hother : other = id
  · subst hother
    rw [if_pos rfl]
    exact own
  · rw [if_neg hother]
    exact (congrArg Option.isSome (others other hother)).trans (h other t task)

theorem isSome_setProcess (s : Service) (id other : JobId) (status : ProcessStatus) :
    ((s.setProcess id status).process? other).isSome = (s.process? other).isSome := by
  rw [process?_setProcess, Option.isSome_map]

theorem task?_of_endTask {t' : Task} {other : JobId} (task' : (s.endTask id).task? other = some t') :
    ∃ t, s.task? other = some t ∧ t'.phase = t.phase := by
  rw [task?_endTask] at task'
  split at task'
  · cases task'
  · exact ⟨t', task', rfl⟩

theorem quiet (h : Manned s) (move : Quiet id s s') : Manned s' := by
  -- a task that does not watch goes on, and does not watch then
  have hstand {t : Task} (task : s.task? id = some t) (before : t.phase.watches = false) {u : Service}
      (tasks : u.tasks = s.tasks) (processes : u.processes = s.processes) {phase : TaskPhase}
      (after : phase.watches = false) : Manned (u.setPhase id phase) :=
    h.setPhase tasks (fun other _ => process?_of_processes processes other) <| by
      rw [process?_of_processes processes, h id t task, before, after]
  have hsame {u : Service} (processes : ∀ other, (u.process? other).isSome = (s.process? other).isSome)
      (tasks : u.tasks = s.tasks) : Manned u :=
    h.of_fewer processes fun other t' task' => ⟨t', by rwa [task?, tasks] at task', rfl⟩
  cases move with
  | note | write => exact hsame (fun _ => rfl) rfl
  | exit | kill => exact hsame (fun other => isSome_setProcess s id other _) rfl
  | download t ds index e task phase => exact hstand task (by rw [phase]; rfl) rfl rfl rfl
  | fetch t j items task phase => exact hstand task (by rw [phase]; rfl) rfl rfl rfl
  | wait t task phase => exact hstand task (by rw [phase]; rfl) rfl rfl rfl
  | probe t done left task phase =>
    refine hstand task ?_ rfl rfl rfl
    cases hphase : t.phase with
    | encoding plan watch =>
      rw [hphase] at phase
      cases phase
    | _ => rfl
  | spawn t plan watch task phase =>
    refine h.setPhase (u := s.addProcess id) rfl
      (fun other hother => process?_addProcess_of_ne hother) ?_
    simp [process?, addProcess, TaskPhase.watches]
  | watch t plan before after task phase =>
    refine h.setPhase rfl (fun _ _ => rfl) ?_
    rw [h id t task, phase]
    rfl
  | vanish t task phase told => exact h.of_fewer (fun _ => rfl) fun other t' => task?_of_endTask
  | resign t task phase told => exact h.of_fewer (fun _ => rfl) fun other t' => task?_of_endTask
  | leave t failure task holds gone killed =>
    rw [leave_eq]
    exact h.of_fewer (fun _ => rfl) fun other t' => task?_of_endTask

theorem advance (h : Manned s) (move : Advance id s s') : Manned s' := by
  cases move with
  | begin t slots task awake slot =>
    refine h.setPhase rfl (fun _ _ => rfl) ((h id t task).trans ?_)
    rcases slot with ⟨phase, -⟩ | ⟨phase, -⟩ <;> rw [phase] <;> rfl
  | render t plan task phase =>
    refine h.setPhase rfl (fun _ _ => rfl) ((h id t task).trans ?_)
    cases hphase : t.phase with
    | encoding plan watch =>
      rw [hphase] at phase
      cases phase
    | _ => rfl
  | complete t plan watch failure task phase exited size =>
    rw [leave_eq]
    exact h.of_fewer (fun _ => rfl) fun other t' => task?_of_endTask

theorem step (h : Manned s) (placed : Placed s) (e : Event) : Manned (s.step e) := by
  generalize hs' : s.step e = s'
  have hcases := step_cases placed.tabled.numbered e
  rw [hs'] at hcases
  cases hcases with
  | job id e b s' about moves =>
    exact moves.preserves (P := Manned) (fun _ _ h move => h.quiet move)
      (fun _ _ h move => h.advance move) h
  | submit submission disk s' outcome =>
    intro id t' task'
    rw [process?_of_processes outcome.frame.2.2.2.2.2.1]
    rcases outcome.task task' with hold | ⟨rfl, hnew⟩
    · exact h id t' hold
    · have hidle : s.process? (jobId (s.store.issued + 1)) = none :=
        Option.eq_none_iff_forall_ne_some.mpr fun status process =>
          Store.not_issued_jobId (Nat.lt_succ_self _) (placed.issued_of_process? process)
      rw [hidle, hnew]
      rfl
  | ask goal s' phase removing move started =>
    refine h.of_fewer (fun other => congrArg Option.isSome
      (process?_of_processes (s := s) move.processes other)) fun other t' task' => ?_
    obtain ⟨t, task, phase, -⟩ := move.task?_eq_some task'
    exact ⟨t, task, phase⟩
  | call e index c s' phase about call move =>
    refine h.of_fewer (fun other => congrArg Option.isSome
      (process?_of_processes (s := s) move.processes other)) fun other t' task' => ?_
    obtain ⟨t, task, phase, -⟩ := move.task?_eq_some task'
    exact ⟨t, task, phase⟩
  | drain | noCall | tick | disk => exact h.of_fewer (fun _ => rfl) fun _ t' task' => ⟨t', task', rfl⟩

theorem run (h : Manned s) (placed : Placed s) (events : List Event) : Manned (s.run events) := by
  induction events generalizing s with
  | nil => exact h
  | cons e rest ih => exact ih (h.step placed e) (placed.step e)

theorem idle {t : Task} (h : Manned s) (task : s.task? id = some t)
    (phase : t.phase.watches = false) : s.process? id = none := by
  have hnone := h id t task
  rw [phase] at hnone
  exact Option.isNone_iff_eq_none.mp (Option.isSome_eq_false_iff.mp hnone)

end Manned

/-! ### Ways out -/

section WaysOut
variable {s s' : Service} {id : JobId}

/-- Nothing forgets a process. -/
theorem Quiet.isSome_process? (move : Quiet id s s') (h : (s.process? id).isSome = true) :
    (s'.process? id).isSome = true := by
  cases move with
  | spawn => simp [process?, Service.setPhase, addProcess]
  | exit | kill => rwa [Manned.isSome_setProcess]
  | leave t failure => rwa [process?_of_processes (processes_leave s id failure)]
  | _ => exact h

theorem Moves.isSome_process? {b : Bool} (moves : Moves id s b s')
    (h : (s.process? id).isSome = true) : (s'.process? id).isSome = true :=
  moves.preserves (P := fun u => (u.process? id).isSome = true)
    (fun _ _ h move => move.isSome_process? h)
    (fun _ _ h move => (process?_of_processes move.processes id).symm ▸ h) h

/-- **A task that stops to watch a process that runs was not told to**: it has read something that it
cannot read, or what it waits for has failed. -/
theorem Service.left_running (tabled : s.Tabled) {e : Event} (watching : s.IsEncoding id)
    (left : ¬ (s.step e).IsEncoding id) (running : (s.step e).process? id = some .running) :
    (∃ t, s.task? id = some t ∧ t.cancelled = false) ∧
      ((∃ output errors, e = .wrote id output errors) ∨ ∃ message, e = .raised id message) := by
  obtain ⟨t, plan, watch, task, phase⟩ := watching
  have about : e.job? = some id := by
    by_contra other
    obtain ⟨t', task', phase'⟩ := task?_step_of_other tabled other task
    exact left ⟨t', plan, watch, task', phase'.trans phase⟩
  obtain ⟨b, moves⟩ := step_moves about s
  obtain ⟨hover, u, task', awake⟩ :=
    ((moves.process_cases running).resolve_left left).resolve_left fun h =>
      h.2 ⟨t, plan, watch, task, phase⟩
  cases task.symm.trans task'
  refine ⟨⟨t, task, awake⟩, ?_⟩
  have listens : s.listening? id = some t := listening?_eq_some.mpr ⟨task, awake⟩
  cases sees_of_watching listens phase about with
  | piece output errors => exact Or.inl ⟨output, errors, rfl⟩
  | trouble message => exact Or.inr ⟨message, rfl⟩
  | nothing files output errors same =>
    rw [same] at hover
    cases hover.symm.trans task
  | close code bytes =>
    -- the process has ended, or it ran no more before
    by_cases before : s.process? id = some .running
    · rw [step_exited_eq listens phase before, process?_of_processes (takeExit_ends ..).1,
        process?_closing before] at running
      cases running
    · have hstep : s.step (.exited id code bytes) = s := by
        unfold step
        simp only [takeEnd, before, if_false]
      rw [hstep] at running
      exact absurd running before

end WaysOut

/-- A process was started in `s` and has been read so far: what comes of it then. -/
structure Followed (s now : Service) (id : JobId) (plan : TextPlan) (output errors : List UInt8) :
    Prop where
  state : now = (s.addProcess id).reading id plan s.setup.engine.diagnosticLines.toNat output errors
  running : now.process? id = some .running
  /-- The task takes the result, with the exit code of the process. -/
  returns : Engine.Readable s.rounding true output errors →
    Engine.Calm s.rounding plan.duration
      (Engine.timesOf s.rounding (Engine.lastLine output)) → ∀ code bytes,
    now.step (.exited id code bytes) = ((now.closing id code bytes).noteAll id
      (Engine.stagesOf s.rounding plan.duration
        (Engine.timesOf s.rounding (Engine.lastLine output)))).takeResult id
          ⟨code, Engine.diagnosticsOf s.setup.engine.diagnosticLines.toNat errors⟩
  /-- A last line can fail it. -/
  fails : ¬ Engine.Timed s.rounding (Engine.lastLine output) → ∀ code bytes,
    ∃ (stages : List String) (f : Engine.ReadFault), now.step (.exited id code bytes) =
      ((now.closing id code bytes).noteAll id stages).leave id (some (unforeseen f.message))
  ends : ∀ code bytes, (now.step (.exited id code bytes)).task? id = none ∧
    (now.step (.exited id code bytes)).process? id = some (.exited code)
  killed : ((now.cancel id).step (.moved id)).process? id = some .killed
  raised : ∀ message, (now.step (.raised id message)).task? id = none ∧
    (now.step (.raised id message)).process? id = some .running

/-- A process was started in `s`, its task has failed, and it runs on. -/
structure Abandoned (s now : Service) (id : JobId) : Prop where
  failed : ∃ (stages : List String) (f : Engine.ReadFault),
    now = ((s.addProcess id).noteAll id stages).leave id (some (unforeseen f.message))
  finished : now.task? id = none
  running : now.process? id = some .running

section Starts
variable {s : Service} {id : JobId} {t : Task} {plan : TextPlan}

theorem followed_of_started (listens : s.listening? id = some t) (phase : t.phase = .starting plan)
    (idle : s.process? id = none) (lines : 0 ≤ s.setup.engine.diagnosticLines)
    {pieces : List (List UInt8 × List UInt8)}
    (legible : Engine.Legible s.rounding true (pieces.flatMap Prod.fst) (pieces.flatMap Prod.snd))
    (calm : Engine.Calm s.rounding plan.duration
      (Engine.timesOf s.rounding (Engine.finished (pieces.flatMap Prod.fst)))) :
    Followed s (s.run (.spawned id .started :: writes id pieces)) id plan (pieces.flatMap Prod.fst)
      (pieces.flatMap Prod.snd) := by
  have hlistens : (s.addProcess id).listening? id = some t := listens
  have hrunning : (s.addProcess id).process? id = some .running := process?_addProcess_self idle
  have hstate : s.run (.spawned id .started :: writes id pieces) =
      (s.addProcess id).reading id plan s.setup.engine.diagnosticLines.toNat
        (pieces.flatMap Prod.fst) (pieces.flatMap Prod.snd) := by
    rw [run_cons, step_spawned listens phase lines]
    exact reading_run [] [] hlistens hrunning legible calm
  rw [hstate]
  exact
    { state := rfl
      running := process?_reading hrunning ..
      returns := fun readable calm code bytes => reading_exit hlistens hrunning readable calm code bytes
      fails := fun part code bytes => reading_exit_fault hlistens hrunning legible part code bytes
      ends := fun code bytes => reading_exit_ends hlistens hrunning code bytes
      killed := reading_cancel hlistens hrunning
      raised := fun message => reading_raised hlistens hrunning message }

theorem abandoned_of_started (listens : s.listening? id = some t)
    (phase : t.phase = .starting plan) (idle : s.process? id = none)
    {pieces : List (List UInt8 × List UInt8)}
    (illegible : ¬ (0 ≤ s.setup.engine.diagnosticLines ∧
      Engine.Legible s.rounding true (pieces.flatMap Prod.fst) (pieces.flatMap Prod.snd))) :
    Abandoned s (s.run (.spawned id .started :: writes id pieces)) id := by
  have hlistens : (s.addProcess id).listening? id = some t := listens
  have hrunning : (s.addProcess id).process? id = some .running := process?_addProcess_self idle
  have hfailed : ∃ (stages : List String) (f : Engine.ReadFault),
      s.run (.spawned id .started :: writes id pieces) =
        ((s.addProcess id).noteAll id stages).leave id (some (unforeseen f.message)) := by
    rw [run_cons]
    by_cases lines : 0 ≤ s.setup.engine.diagnosticLines
    · rw [step_spawned listens phase lines]
      exact reading_run_fault hlistens hrunning (Engine.legible_nil ..) fun legible =>
        illegible ⟨lines, legible⟩
    · refine ⟨[], .negativeTail, ?_⟩
      rw [step_spawned_fault listens phase (Int.not_le.mp lines)]
      exact run_writes_of_finished (task?_leave ..) pieces
  obtain ⟨stages, f, h⟩ := hfailed
  refine ⟨⟨stages, f, h⟩, ?_, ?_⟩
  · rw [h, task?_leave]
  · rw [h, process?_of_processes (processes_leave ..)]
    exact hrunning

end Starts

/-- **A process of the engine comes to its end with a result if and only if what it writes can be
read.**  Then the result has its own exit code and the last lines of its diagnostics, whoever listens,
and however its output comes in pieces.  A task that watches takes it; a task that is told to stop
kills the process.  But a task that cannot read on fails and leaves its process alone, and so does
one that waits for something that fails in a way that nobody has foreseen.  There is no other way for
a process to be left while it runs. -/
theorem engine_runs_end (setup : Setup) (root : Path) (files : FileTree) (before : List Event)
    (id : JobId) (t : Task) (plan : TextPlan) :
    let r := setup.compiler.rounding
    let lines := setup.engine.diagnosticLines
    let s₀ := Service.begin setup root files
    let s := s₀.run before
    s.listening? id = some t → t.phase = .starting plan →
    (∀ listening pieces code result, setup.engine.outcome r listening pieces code = .ok result ↔
      0 ≤ lines ∧
      Engine.Readable r listening (pieces.flatMap Prod.fst) (pieces.flatMap Prod.snd) ∧
      result = ⟨code, Engine.diagnosticsOf lines.toNat (pieces.flatMap Prod.snd)⟩) ∧
    (∀ pieces : List (List UInt8 × List UInt8),
      let output := pieces.flatMap Prod.fst
      let errors := pieces.flatMap Prod.snd
      let now := s.run (.spawned id .started :: writes id pieces)
      (0 ≤ lines → Engine.Legible r true output errors →
        Engine.Calm r plan.duration (Engine.timesOf r (Engine.finished output)) →
        Followed s now id plan output errors) ∧
      (¬ (0 ≤ lines ∧ Engine.Legible r true output errors) → Abandoned s now id)) ∧
    (∀ (events : List Event) (job : JobId) (e : Event),
      let u := s₀.run events
      u.IsEncoding job → ¬ (u.step e).IsEncoding job →
      (u.step e).process? job = some .killed ∨
      (∃ code, (u.step e).process? job = some (.exited code)) ∨
      (u.step e).process? job = some .running ∧
        (∃ t, u.task? job = some t ∧ t.cancelled = false) ∧
        ((∃ output errors, e = .wrote job output errors) ∨ ∃ message, e = .raised job message)) := by
  intro r lines s₀ s listens phase
  have hplaced := Placed.begin setup root files
  have hmanned := Manned.begin setup root files
  have hsetup : s.setup = setup := hplaced.tabled.setup_run before
  have hrounding : s.rounding = r := congrArg (fun u => u.compiler.rounding) hsetup
  have idle : s.process? id = none := by
    have h := hmanned.run hplaced before id t (listening?_eq_some.mp listens).1
    rw [phase] at h
    exact Option.not_isSome_iff_eq_none.mp (Bool.not_eq_true _ ▸ h)
  refine ⟨fun listening pieces code result => Engine.outcome_eq_ok_iff, fun pieces => ⟨?_, ?_⟩,
    fun events job e watching left => ?_⟩
  · intro hlines legible calm
    rw [← hrounding] at legible calm
    exact followed_of_started listens phase idle (hsetup ▸ hlines) legible calm
  · intro illegible
    rw [← hrounding] at illegible
    exact abandoned_of_started listens phase idle (hsetup ▸ illegible)
  · have hthere : ((s₀.run events).process? job).isSome = true := by
      obtain ⟨t, plan, watch, task, phase⟩ := watching
      rw [hmanned.run hplaced events job t task, phase]
      rfl
    have hthere' : (((s₀.run events).step e).process? job).isSome = true := by
      by_cases about : e.job? = some job
      · obtain ⟨b, moves⟩ := step_moves about (s₀.run events)
        exact moves.isSome_process? hthere
      · rwa [process?_step_of_other (hplaced.run events).tabled about]
    obtain ⟨status, hstatus⟩ := Option.isSome_iff_exists.mp hthere'
    cases status with
    | killed => exact Or.inl hstatus
    | exited code => exact Or.inr (Or.inl ⟨code, hstatus⟩)
    | running =>
      exact Or.inr (Or.inr ⟨hstatus, left_running (hplaced.run events).tabled watching left hstatus⟩)

namespace Sample

/-- The engine is about to be started. -/
def ready : List Event := rendered.take 8

/-- Half a report and a warning, and then the rest of the report. -/
def pieces : List (List UInt8 × List UInt8) :=
  [("out_time_us=20".toUTF8.toList, "slow disk\n".toUTF8.toList), ("00000\n".toUTF8.toList, [])]

/-- The engine is to be started with a plan for which half of the film is a number of percent. -/
def isReady : TaskPhase → Bool
  | .starting plan => decide (Engine.Calm .binary64 plan.duration [.finite 2])
  | _ => false

/-- A report of a time that no number stands for. -/
def endlessTime : List UInt8 := "out_time_us=1".toUTF8.toList ++ List.replicate 400 48 ++ [10]

end Sample

theorem engine_runs_end_sample :
    let s := Sample.service.run Sample.ready
    ∃ t plan, s.listening? (jobId 1) = some t ∧ t.phase = .starting plan ∧
      Followed s (s.run (.spawned (jobId 1) .started :: writes (jobId 1) Sample.pieces)) (jobId 1)
        plan "out_time_us=2000000\n".toUTF8.toList "slow disk\n".toUTF8.toList := by
  intro s
  have hready : (s.listening? (jobId 1)).any (fun t => Sample.isReady t.phase) = true := by
    decide +kernel
  obtain ⟨t, listens, hphase⟩ := (Option.any_eq_true _ _).mp hready
  cases phase : t.phase with
  | starting plan =>
    rw [phase] at hphase
    refine ⟨t, plan, listens, phase, ?_⟩
    obtain ⟨-, hpieces, -⟩ := engine_runs_end Sample.setup ["work"] Sample.workRoot Sample.ready
      (jobId 1) t plan listens phase
    have houtput : Sample.pieces.flatMap Prod.fst = "out_time_us=2000000\n".toUTF8.toList := by
      decide +kernel
    have herrors : Sample.pieces.flatMap Prod.snd = "slow disk\n".toUTF8.toList := by decide +kernel
    rw [← houtput, ← herrors]
    refine (hpieces Sample.pieces).1 (by decide) (by decide +kernel) ?_
    have htimes : Engine.timesOf .binary64 (Engine.finished (Sample.pieces.flatMap Prod.fst)) =
        [.finite 2] := by decide +kernel
    rw [show Sample.setup.compiler.rounding = .binary64 from rfl, htimes]
    exact of_decide_eq_true hphase
  | _ =>
    rw [phase] at hphase
    cases hphase

namespace Sample

theorem progressMicroseconds?_endlessTime :
    Engine.progressMicroseconds? endlessTime.dropLast = some (10 ^ 400) := by
  rw [Engine.progressMicroseconds?_eq]
  decide +kernel

/-- No double is as long as that. -/
theorem seconds_endlessTime : Engine.seconds .binary64 (10 ^ 400) = .error .timeRange := by
  decide +kernel

theorem step_endlessTime : (service.run encoding).step (.wrote (jobId 1) endlessTime []) =
    (service.run encoding).leave (jobId 1)
      (some (unforeseen Engine.ReadFault.timeRange.message)) := by
  have hwatches : ((service.run encoding).task? (jobId 1)).any
      (fun t => !t.cancelled && isSilent t.phase) = true := by decide +kernel
  obtain ⟨t, task, hwatch⟩ := (Option.any_eq_true _ _).mp hwatches
  obtain ⟨hawake, hwatch⟩ := Bool.and_eq_true_iff.mp hwatch
  cases phase : t.phase with
  | encoding plan watch =>
    rw [phase] at hwatch
    obtain ⟨hquiet, hempty⟩ := Bool.and_eq_true_iff.mp hwatch
    obtain ⟨⟨output⟩, ⟨errors⟩, tail⟩ := watch
    obtain rfl : output = [] := List.isEmpty_iff.mp hquiet
    obtain rfl : errors = [] := List.isEmpty_iff.mp hempty
    have hline : (⟨[]⟩ : Engine.LineBuffer).take endlessTime false =
        ([endlessTime.dropLast], ⟨[]⟩, none) := by decide +kernel
    have hrounding : (service.run encoding).rounding = .binary64 :=
      congrArg (fun u => u.compiler.rounding)
        ((tabled_begin setup ["work"] workRoot).setup_run encoding)
    obtain ⟨hsilent, hfault⟩ := Engine.Watch.take_of_error tail hline
      progressMicroseconds?_endlessTime seconds_endlessTime
    rw [← hrounding] at hsilent hfault
    exact step_wrote_of_fault task (by simpa using hawake) phase (by decide +kernel) hsilent hfault
  | _ =>
    rw [phase] at hwatch
    cases hwatch

end Sample

/-- A report that cannot be read fails the job, and the process runs on. -/
theorem orphan_of_endless_time :
    (∀ code result, Engine.standard.outcome .binary64 true [(Sample.endlessTime, [])] code ≠
      .ok result) ∧
    let s := Sample.service.run (Sample.encoding ++ [.wrote (jobId 1) Sample.endlessTime []])
    (s.task? (jobId 1)).isNone = true ∧ s.process? (jobId 1) = some .running ∧
      (s.store.find? (jobId 1)).map (fun j => (j.state, j.error)) =
        some (.failed, some "Internal error: integer division result too large for a float") := by
  constructor
  · intro code result h
    obtain ⟨-, hreadable, -⟩ := Engine.outcome_eq_ok_iff.mp h
    have hlines : Engine.linesOf ([(Sample.endlessTime, ([] : List UInt8))].flatMap Prod.fst) =
        [Sample.endlessTime.dropLast] := by decide +kernel
    have hpart := Engine.not_timed (List.mem_singleton_self _)
      Sample.progressMicroseconds?_endlessTime Sample.seconds_endlessTime
    rw [← hlines] at hpart
    exact hpart (hreadable.times rfl)
  · rw [run_append, run_cons, Sample.step_endlessTime]
    decide +kernel

end Montage
