import Montage.Proofs.Shares

/-! # Notes about progress

A job whose engine is about to be started or runs carries a note.  It says "Encoding", or the
percentage that a time stands for which the engine has reported (`IsNote`).  In all runs it is so
(`Shows`), with the lines that the task of the job has read so far (`Service.heard`).

The percentage is never more than a hundred, and it is not negative if the time is not.  But nothing
keeps the engine from reporting a negative time.
-/
namespace Montage

open Service

/-- The plan that is carried out. -/
def TaskPhase.plan? : TaskPhase → Option TextPlan
  | starting plan | encoding plan _ => some plan
  | _ => none

/-- What has been read of the process. -/
def TaskPhase.watch? : TaskPhase → Option Engine.Watch
  | encoding _ watch => some watch
  | _ => none

/-- The notes that a job can carry while its plan is carried out and lines were read of its engine. -/
inductive IsNote (r : Rounding) (duration : Number) (ls : List (List UInt8)) : String → Prop where
  | begun : IsNote r duration ls "Encoding"
  | progress (n : Int) (x y : Number) (p : Int) (reports : n ∈ Engine.reported ls)
      (time : Engine.seconds r n = .ok x) (share : Engine.share r duration x = some y)
      (percent : Engine.percent r y = .ok p) : IsNote r duration ls (progressNote p)

namespace IsNote
variable {r : Rounding} {duration : Number} {ls : List (List UInt8)} {note : String}

theorem append (h : IsNote r duration ls note) (more : List (List UInt8)) :
    IsNote r duration (ls ++ more) note := by
  cases h with
  | begun => exact .begun
  | progress n x y p reports time share percent =>
    refine .progress n x y p ?_ time share percent
    rw [Engine.reported, List.filterMap_append]
    exact List.mem_append_left _ reports

/-- A percentage is at most a hundred, and it is not negative if the time is not. -/
theorem bounded (orderly : r.Orderly) (h : IsNote r duration ls note) :
    note = "Encoding" ∨ ∃ n ∈ Engine.reported ls, ∃ p,
      note = progressNote p ∧ p ≤ 100 ∧ (0 ≤ n → 0 ≤ p) := by
  cases h with
  | begun => exact Or.inl rfl
  | progress n x y p reports time share percent =>
    have hle := Engine.share_le_one share
    refine Or.inr ⟨n, reports, p, rfl, Engine.percent_le orderly hle percent, fun nonneg => ?_⟩
    obtain ⟨q, hq, hnonneg, -⟩ := Engine.exists_percent orderly
      (Engine.zero_le_share_of_nonneg orderly nonneg time share) hle
    cases percent.symm.trans hq
    exact hnonneg

end IsNote

/-! ### What is read -/

namespace Job

theorem state_note (j : Job) (stage : String) : (j.note stage).state = j.state := by
  unfold note
  split <;> rfl

/-- A job that has ended takes no note. -/
theorem stage_note (j : Job) (stage : String) :
    (j.note stage).stage = j.stage ∨ (j.note stage).stage = some stage := by
  unfold note
  split
  · exact Or.inl rfl
  · exact Or.inr rfl

end Job

namespace Service

/-- The lines of reports that an event lets the task of a job read. -/
def heardBy (s : Service) (id : JobId) : Event → List (List UInt8)
  | .wrote job output _ =>
    if job = id ∧ s.process? id = some .running then
      (((s.listening? id).bind fun t => t.phase.watch?).map fun w =>
        (w.output.take output false).1).getD []
    else []
  | _ => []

/-- The lines of reports that the task of a job reads in a run. -/
def heard (s : Service) (id : JobId) : List Event → List (List UInt8)
  | [] => []
  | e :: rest => s.heardBy id e ++ (s.step e).heard id rest

/-- The job carries a note that its plan and lines of reports account for. -/
def Shows (s : Service) (id : JobId) (ls : List (List UInt8)) : Prop :=
  ∀ t plan j, s.task? id = some t → t.phase.plan? = some plan → s.store.find? id = some j →
    j.state.isFinal = false → ∃ note, j.stage = some note ∧ IsNote s.rounding plan.duration ls note

variable {s : Service} {id : JobId} {t : Task} {plan : TextPlan} {ls more : List (List UInt8)}

namespace Shows

theorem append (h : s.Shows id ls) (more : List (List UInt8)) : s.Shows id (ls ++ more) := by
  intro t plan j task carries found midway
  obtain ⟨note, hstage, hnote⟩ := h t plan j task carries found midway
  exact ⟨note, hstage, hnote.append more⟩

theorem of_finished (h : s.task? id = none) : s.Shows id ls :=
  fun _ _ _ task => nomatch h.symm.trans task

theorem leave (s : Service) (id : JobId) (failure : Option String) :
    (s.leave id failure).Shows id ls :=
  of_finished (task?_leave s id failure)

/-- A task without a plan asks for nothing. -/
theorem setPhase (s : Service) (id : JobId) {phase : TaskPhase} (idle : phase.plan? = none) :
    (s.setPhase id phase).Shows id ls := by
  intro t plan j task carries
  rw [task?_setPhase, Option.map_eq_some_iff] at task
  obtain ⟨u, -, rfl⟩ := task
  rw [if_pos rfl] at carries
  cases idle.symm.trans carries

/-- The task goes on with its plan. -/
theorem goOn (h : s.Shows id ls) (task : s.task? id = some t) {phase : TaskPhase}
    (same : phase.plan? = t.phase.plan?) : (s.setPhase id phase).Shows id ls := by
  intro t' plan j task' carries found midway
  rw [task?_setPhase_self task] at task'
  obtain rfl := Option.some.inj task'
  exact h t plan j task (same ▸ carries) found midway

theorem congr {u : Service} (h : s.Shows id ls) (rounding : u.rounding = s.rounding)
    (task : u.task? id = s.task? id) (found : u.store.find? id = s.store.find? id) :
    u.Shows id ls := by
  intro t plan j ht carries hj midway
  rw [rounding]
  exact h t plan j (task ▸ ht) carries (found ▸ hj) midway

/-! ### Handlers -/

theorem beginWork (s : Service) (t : Task) : (s.beginWork t).Shows t.job ls := by
  unfold Service.beginWork
  split
  · exact leave _ _ _
  · dsimp only
    split
    · exact leave _ _ _
    · split
      · exact leave _ _ _
      · exact setPhase _ _ rfl

/-- The plan begins to be carried out with a note. -/
theorem begun (s : Service) (id : JobId) (plan : TextPlan) :
    ((s.note id "Encoding").setPhase id (.starting plan)).Shows id ls := by
  intro t plan' j task carries found midway
  have hfound : (s.store.setStage id "Encoding").find? id = some j := found
  rw [Store.find?_setStage, Option.map_eq_some_iff] at hfound
  obtain ⟨k, -, rfl⟩ := hfound
  rw [if_pos rfl, Job.note] at midway ⊢
  split at midway
  · rename_i final
    cases final.symm.trans midway
  · rename_i hopen
    rw [if_neg hopen]
    exact ⟨_, rfl, .begun⟩

theorem compile (s : Service) (t : Task) (assets : List (String × Asset)) :
    (s.compile t assets).Shows t.job ls := by
  unfold Service.compile
  split
  · exact leave _ _ _
  · dsimp only
    split
    · exact leave _ _ _
    · split
      · exact leave _ _ _
      · exact begun _ _ _

theorem continueProbing (s : Service) (t : Task) (done : List (String × Asset))
    (left : List (MediaSource × Path)) : (s.continueProbing t done left).Shows t.job ls := by
  cases left with
  | nil => exact compile s t done
  | cons next rest => exact setPhase s t.job rfl

theorem takeFetched (h : s.Shows t.job ls) (ds : Downloads) :
    (s.takeFetched t ds).Shows t.job ls := by
  unfold Service.takeFetched
  split
  · exact h
  · exact leave _ _ _
  · exact continueProbing _ _ _ _

theorem takeProbed (s : Service) (t : Task) (outcome : Probe.Outcome) (done : List (String × Asset))
    (source : MediaSource) (path : Path) (left : List (MediaSource × Path)) :
    (s.takeProbed t outcome done source path left).Shows t.job ls := by
  unfold Service.takeProbed
  split
  · exact leave _ _ _
  · exact continueProbing _ _ _ _

theorem takeSpawned (h : s.Shows t.job ls) (task : s.task? t.job = some t)
    (phase : t.phase = .starting plan) (outcome : SpawnOutcome) :
    (s.takeSpawned t plan outcome).Shows t.job ls := by
  cases outcome with
  | refused m => exact leave _ _ _
  | missing => exact of_finished (takeResult_ends _ _ _).2
  | started =>
    rw [Service.takeSpawned]
    split
    · exact leave _ _ _
    · exact (h.congr (u := s.addProcess t.job) rfl rfl rfl).goOn task (by rw [phase]; rfl)

end Shows

/-- What is noted of times is a note about one of them. -/
theorem stage_noteTimes {times : List Number} {j' : Job}
    (h : (s.noteTimes id plan times).1.store.find? id = some j') :
    ∃ j, s.store.find? id = some j ∧ j'.state = j.state ∧ (j'.stage = j.stage ∨
      ∃ x ∈ times, ∃ y p, Engine.share s.rounding plan.duration x = some y ∧
        Engine.percent s.rounding y = .ok p ∧ j'.stage = some (progressNote p)) := by
  induction times generalizing s with
  | nil => exact ⟨j', h, rfl, Or.inl rfl⟩
  | cons x rest ih =>
    rw [noteTimes] at h
    split at h
    · obtain ⟨j, hj, hstate, hstage⟩ := ih h
      refine ⟨j, hj, hstate, hstage.imp_right ?_⟩
      rintro ⟨x', hx', hnote⟩
      exact ⟨x', List.mem_cons_of_mem _ hx', hnote⟩
    · rename_i y hshare
      split at h
      · exact ⟨j', h, rfl, Or.inl rfl⟩
      · rename_i p hpercent
        obtain ⟨k, hk, hstate, hstage⟩ := ih (s := s.note id (progressNote p)) h
        have hnoted : (s.store.setStage id (progressNote p)).find? id = some k := hk
        rw [Store.find?_setStage, Option.map_eq_some_iff] at hnoted
        obtain ⟨j, hj, rfl⟩ := hnoted
        rw [if_pos rfl] at hstate hstage
        refine ⟨j, hj, hstate.trans (Job.state_note j _), ?_⟩
        rcases hstage with hstage | ⟨x', hx', hnote⟩
        · rcases Job.stage_note j (progressNote p) with hsame | hnote
          · exact Or.inl (hstage.trans hsame)
          · exact Or.inr ⟨x, List.mem_cons_self, y, p, hshare, hpercent, hstage.trans hnote⟩
        · exact Or.inr ⟨x', List.mem_cons_of_mem _ hx', hnote⟩

namespace Shows

theorem takeWritten (h : s.Shows t.job ls) (task : s.task? t.job = some t) {watch : Engine.Watch}
    (phase : t.phase = .encoding plan watch) (output errors : List UInt8) :
    (s.takeWritten t plan watch output errors).Shows t.job
      (ls ++ (watch.output.take output false).1) := by
  obtain ⟨store, heq, -⟩ := moves_noteTimes s t.job plan
    (watch.take s.rounding true ⟨output, errors, false⟩).times
  have hstage {j' : Job} (hj' : store.find? t.job = some j') := by
    rw [← store_setStore s store, ← heq] at hj'
    exact stage_noteTimes hj'
  have hnoted : (s.setStore store).Shows t.job (ls ++ (watch.output.take output false).1) := by
    intro t' plan' j' task' carries found midway
    obtain rfl : t = t' := Option.some.inj (task.symm.trans task')
    obtain rfl : plan = plan' := by
      rw [phase] at carries
      exact Option.some.inj carries
    obtain ⟨j, hj, hstate, hsame | ⟨x, hx, y, p, hshare, hpercent, hnote⟩⟩ := hstage found
    · obtain ⟨note, hstage, hnote⟩ := h t plan j task (by rw [phase]; rfl) hj (hstate ▸ midway)
      exact ⟨note, hsame.trans hstage, hnote.append _⟩
    · obtain ⟨n, hn, htime⟩ : ∃ n ∈ Engine.reported (watch.output.take output false).1,
          Engine.seconds s.rounding n = .ok x := Engine.mem_reportedTimes hx
      refine ⟨_, hnote, .progress n x y p ?_ htime hshare hpercent⟩
      rw [Engine.reported, List.filterMap_append]
      exact List.mem_append_right _ hn
  unfold Service.takeWritten readOutput
  simp only [heq]
  split
  · rename_i u w f hread
    cases (Prod.mk.inj hread).1
    exact leave _ _ _
  · rename_i u w hread
    cases (Prod.mk.inj hread).1
    exact hnoted.goOn (t := t) task (by rw [phase]; rfl)

theorem stop (s : Service) (t : Task) : (s.stop t).Shows t.job ls := of_finished (task?_stop s t)

theorem moveTask (h : s.Shows t.job ls) : (s.moveTask t).Shows t.job ls := by
  unfold Service.moveTask
  split
  · exact stop s t
  · split
    · split
      · exact beginWork _ t
      · exact setPhase _ _ rfl
    · split
      · exact beginWork _ t
      · exact h
    · exact takeFetched h _
    · exact h

theorem takeDownload (h : s.Shows t.job ls) (index : Nat) (e : DownloadEvent) :
    (s.takeDownload t index e).Shows t.job ls := by
  unfold Service.takeDownload
  split
  · split
    · exact h
    · exact setPhase _ _ rfl
  · exact h

theorem takeFailure (h : s.Shows t.job ls) (message : String) :
    (s.takeFailure t message).Shows t.job ls := by
  unfold Service.takeFailure
  split
  · exact leave _ _ _
  · exact h

theorem setFiles (h : s.Shows id ls) (files : FileTree) : (s.setFiles files).Shows id ls :=
  h.congr rfl rfl rfl

theorem leaveOutput (h : s.Shows id ls) (size : Option Nat) : (s.leaveOutput id size).Shows id ls := by
  obtain ⟨files, heq⟩ := exists_leaveOutput s id size
  rw [heq]
  exact h.setFiles files

theorem takeEnd (h : s.Shows id ls) (code : Int) (size : Option Nat) :
    (s.takeEnd id code size).Shows id ls := by
  have hclosed : ((s.setProcess id (.exited code)).leaveOutput id size).Shows id ls :=
    (h.congr (u := s.setProcess id (.exited code)) rfl rfl rfl).leaveOutput size
  unfold Service.takeEnd
  split
  · dsimp only
    split
    · rename_i t listens
      obtain rfl := job_of_task? (listening?_eq_some.mp listens).1
      split
      · exact of_finished (takeExit_ends _ _ _ _ _).2
      · exact hclosed
    · exact hclosed
  · exact h

theorem stray (h : s.Shows id ls) (name : String) (content : Content) :
    (s.stray id name content).Shows id ls := by
  unfold Service.stray
  split
  · split
    · exact h.setFiles _
    · exact h
  · exact h

/-! ### Events -/

/-- A job that was just submitted has no plan, and events of others change neither the plan of a job
nor its note. -/
theorem step_of_other (h : s.Shows id ls) (tabled : s.Tabled) {e : Event}
    (other : e.job? ≠ some id) : (s.step e).Shows id ls := by
  intro t' plan j task' carries found midway
  rcases record_step_of_other tabled other found with hj | ⟨-, rfl⟩
  · obtain hnew | ⟨t, task, -⟩ := task?_step tabled e task'
    · rw [hnew, tabled.numbered.find?_next] at hj
      cases hj
    · obtain ⟨u, hu, phase⟩ := task?_step_of_other tabled other task
      cases hu.symm.trans task'
      rw [tabled.rounding_step]
      exact h t plan j task (phase ▸ carries) hj midway
  · have hphase := (tabled.step e).state id t' _ task' found
    cases phase : t'.phase <;> rw [phase] at carries hphase <;> cases carries <;> cases hphase

theorem step_of_job (h : s.Shows id ls) {e : Event} (about : e.job? = some id) :
    (s.step e).Shows id (ls ++ s.heardBy id e) := by
  have hquiet (silent : s.heardBy id e = []) (hstep : (s.step e).Shows id ls) :
      (s.step e).Shows id (ls ++ s.heardBy id e) := by
    rwa [silent, List.append_nil]
  cases e with
  | submitted | asked | advanced | outOfPatience | ticked | disk => cases about
  | moved job =>
    cases about
    refine hquiet rfl ?_
    rw [step]
    split
    · rename_i t task
      obtain rfl := job_of_task? task
      exact moveTask h
    · exact h
  | download job index e =>
    cases about
    refine hquiet rfl ?_
    rw [step]
    split
    · rename_i t task
      obtain rfl := job_of_task? task
      exact takeDownload h index e
    · exact h
  | probed job outcome =>
    cases about
    refine hquiet rfl ?_
    rw [step]
    split
    · rename_i t listens
      obtain rfl := job_of_task? (listening?_eq_some.mp listens).1
      split
      · exact takeProbed _ _ _ _ _ _ _
      · exact h
    · exact h
  | spawned job outcome =>
    cases about
    refine hquiet rfl ?_
    rw [step]
    split
    · rename_i t listens
      have task := (listening?_eq_some.mp listens).1
      obtain rfl := job_of_task? task
      split
      · rename_i plan phase
        exact takeSpawned h task phase outcome
      · exact h
    · exact h
  | wrote job output errors =>
    cases about
    rw [step]
    split
    · rename_i t listens
      have task := (listening?_eq_some.mp listens).1
      obtain rfl := job_of_task? task
      split
      · rename_i plan watch phase
        split
        · rename_i running
          have heard : s.heardBy t.job (.wrote t.job output errors) =
              (watch.output.take output false).1 := by
            simp only [heardBy, listens, running, phase, TaskPhase.watch?, and_self, if_true,
              Option.bind_some, Option.map_some, Option.getD_some]
          rw [heard]
          exact takeWritten h task phase output errors
        · exact h.append _
      · exact h.append _
    · exact h.append _
  | produced job size =>
    cases about
    refine hquiet rfl ?_
    rw [step]
    split
    · exact h.leaveOutput _
    · exact h
  | exited job code size =>
    cases about
    exact hquiet rfl (h.takeEnd code size)
  | raised job message =>
    cases about
    refine hquiet rfl ?_
    rw [step]
    split
    · rename_i t listens
      obtain rfl := job_of_task? (listening?_eq_some.mp listens).1
      exact takeFailure h message
    · exact h
  | strayed job name content =>
    cases about
    exact hquiet rfl (h.stray name content)

/-- **What an event lets a task read accounts for the note then.** -/
theorem step (h : s.Shows id ls) (tabled : s.Tabled) (e : Event) :
    (s.step e).Shows id (ls ++ s.heardBy id e) := by
  by_cases about : e.job? = some id
  · exact h.step_of_job about
  · exact (h.step_of_other tabled about).append _

theorem run (h : s.Shows id ls) (tabled : s.Tabled) (events : List Event) :
    (s.run events).Shows id (ls ++ s.heard id events) := by
  induction events generalizing s ls with
  | nil => exact h.append []
  | cons e rest ih =>
    rw [heard, ← List.append_assoc]
    exact ih (h.step tabled e) (tabled.step e)

end Shows

/-- A job that renders has a plan. -/
theorem Tabled.exists_plan_of_rendering (tabled : s.Tabled) {j : Job}
    (found : s.store.find? id = some j) (rendering : j.state = .rendering) :
    ∃ t plan, s.task? id = some t ∧ t.phase.plan? = some plan := by
  obtain ⟨t, task⟩ := Option.isSome_iff_exists.mp (tabled.working id j found (Or.inr rendering))
  have hphase := rendering.symm.trans (tabled.state id t j task found)
  cases phase : t.phase with
  | starting plan => exact ⟨t, plan, task, by rw [phase]; rfl⟩
  | encoding plan watch => exact ⟨t, plan, task, by rw [phase]; rfl⟩
  | _ =>
    rw [phase] at hphase
    cases hphase

end Service

/-- **What is passed on of the times that the engine reports** is at most one, whatever they are, and
in their order.  It is not negative if the time is not, and then a percentage from nought to a
hundred stands for it.  But of a time before the beginning nothing above zero is passed on.

So while a job renders its note says "Encoding", or a percentage that is at most a hundred and that a
time stands for which its engine has reported; it is not negative if the time is not. -/
theorem progress_bounded (setup : Setup) (root : Path) (files : FileTree) (events : List Event)
    (id : JobId) (orderly : setup.compiler.rounding.Orderly) :
    let r := setup.compiler.rounding
    let s₀ := Service.begin setup root files
    let ls := s₀.heard id events
    (∀ duration ls, (∀ y ∈ Engine.sharesOf r duration ls, Number.le y (.finite 1) = true ∧
        ∃ n ∈ Engine.reported ls,
          (0 ≤ n → Number.le (.finite 0) y = true ∧
            ∃ p, Engine.percent r y = .ok p ∧ 0 ≤ p ∧ p ≤ 100) ∧
          (n ≤ 0 → Number.le y (.finite 0) = true)) ∧
      ((Engine.reported ls).Pairwise (· ≤ ·) →
        (Engine.sharesOf r duration ls).Pairwise fun x y => Number.le x y = true)) ∧
    ∀ j, (s₀.run events).store.find? id = some j → j.state = .rendering →
      ∃ t plan note, (s₀.run events).task? id = some t ∧ t.phase.plan? = some plan ∧
        j.stage = some note ∧ IsNote r plan.duration ls note ∧
        (note = "Encoding" ∨ ∃ n ∈ Engine.reported ls, ∃ p,
          note = progressNote p ∧ p ≤ 100 ∧ (0 ≤ n → 0 ≤ p)) := by
  intro r s₀ ls
  refine ⟨fun duration ls => ⟨fun y hy => ?_, Engine.pairwise_sharesOf orderly duration⟩,
    fun j found rendering => ?_⟩
  · obtain ⟨n, hn, x, time, share⟩ := Engine.mem_sharesOf hy
    have hle := Engine.share_le_one share
    refine ⟨hle, n, hn, fun nonneg => ?_, fun nonpos =>
      Engine.share_le_zero_of_nonpos orderly nonpos time share⟩
    have hzero := Engine.zero_le_share_of_nonneg orderly nonneg time share
    exact ⟨hzero, Engine.exists_percent orderly hzero hle⟩
  · have tabled := tabled_run setup root files events
    have hrounding : (s₀.run events).rounding = r := congrArg (fun u => u.compiler.rounding)
      ((tabled_begin setup root files).setup_run events)
    obtain ⟨t, plan, task, carries⟩ := tabled.exists_plan_of_rendering found rendering
    have hbegin : s₀.Shows id [] := Shows.of_finished rfl
    have hshows : (s₀.run events).Shows id ls := hbegin.run (tabled_begin setup root files) events
    obtain ⟨note, hstage, hnote⟩ := hshows t plan j task carries found (by rw [rendering]; rfl)
    rw [hrounding] at hnote
    exact ⟨t, plan, note, task, carries, hstage, hnote, hnote.bounded orderly⟩

namespace Sample

/-- Half of the film is encoded. -/
def halfway : List Event :=
  encoding ++ [.wrote (jobId 1) "out_time_us=2000000\n".toUTF8.toList []]

end Sample

theorem progress_bounded_sample :
    Rounding.binary64.Orderly ∧ ∃ j, (Sample.service.run Sample.halfway).store.find? (jobId 1) =
      some j ∧ j.state = .rendering ∧ j.stage = some "Encoding (50%)" ∧
      ∃ t plan, (Sample.service.run Sample.halfway).task? (jobId 1) = some t ∧
        t.phase.plan? = some plan ∧ IsNote .binary64 plan.duration
          (Sample.service.heard (jobId 1) Sample.halfway) "Encoding (50%)" := by
  have hrecord : ((Sample.service.run Sample.halfway).store.find? (jobId 1)).map
      (fun j => (j.state, j.stage)) = some (.rendering, some "Encoding (50%)") := by decide +kernel
  obtain ⟨j, found, hj⟩ := Option.map_eq_some_iff.mp hrecord
  obtain ⟨rendering, stage⟩ := Prod.mk.inj hj
  obtain ⟨-, hnotes⟩ := progress_bounded Sample.setup ["work"] Sample.workRoot Sample.halfway
    (jobId 1) Rounding.binary64_orderly
  obtain ⟨t, plan, note, task, carries, hstage, hnote, -⟩ := hnotes j found rendering
  obtain rfl := Option.some.inj (stage.symm.trans hstage)
  exact ⟨Rounding.binary64_orderly, j, found, rendering, stage, t, plan, task, carries, hnote⟩

/-- Nothing keeps the percentage from being negative. -/
theorem negative_percentage :
    Engine.sharesOf .binary64 (.finite 4) ["out_time_us=-2000000".toUTF8.toList] =
        [.finite (-1 / 2)] ∧
      ((Sample.service.run (Sample.encoding ++ [.wrote (jobId 1)
        "out_time_us=-2000000\n".toUTF8.toList []])).store.find? (jobId 1)).map
          (fun j => (j.state, j.stage)) = some (.rendering, some "Encoding (-50%)") := by
  constructor <;> decide +kernel

end Montage
