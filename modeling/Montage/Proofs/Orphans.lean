import Montage.Proofs.JobStates
import Montage.Proofs.StreamReading

/-! # Processes that outlive their tasks

While a process of the engine runs, the task of its job stands there and watches it.  A task that was
told to stop kills the process before it is over.  A task that fails because it cannot read on what
the process writes does not: the task is over, and the process runs on as an **orphan**
(`Service.orphanedBy`).  There is no other way to come to a process that nobody watches
(`Attended.run`).
-/
namespace Montage

open Service

namespace Service

/-- The job whose task is over with an event, without having been told to stop, while its process
runs on. -/
def orphanedBy (s : Service) (e : Event) : List JobId :=
  e.job?.toList.filter fun id =>
    (s.task? id).any (fun t => !t.cancelled) && ((s.step e).task? id).isNone &&
      (s.step e).process? id == some .running

/-- The jobs that have left a process behind in a run. -/
def orphaned (s : Service) : List Event → List JobId
  | [] => []
  | e :: rest => s.orphanedBy e ++ (s.step e).orphaned rest

theorem orphaned_append (s : Service) (before after : List Event) :
    s.orphaned (before ++ after) = s.orphaned before ++ (s.run before).orphaned after := by
  induction before generalizing s with
  | nil => rfl
  | cons e rest ih => simp only [List.cons_append, orphaned, ih, run_cons, List.append_assoc]

variable {s : Service} {id : JobId}

theorem mem_orphanedBy {e : Event} {t : Task} (about : e.job? = some id) (task : s.task? id = some t)
    (awake : t.cancelled = false) (finished : (s.step e).task? id = none)
    (running : (s.step e).process? id = some .running) : id ∈ s.orphanedBy e := by
  simp [orphanedBy, about, task, awake, finished, running]

/-- A submission adds a task at most. -/
theorem task?_of_submitted {s' : Service} {submission : Submission}
    {answer : Except SubmitFault JobId} (outcome : Submitted s submission answer s') {t : Task}
    (task : s.task? id = some t) : s'.task? id = some t := by
  cases outcome with
  | refused | lost | torn => exact task
  | accepted =>
    rw [task?, List.find?_append]
    exact congrArg (Option.or · _) task

/-- Events of others leave a task where it stands. -/
theorem task?_step_of_other (tabled : s.Tabled) {e : Event} (other : e.job? ≠ some id) {t : Task}
    (task : s.task? id = some t) :
    ∃ t', (s.step e).task? id = some t' ∧ t'.phase = t.phase := by
  have hcall {u : Service} {goal : Goal} {phase phase' : CallPhase}
      (move : CallMove s goal phase u phase') : ∃ t', u.task? id = some t' ∧ t'.phase = t.phase := by
    have hlive := move.isSome_task? id
    rw [task, Option.isSome_some] at hlive
    obtain ⟨t', ht'⟩ := Option.isSome_iff_exists.mp hlive
    obtain ⟨u, hu, hphase, -⟩ := move.task?_eq_some ht'
    cases task.symm.trans hu
    exact ⟨t', ht', hphase⟩
  generalize hs' : s.step e = s'
  have hcases := step_cases tabled.numbered e
  rw [hs'] at hcases
  cases hcases with
  | job i e b s' about moves =>
    have hne : id ≠ i := fun heq => other (heq ▸ about)
    exact ⟨t, (moves.follows.others id hne).2.1.trans task, rfl⟩
  | submit submission disk s' outcome => exact ⟨t, task?_of_submitted outcome task, rfl⟩
  | ask goal u phase removing move started told => exact hcall (u := u) move
  | call e index c u phase about call move => exact hcall (u := u) move
  | drain | noCall | tick | disk => exact ⟨t, task, rfl⟩

end Service

/-! ### Moves -/

section Moves
variable {id : JobId} {s s' : Service}

/-- The task of a job watches the engine. -/
def Service.IsEncoding (s : Service) (id : JobId) : Prop :=
  ∃ t plan watch, s.task? id = some t ∧ t.phase = .encoding plan watch

/-- A process that runs after a move is watched then, or it ran before.  Then the task stands where it
stood, unless it was not to be found watching, or it is over and nobody has told it to stop. -/
theorem Quiet.process_cases (move : Quiet id s s') (running : s'.process? id = some .running) :
    s'.IsEncoding id ∨ s.process? id = some .running ∧
      (s'.task? id = s.task? id ∨ ∃ t, s.task? id = some t ∧
        ((∀ plan watch, t.phase ≠ .encoding plan watch) ∨
          t.cancelled = false ∧ s'.task? id = none)) := by
  -- a task that stands elsewhere does not watch
  have helsewhere {t : Task} (task : s.task? id = some t) (running : s.process? id = some .running)
      (phase : ∀ plan watch, t.phase ≠ .encoding plan watch) :
      s'.IsEncoding id ∨ s.process? id = some .running ∧
        (s'.task? id = s.task? id ∨ ∃ t, s.task? id = some t ∧
          ((∀ plan watch, t.phase ≠ .encoding plan watch) ∨
            t.cancelled = false ∧ s'.task? id = none)) :=
    Or.inr ⟨running, Or.inr ⟨t, task, Or.inl phase⟩⟩
  cases move with
  | note | write => exact Or.inr ⟨running, Or.inl rfl⟩
  | download t ds index e task phase => exact helsewhere task running (by simp [phase])
  | fetch t j items task phase found targets => exact helsewhere task running (by simp [phase])
  | probe t done left task phase =>
    refine helsewhere task running fun plan watch h => ?_
    rw [h] at phase
    cases phase
  | spawn t plan watch task phase =>
    exact Or.inl ⟨_, plan, watch, task?_setPhase_self task _, rfl⟩
  | watch t plan before after task phase =>
    exact Or.inl ⟨_, plan, after, task?_setPhase_self task _, rfl⟩
  | exit code before => exact nomatch (process?_setProcess_self before).symm.trans running
  | kill before => exact nomatch (process?_setProcess_self before).symm.trans running
  | wait t task phase awake => exact helsewhere task running (by simp [phase])
  | vanish t task phase told => exact helsewhere task running (by simp [phase])
  | resign t task phase told => exact helsewhere task running (by simp [phase])
  | leave t failure task holds gone killed =>
    have hover := task?_leave s id failure
    rw [leave_eq] at running
    have hbefore : s.process? id = some .running := running
    cases told : t.cancelled with
    | false => exact Or.inr ⟨hbefore, Or.inr ⟨t, task, Or.inr ⟨told, hover⟩⟩⟩
    | true => exact helsewhere task hbefore fun plan watch h => killed plan watch h told hbefore

/-- The same of a move that advances the job. -/
theorem Advance.process_cases (move : Advance id s s') (running : s'.process? id = some .running) :
    s.process? id = some .running ∧ ∃ t, s.task? id = some t ∧
      ∀ plan watch, t.phase ≠ .encoding plan watch := by
  cases move with
  | begin t slots task awake slot =>
    refine ⟨running, t, task, fun plan watch h => ?_⟩
    rcases slot with ⟨phase, -⟩ | ⟨phase, -⟩ <;> cases h.symm.trans phase
  | render t plan task phase =>
    refine ⟨running, t, task, fun plan watch h => ?_⟩
    rw [h] at phase
    cases phase
  | complete t plan watch failure task phase exited size =>
    rw [leave_eq] at running
    exact nomatch exited.symm.trans (running : s.process? id = some .running)

/-- **The moves with which a task answers an event leave a process alone only if the task fails**
without having been told to stop. -/
theorem Moves.process_cases {b : Bool} (moves : Moves id s b s')
    (running : s'.process? id = some .running) :
    s'.IsEncoding id ∨ s.process? id = some .running ∧ ¬ s.IsEncoding id ∨
      s'.task? id = none ∧ ∃ t, s.task? id = some t ∧ t.cancelled = false := by
  have hchain : Follows id s s' ∧ (s'.process? id = some .running →
      s'.IsEncoding id ∨ s.process? id = some .running ∧ ¬ s.IsEncoding id ∨
        s'.task? id = none ∧ ∃ t, s.task? id = some t ∧ t.cancelled = false) := by
    clear running
    refine moves.preserves (P := fun u => Follows id s u ∧ (u.process? id = some .running →
      u.IsEncoding id ∨ s.process? id = some .running ∧ ¬ s.IsEncoding id ∨
        u.task? id = none ∧ ∃ t, s.task? id = some t ∧ t.cancelled = false)) ?_ ?_
      ⟨Follows.refl id s, fun running => ?_⟩
    · rintro u v ⟨hfollows, hbefore⟩ move
      refine ⟨hfollows.trans move.follows, fun running => ?_⟩
      rcases move.process_cases running with hwatched | ⟨hrunning, hsame | ⟨t, task, hnot | hawake⟩⟩
      · exact Or.inl hwatched
      · have hwatches : u.IsEncoding id → v.IsEncoding id := by
          simp only [IsEncoding, hsame, imp_self]
        exact (hbefore hrunning).imp hwatches (Or.imp_right (And.imp_left hsame.trans))
      · rcases hbefore hrunning with ⟨t', plan, watch, task', phase⟩ | hold | ⟨hnone, -⟩
        · cases task.symm.trans task'
          exact absurd phase (hnot plan watch)
        · exact Or.inr (Or.inl hold)
        · exact nomatch hnone.symm.trans task
      · obtain ⟨t₀, task₀, hcancelled, -⟩ := hfollows.task t task
        exact Or.inr (Or.inr ⟨hawake.2, t₀, task₀, hcancelled.symm.trans hawake.1⟩)
    · rintro u v ⟨hfollows, hbefore⟩ move
      refine ⟨hfollows.trans move.follows, fun running => ?_⟩
      obtain ⟨hrunning, t, task, hnot⟩ := move.process_cases running
      rcases hbefore hrunning with ⟨t', plan, watch, task', phase⟩ | hold | ⟨hnone, -⟩
      · cases task.symm.trans task'
        exact absurd phase (hnot plan watch)
      · exact Or.inr (Or.inl hold)
      · exact nomatch hnone.symm.trans task
    · by_cases hwatched : s.IsEncoding id
      · exact Or.inl hwatched
      · exact Or.inr (Or.inl ⟨running, hwatched⟩)
  exact hchain.2 running

end Moves

/-! ### Runs -/

/-- Every process that runs is watched, or it is an orphan. -/
def Attended (orphans : List JobId) (s : Service) : Prop :=
  ∀ id, s.process? id = some .running → s.IsEncoding id ∨ id ∈ orphans

namespace Attended
variable {orphans : List JobId} {s : Service} {id : JobId}

theorem begin (setup : Setup) (root : Path) (files : FileTree) :
    Attended [] (Service.begin setup root files) := fun _ h => nomatch h

theorem step (h : Attended orphans s) (tabled : s.Tabled) (e : Event) :
    Attended (orphans ++ s.orphanedBy e) (s.step e) := by
  intro id running
  have hold (horphan : id ∈ orphans) :
      (s.step e).IsEncoding id ∨ id ∈ orphans ++ s.orphanedBy e :=
    Or.inr (List.mem_append_left _ horphan)
  by_cases about : e.job? = some id
  · obtain ⟨b, moves⟩ := step_moves about s
    rcases moves.process_cases running with hwatched | ⟨hbefore, hnot⟩ | ⟨hover, t, task, awake⟩
    · exact Or.inl hwatched
    · exact hold ((h id hbefore).resolve_left hnot)
    · exact Or.inr (List.mem_append_right _ (mem_orphanedBy about task awake hover running))
  · rw [process?_step_of_other tabled about] at running
    rcases h id running with ⟨t, plan, watch, task, phase⟩ | horphan
    · obtain ⟨t', task', phase'⟩ := task?_step_of_other tabled about task
      exact Or.inl ⟨t', plan, watch, task', phase'.trans phase⟩
    · exact hold horphan

/-- **Only a task that fails leaves a process behind.** -/
theorem run (h : Attended orphans s) (tabled : s.Tabled) (events : List Event) :
    Attended (orphans ++ s.orphaned events) (s.run events) := by
  induction events generalizing s orphans with
  | nil =>
    rw [Service.orphaned, List.append_nil]
    exact h
  | cons e rest ih =>
    rw [Service.orphaned, ← List.append_assoc]
    exact ih (h.step tabled e) (tabled.step e)

/-- Without a task only an orphan runs. -/
theorem mem_of_running (h : Attended orphans s) (finished : s.task? id = none)
    (running : s.process? id = some .running) : id ∈ orphans := by
  refine (h id running).resolve_left ?_
  rintro ⟨t, plan, watch, task, -⟩
  exact nomatch finished.symm.trans task

end Attended

/-! ### How a process is left behind -/

/-- A line that does not end cannot be read once it is too long. -/
theorem Engine.LineBuffer.take_of_endless {b : LineBuffer} {bytes : List UInt8} {closed : Bool}
    (endless : 10 ∉ b.rest ++ bytes) (long : lineLimit < (b.rest ++ bytes).length) :
    b.take bytes closed = ([], ⟨[]⟩, some .longRest) := by
  have hsplit : Text.splitFeeds (b.rest ++ bytes) = ([], b.rest ++ bytes) :=
    Text.splitFeedsFrom_of_not_mem endless
  simp only [take, hsplit, withinLimit, long, if_true]

/-- Nothing is read of a process that writes such a line to the stream of diagnostics. -/
theorem Engine.Watch.take_of_endless {w : Watch} {r : Rounding} {errors : List UInt8}
    (quiet : w.output.rest = []) (endless : 10 ∉ w.errors.rest ++ errors)
    (long : lineLimit < (w.errors.rest ++ errors).length) :
    (w.take r true ⟨[], errors, false⟩).times = [] ∧
      (w.take r true ⟨[], errors, false⟩).fault? = some .longRest := by
  obtain ⟨⟨rest⟩, diagnostics, tail⟩ := w
  obtain rfl : rest = [] := quiet
  have hnothing : (⟨[]⟩ : LineBuffer).take [] false = ([], ⟨[]⟩, none) := by decide
  simp only [take, LineBuffer.take_of_endless endless long, hnothing, reportedTimes, Reading.fault?]
  exact ⟨rfl, rfl⟩

/-- A task that cannot read on leaves the work, and does nothing about its process. -/
theorem Service.step_wrote_of_fault {s : Service} {id : JobId} {t : Task} {plan : TextPlan}
    {watch : Engine.Watch} {output errors : List UInt8} {f : Engine.ReadFault}
    (task : s.task? id = some t) (awake : t.cancelled = false)
    (phase : t.phase = .encoding plan watch) (running : s.process? id = some .running)
    (silent : (watch.take s.rounding true ⟨output, errors, false⟩).times = [])
    (fault : (watch.take s.rounding true ⟨output, errors, false⟩).fault? = some f) :
    s.step (.wrote id output errors) = s.leave id (some (unforeseen f.message)) := by
  have hlistening : s.listening? id = some t := by
    rw [listening?, task]
    simp [awake]
  have hjob := job_of_task? task
  rw [Engine.Reading.fault?] at fault
  simp only [step, hlistening, phase, running, if_true, takeWritten, readOutput, silent, noteTimes,
    Option.none_or, fault, hjob]

/-- A task whose engine writes a line of diagnostics that does not end leaves the work. -/
theorem Service.step_wrote_of_endless {s : Service} {id : JobId} {t : Task} {plan : TextPlan}
    {watch : Engine.Watch} {errors : List UInt8} (task : s.task? id = some t)
    (awake : t.cancelled = false) (phase : t.phase = .encoding plan watch)
    (running : s.process? id = some .running) (quiet : watch.output.rest = [])
    (endless : 10 ∉ watch.errors.rest ++ errors)
    (long : Engine.lineLimit < (watch.errors.rest ++ errors).length) :
    s.step (.wrote id [] errors) =
      s.leave id (some (unforeseen Engine.ReadFault.longRest.message)) := by
  obtain ⟨hsilent, hfault⟩ := Engine.Watch.take_of_endless (r := s.rounding) quiet endless long
  exact step_wrote_of_fault task awake phase running hsilent hfault

end Montage
