import Montage.Proofs.Deletions

/-! # Sweeps

A sweep removes the jobs that were too old when it began.  It waits for their tasks first, and in the
meantime jobs come, end and are deleted; so it looks a second time which jobs are too old, for the
same moment.  Nobody is lost in between and nobody is hit who is not too old: a job that came later
is younger, and what a job has been there for is written in its record once and for all.

So when a sweep is over no job is left that was too old when it began (`Service.Swept`), each job
that it has removed had no task any more, and all younger jobs are left alone.
-/
namespace Montage

open FileTree Service

/-! ### What is too old -/

namespace Service
variable {s : Service} {id : JobId} {time : Number}

/-- A record after an event was there before, with the same date, or it is that of a new job. -/
theorem keeps_step (tabled : s.Tabled) {e : Event} {j' : Job}
    (h : (s.step e).store.find? id = some j') :
    (∃ j, s.store.find? id = some j ∧ j.Keeps j') ∨ j' = s.store.newJob s.now s.now := by
  by_cases about : e.job? = some id
  · obtain ⟨b, hmoves⟩ := step_moves about s
    exact Or.inl (hmoves.follows.record j' h)
  · rcases record_step_of_other tabled about h with hj | ⟨-, rfl⟩
    · exact Or.inl ⟨j', hj, Job.Keeps.refl j'⟩
    · exact Or.inr rfl

/-- The clock goes forward. -/
theorem le_now_step (tabled : s.Tabled) (clock : Number.le s.now s.now = true) {e : Event}
    (orderly : Orderly s e) : Number.le s.now (s.step e).now = true := by
  generalize hs' : s.step e = s'
  have hcases := step_cases tabled.numbered e
  rw [hs'] at hcases
  cases hcases with
  | job i e b s' about moves => exact moves.sameFrame.now ▸ clock
  | submit submission disk s' outcome => exact outcome.frame.2.2.2.1 ▸ clock
  | ask goal u phase removing move started told => exact move.sameFrame.now ▸ clock
  | call e index c u phase about call move => exact move.sameFrame.now ▸ clock
  | tick seconds => exact orderly
  | drain | noCall | disk => exact clock

/-- The job was too old at a time. -/
def IsExpired (s : Service) (time : Number) (j : Job) : Prop :=
  Store.hasExpired s.rounding s.setup.lifetime time j = true

/-- No job is there that was too old at a time in the past. -/
structure Swept (time : Number) (s : Service) : Prop where
  past : Number.le time s.now = true
  young : ∀ id j, s.store.find? id = some j → ¬ s.IsExpired time j

/-- No job that is too old for a time in the past comes later. -/
theorem Swept.step {torn : List JobId} {calls : List Call} (h : Swept time s)
    (accounted : Accounted torn calls s) {e : Event} (orderly : Orderly s e) :
    Swept time (s.step e) := by
  have tabled := accounted.tabled
  have hsetup := setup_step tabled.numbered e
  refine ⟨Number.le_trans h.past (le_now_step tabled accounted.clock orderly),
    fun id j' hj' => ?_⟩
  rw [IsExpired, rounding, hsetup, ← rounding]
  rcases keeps_step tabled hj' with ⟨j, hj, hkeeps⟩ | rfl
  · have hyoung := h.young id j hj
    rwa [IsExpired, Store.hasExpired, ← hkeeps.since] at hyoung
  · have hyoung : Store.hasExpired s.rounding s.setup.lifetime time
        (s.store.newJob s.now s.now) = false :=
      Store.not_hasExpired accounted.rounding accounted.lifetime h.past
    rw [hyoung]
    exact Bool.false_ne_true

end Service

/-! ### On the way of a sweep -/

/-- Where a sweep stands. -/
inductive Sweeping (time : Number) (s : Service) : CallPhase → Prop where
  | cancelling (ids : List JobId) (past : Number.le time s.now = true) :
      Sweeping time s (.cancelling ids)
  | clearing (trash : List Path) (removed : List JobId) (swept : Swept time s) :
      Sweeping time s (.clearing trash removed)
  | returned (removed : List JobId) (swept : Swept time s) :
      Sweeping time s (.done (.ok removed))
  | broken (f : FileFault) : Sweeping time s (.done (.error (.files f)))

namespace Sweeping
variable {time : Number} {s s' : Service} {phase phase' : CallPhase}

theorem mono (h : Sweeping time s phase)
    (past : Number.le time s.now = true → Number.le time s'.now = true)
    (swept : Swept time s → Swept time s') : Sweeping time s' phase := by
  cases h with
  | cancelling ids hpast => exact .cancelling ids (past hpast)
  | clearing trash removed hswept => exact .clearing trash removed (swept hswept)
  | returned removed hswept => exact .returned removed (swept hswept)
  | broken f => exact .broken f

/-- **A sweep removes all that is too old.** -/
theorem callMove (h : Sweeping time s phase) (numbered : s.store.Numbered)
    (move : CallMove s (.sweep time) phase s' phase') : Sweeping time s' phase' := by
  have hframe := move.sameFrame
  have hmono : Sweeping time s' phase := by
    refine h.mono (fun past => hframe.now.symm ▸ past) fun swept =>
      ⟨hframe.now.symm ▸ swept.past, fun id j hj => ?_⟩
    rw [IsExpired, rounding, hframe.setup]
    exact swept.young id j (numbered.find?_of_sublist move.jobs_sublist hj)
  cases move with
  | idle => exact hmono
  | tell finished id rest t ended task =>
    cases h with
    | cancelling ids past => exact .cancelling _ past
  | remove finished trash store removing ended detached =>
    cases h with
    | cancelling ids past =>
      refine .clearing trash _ ⟨past, fun id j hj hexpired => ?_⟩
      -- what is there still was there before, and it would have been removed
      have hjobs := (Store.detachAll_sublist (s := s.store) ((Goal.sweep time).targets s)).1
      rw [detached] at hjobs
      have hbefore := numbered.find?_of_sublist hjobs hj
      have hid : id ∈ (Goal.sweep time).targets s :=
        (Goal.mem_targets_iff numbered hbefore).mpr hexpired
      cases (Store.find?_of_detachAll_ok detached hid).symm.trans hj
  | refuse finished f store removing ended detached =>
    obtain ⟨hnodup, hthere⟩ := numbered.expired_there s.rounding s.setup.lifetime time
    obtain ⟨g, rfl⟩ := Store.exists_files_of_detachAll_error detached hnodup hthere
    exact .broken g
  | clear q rest removed =>
    cases hmono with
    | clearing trash removed swept => exact .clearing rest removed swept
  | cleared removed =>
    cases hmono with
    | clearing trash removed swept => exact .returned removed swept
  | drained _ jobs waiting ended => rcases waiting with rfl | rfl <;> cases h
  | lose => cases h
  | astray finished draining => cases draining

end Sweeping

/-- The call with a number is a sweep. -/
def Service.SweepsAt (s : Service) (i : Nat) (time : Number) : Prop :=
  ∃ phase, s.calls[i]? = some ⟨.sweep time, phase⟩ ∧ Sweeping time s phase

namespace Service.SweepsAt
variable {torn : List JobId} {s : Service} {i : Nat} {time : Number}

theorem begin (accounted : Accounted torn s.calls s) :
    (s.step (.asked (.sweep s.now))).SweepsAt s.calls.length s.now := by
  generalize hs' : s.step (.asked (.sweep s.now)) = s'
  have hcases := step_cases accounted.tabled.numbered (.asked (.sweep s.now))
  rw [hs'] at hcases
  cases hcases with
  | job i e b s' about => cases about
  | ask goal u phase removing move started told =>
    have hbegun : Sweeping s.now s (.cancelling ((Goal.sweep s.now).marked s)) :=
      .cancelling _ accounted.clock
    have hmoved := hbegun.callMove accounted.tabled.numbered move
    exact ⟨phase, List.getElem?_concat_length, hmoved.mono (fun h => h) fun h => ⟨h.past, h.young⟩⟩
  | call e index c u phase about => rcases about with about | about <;> cases about
  | noCall e index about => rcases about with about | about <;> cases about

theorem step (h : s.SweepsAt i time) (accounted : Accounted torn s.calls s) {e : Event}
    (orderly : Orderly s e) : (s.step e).SweepsAt i time := by
  have tabled := accounted.tabled
  obtain ⟨phase, hc, hsweeping⟩ := h
  obtain ⟨c', hc', -⟩ := exists_call_step tabled.numbered e hc
  cases call_step tabled.numbered hc' with
  | kept before =>
    cases hc.symm.trans before
    refine ⟨phase, hc', hsweeping.mono (fun past => ?_) fun swept => swept.step accounted orderly⟩
    exact Number.le_trans past (le_now_step tabled accounted.clock orderly)
  | moved u phase' about before move after =>
    obtain ⟨goal, phase''⟩ := c'
    cases hc.symm.trans before
    refine ⟨phase'', hc', ?_⟩
    rw [after]
    exact (hsweeping.callMove tabled.numbered move).mono (fun h => h) fun h => ⟨h.past, h.young⟩
  | begun _ _ new | drains _ new =>
    exact absurd new (Nat.ne_of_lt (List.getElem?_eq_some_iff.mp hc).1)

theorem run (h : s.SweepsAt i time) (accounted : Accounted torn s.calls s) {events : List Event}
    (orderly : Along Orderly s events) : (s.run events).SweepsAt i time := by
  induction events generalizing s torn with
  | nil => exact h
  | cons e rest ih => exact ih (h.step accounted orderly.1) (accounted.step orderly.1) orderly.2

end Service.SweepsAt

/-! ### Removing with tasks -/

/-- A call that removes a job has waited for all tasks that it has to wait for. -/
theorem CallMove.detaches {s s' : Service} {goal : Goal} {phase phase' : CallPhase}
    (move : CallMove s goal phase s' phase') {id : JobId} (hid : id ∈ phase'.removed)
    (new : id ∉ phase.removed) : ∃ finished, phase = .cancelling finished ∧
      (∀ k ∈ finished, s.task? k = none) ∧ id ∈ goal.targets s ∧ (s.store.find? id).isSome = true := by
  cases move with
  | remove finished trash store removing ended detached =>
    exact ⟨finished, rfl, ended, hid, Store.isSome_find?_of_detachAll_ok detached hid⟩
  | drained _ jobs waiting ended => cases hid
  | tell | refuse | lose | astray => cases hid
  | idle | clear | cleared => exact absurd hid new

/-- **A job that is removed has no task any more.** -/
theorem Accounted.task?_of_removed {torn : List JobId} {s : Service}
    (h : Accounted torn s.calls s) {e : Event} (orderly : Orderly s e) {i : Nat} {c : Call}
    {id : JobId} (hc : (s.step e).calls[i]? = some c) (hid : id ∈ c.phase.removed)
    (new : ∀ d, s.calls[i]? = some d → id ∉ d.phase.removed) : s.task? id = none := by
  have numbered := h.tabled.numbered
  cases call_step numbered hc with
  | kept before => exact absurd hid (new c before)
  | moved u phase about before move after =>
    obtain ⟨finished, hphase, hended, htarget, hthere⟩ := move.detaches hid (new _ before)
    obtain ⟨j, hj⟩ := Option.isSome_iff_exists.mp hthere
    have hsound := h.sound _ (List.mem_of_getElem? before)
    cases task : s.task? id with
    | none => rfl
    | some t =>
      have hover := hsound.covered finished hphase id t j task hj
        ((Goal.mem_targets_iff numbered hj).mp htarget)
      exact nomatch (hended id hover).symm.trans task
  | begun u about hnew removing move told after =>
    obtain ⟨finished, hphase, hended, htarget, -⟩ := move.detaches hid List.not_mem_nil
    have hmarked : c.goal.marked s = c.goal.targets s := by
      rw [about] at orderly
      cases hgoal : c.goal with
      | forget id => rw [hgoal] at orderly; exact orderly.elim
      | delete | sweep | drain => rfl
    cases hphase
    exact hended id (hmarked.symm ▸ htarget)
  | drains about hnew draining waiting =>
    rcases waiting with hphase | hphase <;> rw [hphase] at hid <;> cases hid

/-- What a call has removed in a run it has removed with one event of the run. -/
theorem exists_removal {s : Service} {events : List Event} {i : Nat} {c : Call} {id : JobId}
    (hc : (s.run events).calls[i]? = some c) (hid : id ∈ c.phase.removed)
    (new : ∀ d, s.calls[i]? = some d → id ∉ d.phase.removed) :
    ∃ before e after, events = before ++ e :: after ∧
      (∀ d, (s.run before).calls[i]? = some d → id ∉ d.phase.removed) ∧
      ∃ d, ((s.run before).step e).calls[i]? = some d ∧ id ∈ d.phase.removed := by
  induction events generalizing s with
  | nil => exact absurd hid (new c hc)
  | cons e rest ih =>
    by_cases hnow : ∃ d, (s.step e).calls[i]? = some d ∧ id ∈ d.phase.removed
    · exact ⟨[], e, rest, rfl, new, hnow⟩
    · obtain ⟨before, e', after, rfl, hnew, hdone⟩ := ih hc fun d hd hid => hnow ⟨d, hd, hid⟩
      exact ⟨e :: before, e', after, rfl, hnew, hdone⟩

/-! ### Who is left alone -/

/-- An event is part of a sweep that has begun: the call moves, or the task for which it waits. -/
def Service.SweepMoves (s : Service) (i : Nat) : Event → Prop
  | .advanced k | .outOfPatience k => k = i
  | .moved id => (∃ goal rest, s.calls[i]? = some ⟨goal, .cancelling (id :: rest)⟩) ∧
      ∃ t, s.task? id = some t ∧ t.cancelled = true
  | _ => False

section Untouched
variable {torn : List JobId} {s : Service} {i : Nat} {time : Number} {id : JobId} {j : Job}

/-- A sweep that begins leaves all jobs alone that are not too old. -/
theorem untouched_sweep_begin (plain : ".." ∉ s.store.root) (placed : Placed s)
    (hj : s.store.find? id = some j) (young : ¬ s.IsExpired time j) :
    Untouched id s (s.step (.asked (.sweep time))) := by
  have hother : id ∉ (Goal.sweep time).targets s :=
    (Goal.mem_targets_iff placed.tabled.numbered hj).not.mpr young
  have hcases := step_cases placed.tabled.numbered (.asked (.sweep time))
  generalize s.step (.asked (.sweep time)) = s' at hcases
  cases hcases with
  | job i e b s' about => cases about
  | ask goal u phase removing move started told =>
    refine move.untouched plain placed (placed.issued_of_find? hj) (fun ids hphase => ?_) hother nofun
      nofun
    cases hphase
    exact hother
  | call e index c u phase about => rcases about with about | about <;> cases about
  | noCall => exact .refl id s

/-- **A sweep leaves all jobs alone that are not too old.** -/
theorem untouched_sweep (plain : ".." ∉ s.store.root) (placed : Placed s) (supplied : Supplied s)
    (accounted : Accounted torn s.calls s) (sweeps : s.SweepsAt i time) {e : Event}
    (part : s.SweepMoves i e) (hj : s.store.find? id = some j) (young : ¬ s.IsExpired time j) :
    Untouched id s (s.step e) := by
  obtain ⟨phase, hc, hsweeping⟩ := sweeps
  have hmem := List.mem_of_getElem? hc
  -- the jobs for which the sweep waits are too old
  have hwaits (ids : List JobId) (hphase : phase = .cancelling ids) : id ∉ ids := fun hid =>
    young ((accounted.sound _ hmem).claimed ids hphase id hid j hj)
  have hcases := step_cases placed.tabled.numbered e
  generalize hs' : s.step e = s' at hcases ⊢
  cases e with
  | advanced k | outOfPatience k =>
    obtain rfl : k = i := part
    cases hcases with
    | job i e b s' about => cases about
    | call e index c u phase' about call move =>
      rcases about with about | about <;> cases about
      cases hc.symm.trans call
      refine move.untouched plain placed (placed.issued_of_find? hj) hwaits
        ((Goal.mem_targets_iff placed.tabled.numbered hj).not.mpr young) (fun jobs hphase => ?_)
        fun q hq => ?_
      · dsimp only at hphase
        rw [hphase] at hsweeping
        cases hsweeping
      · obtain ⟨k, -, -, hplace⟩ := placed.trashed _ hmem q (List.mem_of_head? hq)
        exact ⟨k, hplace⟩
    | noCall => exact .refl id s
  | moved job =>
    obtain ⟨⟨goal, rest, hwaiting⟩, t, task, told⟩ := part
    cases hc.symm.trans hwaiting
    rw [← hs']
    refine untouched_stop plain placed supplied (fun h => ?_) task told
    exact hwaits _ rfl (h ▸ List.mem_cons_self)
  | submitted | asked | download | probed | spawned | wrote | produced | exited | raised | strayed
  | ticked | disk => exact part.elim

end Untouched

/-! ### Sweeps -/

/-- A job is removed with an event: it was there with its directory and nothing worked on it any more,
and neither is there then. -/
structure Service.RemovedBy (s : Service) (orphans : List JobId) (id : JobId) (e : Event) : Prop where
  registered : s.store.find? id ≠ none
  housed : s.store.files.isDirectory (s.store.directory id) = true
  finished : s.task? id = none
  ended : s.process? id = some .running → id ∈ orphans
  removed : (s.step e).store.find? id = none
  away : (s.step e).store.files.node? ((s.step e).store.directory id) = none

section Removed
variable {torn orphans : List JobId} {s : Service} {n i : Nat} {c : Call}

/-- A removal takes a job away that had nothing to work on it, and that was in its directory. -/
theorem removedBy_of_new (placed : Placed s) (accounted : Accounted torn s.calls s) {e : Event}
    (orderly : Orderly s e) (attended : Attended orphans s) (before : Stowed n s ∨ Unhoused n s)
    (after : Stowed n (s.step e) ∨ Unhoused n (s.step e))
    (whole : ∀ c ∈ s.calls, c.isBroken = false) (whole' : ∀ c ∈ (s.step e).calls, c.isBroken = false)
    (hc : (s.step e).calls[i]? = some c) (hid : jobId n ∈ c.phase.removed)
    (new : ∀ d, s.calls[i]? = some d → jobId n ∉ d.phase.removed) :
    s.RemovedBy orphans (jobId n) e := by
  obtain ⟨-, hthere, hgone⟩ := (removed_step placed.tabled hc hid).resolve_left
    fun ⟨d, hd, hold⟩ => new d hd hold
  obtain ⟨j, hj⟩ := Option.isSome_iff_exists.mp hthere
  have hover := accounted.task?_of_removed orderly hc hid new
  refine ⟨by simp [hj], isDirectory_of_stowed before whole placed hj, hover,
    fun running => attended.mem_of_running hover running, hgone.2, ?_⟩
  rcases after with ⟨-, -, hdwelling⟩ | hlost
  · cases hdwelling with
    | unborn new => exact absurd hgone.1 (Store.not_issued_jobId new)
    | housed there => exact absurd there (by simp [hgone.2])
    | aside _ stands => exact stands.home
    | away _ home => exact home
  · cases hlost with
    | lost _ unknown => exact absurd hid (unknown i c hc)
    | broken k d hd broken => exact nomatch broken.symm.trans (whole' d (List.mem_of_getElem? hd))

end Removed

/-- A sweep that is over has removed all that was too old. -/
theorem Service.SweepsAt.result {s : Service} {i : Nat} {time : Number} (h : s.SweepsAt i time)
    (whole : ∀ c ∈ s.calls, c.isBroken = false) {r : Except StoreFault (List JobId)}
    (hc : s.calls[i]? = some ⟨.sweep time, .done r⟩) : ∃ ids, r = .ok ids ∧ Swept time s := by
  obtain ⟨phase, hphase, hsweeping⟩ := h
  cases hc.symm.trans hphase
  cases hsweeping with
  | returned removed swept => exact ⟨removed, rfl, swept⟩
  | broken f => exact nomatch whole _ (List.mem_of_getElem? hc)

/-- **A sweep removes the jobs that were too old when it began, and leaves all others alone.**  When
it is over it has not failed, and no job is there that was too old when it began.  Each job that it
gives had no task any more when it was removed, and nothing is left of it.  No event of the sweep
touches a job that was not too old when the sweep began.  This is so if jobs are kept for some time,
the clock goes forward, directories can be moved, and others keep away from the places of jobs; and if
the task of a job has failed before and left its process behind, then that process is left. -/
theorem sweeps_settle (setup : Setup) (root : Path) (files : FileTree) (before after : List Event)
    (rounding : setup.compiler.rounding.KeepsSign)
    (lifetime : Number.lt (.finite 0) setup.lifetime = true) (plain : ".." ∉ root)
    (sane : ∀ n, files.Sane (root ++ [jobId n]) ∧ files.Sane (root ++ [trashName (jobId n)])) :
    let s₀ := Service.begin setup root files
    let s := s₀.run before
    let time := s.now
    let i := s.calls.length
    let sweep := .asked (.sweep time) :: after
    let s' := s.run sweep
    Along Orderly s₀ (before ++ sweep) →
    (∀ n, Along (fun s e => Avoids (root ++ [jobId n]) s e ∧
      Avoids (root ++ [trashName (jobId n)]) s e) s₀ (before ++ sweep)) →
    (∀ c ∈ s'.calls, c.isBroken = false) →
    (∀ r, s'.calls[i]? = some ⟨.sweep time, .done r⟩ → ∃ ids, r = .ok ids ∧
      (∀ id j, s'.store.find? id = some j → ¬ s'.IsExpired time j) ∧
      ∀ id ∈ ids, (∃ earlier e later, sweep = earlier ++ e :: later ∧
          (s.run earlier).RemovedBy (s₀.orphaned (before ++ earlier)) id e) ∧
        s'.IsErased (s₀.orphaned (before ++ sweep)) id) ∧
    ∀ earlier e later, sweep = earlier ++ e :: later →
      earlier = [] ∨ (s.run earlier).SweepMoves i e →
      ∀ id j, (s.run earlier).store.find? id = some j → ¬ (s.run earlier).IsExpired time j →
        Untouched id (s.run earlier) ((s.run earlier).step e) := by
  intro s₀ s time i sweep s' orderly avoided whole
  -- what is true of the service wherever the run is cut
  have hplaced (events : List Event) : Placed (s.run events) :=
    ((Placed.begin setup root files).run before).run events
  have hsupplied (events : List Event) : Supplied (s.run events) :=
    ((Supplied.begin setup root files).run (Placed.begin setup root files) before).run
      (hplaced []) events
  have htabled₀ := (Placed.begin setup root files).tabled
  have hremovals (events : List Event) : (s.run events).Removals :=
    ((removals_begin setup root files).run htabled₀ before).run (hplaced []).tabled events
  have hattended (events : List Event) :
      Attended (s₀.orphaned (before ++ events)) (s.run events) := by
    rw [orphaned_append]
    exact ((Attended.begin setup root files).run htabled₀ before).run (hplaced []).tabled events
  obtain ⟨horderly₀, horderly⟩ := along_append.mp orderly
  have haccounted := (Accounted.begin setup root files rounding lifetime).run horderly₀
  have hstowed {events rest : List Event} (h : sweep = events ++ rest) (n : Nat) :
      Stowed n (s.run events) ∨ Unhoused n (s.run events) := by
    have havoided := avoided n
    rw [h, ← List.append_assoc] at havoided
    have hrun := stowed_run setup plain (sane n).1 (sane n).2 (along_append.mp havoided).1
    rwa [run_append] at hrun
  have hbegun : (s.step (.asked (.sweep time))).SweepsAt i time := .begin haccounted
  refine ⟨fun r hc => ?_, fun earlier e later hsplit part id j hj young => ?_⟩
  · have hsweeps : s'.SweepsAt i time := hbegun.run (haccounted.step horderly.1) horderly.2
    obtain ⟨ids, rfl, hswept⟩ := hsweeps.result whole hc
    refine ⟨ids, rfl, hswept.young, fun id hid => ?_⟩
    obtain ⟨n, -, rfl⟩ := ((hremovals sweep).gone i _ hc id hid).1
    have hnew (d : Call) (hd : s.calls[i]? = some d) : jobId n ∉ d.phase.removed :=
      absurd (List.getElem?_eq_some_iff.mp hd).1 (Nat.lt_irrefl _)
    obtain ⟨earlier, e, later, hsplit, hnew, d, hd, hidd⟩ := exists_removal hc hid hnew
    -- the event with which the sweep removes the job
    have hrun : s' = ((s.run earlier).step e).run later := by
      rw [← run_cons, ← run_append, ← hsplit]
    have hwhole : ∀ c ∈ ((s.run earlier).step e).calls, c.isBroken = false :=
      whole_of_run ((hplaced earlier).tabled.step e) later (hrun ▸ whole)
    have hcut : Along Orderly s earlier ∧ Along Orderly (s.run earlier) (e :: later) :=
      along_append.mp (hsplit ▸ horderly)
    have hafter := hstowed (hsplit.trans (List.append_cons earlier e later)) n
    rw [run_append] at hafter
    have hremoved := removedBy_of_new (hplaced earlier) (haccounted.run hcut.1) hcut.2.1
      (hattended earlier) (hstowed hsplit n) hafter
      (whole_of_run (hplaced earlier).tabled [e] hwhole) hwhole hd hidd hnew
    refine ⟨⟨earlier, e, later, hsplit, hremoved⟩, ?_⟩
    have hover : (s.run earlier).IsOver (jobId n) := by
      obtain ⟨j, hj⟩ := Option.ne_none_iff_exists'.mp hremoved.registered
      exact ⟨(hplaced earlier).issued_of_find? hj, hremoved.finished⟩
    have hover' := hover.run (hplaced earlier).tabled (e :: later)
    rw [← run_append, ← hsplit] at hover'
    exact isErased_of_removed (hstowed (List.append_nil sweep).symm n) whole (hremovals sweep)
      (hattended sweep) hover' hc hid
  · have hplain (events : List Event) : ".." ∉ (s.run events).store.root := by
      have hroot : s.store.root = root := htabled₀.root_run before
      have hsame : (s.run events).store.root = s.store.root := (hplaced []).tabled.root_run events
      rwa [hsame, hroot]
    cases earlier with
    | nil =>
      obtain ⟨rfl, rfl⟩ := List.cons.inj hsplit
      exact untouched_sweep_begin (hplain []) (hplaced []) hj young
    | cons first earlier =>
      obtain ⟨rfl, rfl⟩ := List.cons.inj hsplit
      have hpart := part.resolve_left (List.cons_ne_nil _ _)
      have hfirst := haccounted.step horderly.1
      obtain ⟨hearlier, -⟩ := along_append.mp horderly.2
      exact untouched_sweep (hplain (_ :: earlier)) (hplaced (_ :: earlier))
        (hsupplied (_ :: earlier)) (hfirst.run hearlier) (hbegun.run hfirst hearlier) hpart hj young

namespace Sample

/-- A job has been at work for an hour when another one comes. -/
def aged : List Event := encoding ++ [.ticked (.finite 3600), .submitted (.timeline film) none]

/-- While the sweep waits for the task of the first job, a third one comes. -/
def tidying : List Event :=
  [.submitted (.timeline film) none, .moved (jobId 1), .advanced 0, .advanced 0, .advanced 0]

end Sample

theorem sweeps_settle_sample :
    let s := Sample.service.run Sample.aged
    let s' := s.run (.asked (.sweep s.now) :: Sample.tidying)
    s'.calls[0]? = some ⟨.sweep s.now, .done (.ok [jobId 1])⟩ ∧ s'.IsErased [] (jobId 1) ∧
      Untouched (jobId 2) s (s.step (.asked (.sweep s.now))) := by
  intro s s'
  have sane (name : String) : Sample.workRoot.Sane (["work"] ++ [name]) :=
    ⟨by simp [Sample.workRoot], by simp [Sample.workRoot]⟩
  obtain ⟨hswept, hleft⟩ := sweeps_settle Sample.setup ["work"] Sample.workRoot Sample.aged
    Sample.tidying Rounding.binary64_keepsSign (by decide +kernel) (by decide)
    (fun n => ⟨sane _, sane _⟩) (by decide +kernel)
    (fun n => by simp [Along, Avoids, Sample.aged, Sample.encoding, Sample.rendered, Sample.tidying])
    (by decide +kernel)
  have hover : (s'.calls[0]?).any (fun c => c.goal == .sweep s.now && !c.isMidway &&
      c.phase.removed == [jobId 1]) = true := by decide +kernel
  obtain ⟨⟨goal, phase⟩, hc, hover⟩ := (Option.any_eq_true _ _).mp hover
  simp only [Bool.and_eq_true_iff, beq_iff_eq] at hover
  obtain ⟨⟨rfl, hdone⟩, hremoved⟩ := hover
  cases phase with
  | cancelling _ | patient _ | gathering _ | clearing _ _ => cases hdone
  | done answer =>
    obtain rfl : answer = .ok [jobId 1] := by
      cases answer with
      | error f => cases hremoved
      | ok ids => exact congrArg Except.ok hremoved
    have hfirst : s.calls.length = 0 := by decide +kernel
    have horphans : Sample.service.orphaned
        (Sample.aged ++ .asked (.sweep s.now) :: Sample.tidying) = [] := by decide +kernel
    have hcall : s'.calls[s.calls.length]? = some ⟨.sweep s.now, .done (.ok [jobId 1])⟩ := by
      rw [hfirst]
      exact hc
    obtain ⟨ids, hids, -, hremoved⟩ := hswept _ hcall
    cases hids
    have herased : s'.IsErased (Sample.service.orphaned
        (Sample.aged ++ .asked (.sweep s.now) :: Sample.tidying)) (jobId 1) :=
      (hremoved (jobId 1) (List.mem_singleton_self _)).2
    rw [horphans] at herased
    refine ⟨hc, herased, ?_⟩
    have hyoung : (s.store.find? (jobId 2)).any (fun j =>
        !Store.hasExpired s.rounding s.setup.lifetime s.now j) = true := by decide +kernel
    obtain ⟨j, hj, hyoung⟩ := (Option.any_eq_true _ _).mp hyoung
    have hyoung : ¬ s.IsExpired s.now j := by simpa [IsExpired] using hyoung
    exact hleft [] _ _ rfl (Or.inl rfl) (jobId 2) j hj hyoung

/-- A job is swept away whose task could not read what the engine wrote: the process runs on. -/
theorem orphan_outlives_sweep :
    let s := Sample.service.run (Sample.encoding ++ [.wrote (jobId 1) [] Sample.endlessLine,
      .ticked (.finite 3600), .asked (.sweep (.finite 3600)), .advanced 0, .advanced 0])
    (∃ c ∈ s.calls, c.goal = .sweep (.finite 3600) ∧ c.phase.removed = [jobId 1] ∧
      c.isMidway = false) ∧ s.process? (jobId 1) = some .running := by
  rw [run_append, run_cons, Sample.step_endlessLine]
  decide +kernel

end Montage
