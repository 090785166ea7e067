import Montage.Proofs.Bystanders
import Montage.Proofs.Orphans
import Montage.Proofs.Outputs

/-! # Deleting a job

Any number of clients may delete the same job at the same time.  One of them has the job, the others
are told that it is not there, and each gets its answer.  When the one has its answer nothing is left
of the job (`IsErased`), and nothing comes back; and no other job is touched by all this.

One thing can be left: the process of the engine runs on if the task that watched it failed before,
because it could not read what the process wrote (`orphan_outlives_deletion`).
-/
namespace Montage

open FileTree Service

/-! ### What is left -/

/-- Nothing is left of a job, but a process if the task of the job has left it behind. -/
structure Service.IsErased (s : Service) (orphans : List JobId) (id : JobId) : Prop where
  record : s.store.find? id = none
  task : s.task? id = none
  slot : id ∉ s.holders
  process : s.process? id = some .running → id ∈ orphans
  home : s.store.files.node? (s.store.directory id) = none
  trash : s.store.files.node? (s.store.directory (trashName id)) = none

/-- Without a task a job holds no slot. -/
theorem Service.not_mem_holders {s : Service} {id : JobId} (finished : s.task? id = none) :
    id ∉ s.holders := by
  intro h
  obtain ⟨t, ht, rfl⟩ := List.mem_map.mp h
  have hthere := task?_isSome.mpr ⟨t, (List.mem_filter.mp ht).1, rfl⟩
  rw [finished] at hthere
  cases hthere

/-- A call that is not midway has its answer. -/
theorem Call.exists_of_over {c : Call} (finished : c.isMidway = false) : ∃ r, c.phase = .done r := by
  rw [isMidway] at finished
  split at finished
  · rename_i r h
    exact ⟨r, h⟩
  · cases finished

section Results
variable {s : Service} {id : JobId} {i : Nat} {c : Call}

/-- A deletion that is over has removed the job, or has not found it. -/
theorem Service.Deletes.result (h : s.Deletes False 0 id) (whole : ∀ c ∈ s.calls, c.isBroken = false)
    (hc : s.calls[i]? = some c) (goal : c.goal = .delete id) {r : Except StoreFault (List JobId)}
    (done : c.phase = .done r) : r = .ok [id] ∨ r = .error (.notFound id) := by
  have hdeleting := h i c (Nat.zero_le i) hc goal
  rw [done] at hdeleting
  cases hdeleting with
  | returned finished => exact Or.inl rfl
  | notFound gone => exact Or.inr rfl
  | broken f =>
    have hwhole := whole c (List.mem_of_getElem? hc)
    rw [Call.isBroken, done] at hwhole
    cases hwhole

theorem Service.whole_of_run (tabled : s.Tabled) (events : List Event)
    (whole : ∀ c ∈ (s.run events).calls, c.isBroken = false) :
    ∀ c ∈ s.calls, c.isBroken = false := by
  induction events generalizing s with
  | nil => exact whole
  | cons e rest ih =>
    intro c hc
    have hnext := ih (tabled.step e) whole
    obtain ⟨i, hi⟩ := List.mem_iff_getElem?.mp hc
    by_contra hbroken
    obtain ⟨c', hc', hbroken'⟩ :=
      isBroken_step tabled.numbered e hi (Bool.eq_true_of_not_eq_false hbroken)
    exact nomatch hbroken'.symm.trans (hnext c' (List.mem_of_getElem? hc'))

/-- **One deletion has the job**: if a job that was there is removed by deletions only and those that
were asked for have their answers, then one of them has removed it and the others have not found it.
-/
theorem Service.exists_deletion (tabled : s.Tabled) (removals : s.Removals)
    (deletes : s.Deletes False 0 id) {j : Job} (hj : s.store.find? id = some j)
    {events : List Event} (whole : ∀ c ∈ (s.run events).calls, c.isBroken = false)
    (only : ∀ c ∈ (s.run events).calls, id ∈ c.phase.removed → c.goal = .delete id)
    (later : s.calls.length ≤ i) (hc : (s.run events).calls[i]? = some c)
    (goal : c.goal = .delete id)
    (answered : ∀ c ∈ (s.run events).calls, c.goal = .delete id → ∃ r, c.phase = .done r) :
    ∃ k, (s.run events).calls[k]? = some ⟨.delete id, .done (.ok [id])⟩ ∧
      ∀ (m : Nat) (d : Call), (s.run events).calls[m]? = some d → d.goal = .delete id → m ≠ k →
        d.phase = .done (.error (.notFound id)) := by
  have hdeletes := deletes.run tabled False.elim events
  have hremovals := removals.run tabled events
  have hresult {m : Nat} {d : Call} (hd : (s.run events).calls[m]? = some d)
      (goal : d.goal = .delete id) :
      d = ⟨.delete id, .done (.ok [id])⟩ ∨ d.phase = .done (.error (.notFound id)) := by
    obtain ⟨r, done⟩ := answered d (List.mem_of_getElem? hd) goal
    rcases hdeletes.result whole hd goal done with rfl | rfl
    · obtain ⟨goal', phase⟩ := d
      obtain rfl : goal' = .delete id := goal
      obtain rfl : phase = .done (.ok [id]) := done
      exact Or.inl rfl
    · exact Or.inr done
  obtain ⟨k, hk⟩ : ∃ k : Nat,
      (s.run events).calls[k]? = some ⟨.delete id, .done (.ok [id])⟩ := by
    rcases hresult hc goal with rfl | hnotFound
    · exact ⟨i, hc⟩
    · -- the job is gone, so somebody has removed it
      have hknown : s.Deletes True s.calls.length id := fun i c hi hc =>
        absurd (List.getElem?_eq_some_iff.mp hc).1 (Nat.not_lt.mpr hi)
      obtain ⟨hmem, hid⟩ := Store.find?_eq_some hj
      have hissued : s.store.Issued id := hid ▸ tabled.numbered.issued j hmem
      have hdeleting := hknown.run tabled (fun _ => hissued) events i c later hc goal
      rw [hnotFound] at hdeleting
      cases hdeleting with
      | notFound gone =>
        obtain ⟨k, d, hd, hremoved | hbroken⟩ := isRemoved_run tabled hj events (gone trivial).2
        · have hgoal := only d (List.mem_of_getElem? hd) hremoved
          refine ⟨k, (hresult hd hgoal).elim (fun h => h ▸ hd) fun h => ?_⟩
          rw [h] at hremoved
          cases hremoved
        · exact nomatch hbroken.symm.trans (whole d (List.mem_of_getElem? hd))
  refine ⟨k, hk, fun m d hd goal hne => (hresult hd goal).resolve_left ?_⟩
  rintro rfl
  exact hne (hremovals.once m k _ _ id hd hk (List.mem_singleton_self id)
    (List.mem_singleton_self id))

/-- No call removes a job that is gone. -/
theorem Service.IsGone.removed_before (gone : s.IsGone id) (tabled : s.Tabled) {events : List Event}
    (hc : (s.run events).calls[i]? = some c) (hid : id ∈ c.phase.removed) :
    i < s.calls.length := by
  have hchain : ∃ d, s.calls[i]? = some d ∧ id ∈ d.phase.removed := by
    induction events generalizing s with
    | nil => exact ⟨c, hc, hid⟩
    | cons e rest ih =>
      obtain ⟨d, hd, hid'⟩ := ih (gone.step tabled e) (tabled.step e) hc
      refine (removed_step tabled hd hid').resolve_right ?_
      rintro ⟨-, hthere, -⟩
      rw [gone.2] at hthere
      cases hthere
  obtain ⟨d, hd, -⟩ := hchain
  exact (List.getElem?_eq_some_iff.mp hd).1

/-- A deletion that begins when the job is not there does not find it. -/
theorem Service.not_found_of_missing (tabled : s.Tabled) (removals : s.Removals)
    (deletes : s.Deletes False 0 id) (missing : s.store.find? id = none) {events : List Event}
    (unborn : (s.run events).store.Issued id → s.store.Issued id)
    (whole : ∀ c ∈ (s.run events).calls, c.isBroken = false) (later : s.calls.length ≤ i)
    (hc : (s.run events).calls[i]? = some c) (goal : c.goal = .delete id)
    {r : Except StoreFault (List JobId)} (done : c.phase = .done r) : r = .error (.notFound id) := by
  have hdeletes := deletes.run tabled False.elim events
  refine (hdeletes.result whole hc goal done).resolve_left ?_
  rintro rfl
  have hid : id ∈ c.phase.removed := by
    rw [done]
    exact List.mem_singleton_self id
  have hissued := unborn ((removals.run tabled events).gone i c hc id hid).1
  exact Nat.not_lt.mpr later (IsGone.removed_before ⟨hissued, missing⟩ tabled hc hid)

end Results

/-! ### Who is left alone -/

/-- An event is part of the deletion of a job: a client asks for it, a call that deletes the job moves,
or the task of the job moves that was told to stop. -/
def Service.Deletion (s : Service) (id : JobId) : Event → Prop
  | .asked goal => goal = .delete id
  | .advanced i | .outOfPatience i => ∃ c, s.calls[i]? = some c ∧ c.goal = .delete id
  | .moved job => job = id ∧ ∃ t, s.task? id = some t ∧ t.cancelled = true
  | _ => False

/-- **Deleting a job leaves all other jobs alone.** -/
theorem untouched_deletion {s : Service} {id other : JobId} {e : Event} (plain : ".." ∉ s.store.root)
    (placed : Placed s) (supplied : Supplied s) (deletes : s.Deletes False 0 id)
    (deletion : s.Deletion id e) (issued : s.store.Issued other) (h : other ≠ id) :
    Untouched other s (s.step e) := by
  have hmove {phase phase' : CallPhase} {u : Service} {calls : List Call}
      (move : CallMove s (.delete id) phase u phase')
      (waits : ∀ ids, phase = .cancelling ids → other ∉ ids) (removing : ∀ jobs, phase ≠ .patient jobs)
      (trashed : ∀ q ∈ phase.trash, ∃ i, q = s.store.directory (trashName i)) :
      Untouched other s { u with calls } :=
    move.untouched plain placed issued waits (List.mem_singleton.not.mpr h) removing
      fun q hq => trashed q (List.mem_of_head? hq)
  have hadvance {i : Nat} {c : Call} (hc : s.calls[i]? = some c) (goal : c.goal = .delete id)
      {phase' : CallPhase} {u : Service} {calls : List Call} (move : CallMove s c.goal c.phase u phase') :
      Untouched other s { u with calls } := by
    have hdeleting := deletes i c (Nat.zero_le i) hc goal
    rw [goal] at move
    refine hmove move (fun ids hphase hid => ?_) (fun jobs hphase => ?_) fun q hq => ?_
    · rw [hphase] at hdeleting
      cases hdeleting with
      | cancelling => exact h (List.mem_singleton.mp hid)
    · rw [hphase] at hdeleting
      cases hdeleting
    · obtain ⟨i, -, -, hplace⟩ := placed.trashed c (List.mem_of_getElem? hc) q hq
      exact ⟨i, hplace⟩
  have hcases := step_cases placed.tabled.numbered e
  generalize hs' : s.step e = s' at hcases ⊢
  cases e with
  | asked goal =>
    obtain rfl : goal = .delete id := deletion
    cases hcases with
    | job i e b s' about => cases about
    | ask goal u phase removing move started told =>
      refine hmove move (fun ids hphase hid => ?_) nofun nofun
      cases hphase
      exact h (List.mem_singleton.mp hid)
    | call e index c u phase about => rcases about with about | about <;> cases about
    | noCall => exact .refl other s
  | moved job =>
    obtain ⟨rfl, t, task, told⟩ := deletion
    rw [← hs']
    exact untouched_stop plain placed supplied h task told
  | advanced i | outOfPatience i =>
    obtain ⟨c, hc, goal⟩ := deletion
    cases hcases with
    | job i e b s' about => cases about
    | call e index d u phase about call move =>
      rcases about with about | about <;> cases about
      cases hc.symm.trans call
      exact hadvance hc goal move
    | noCall => exact .refl other s
  | submitted | download | probed | spawned | wrote | produced | exited | raised | strayed | ticked
  | disk => exact deletion.elim

/-! ### All deletions of a job -/

/-- When a call is over that has removed a job without a task, nothing is left of the job. -/
theorem isErased_of_removed {s : Service} {n i : Nat} {orphans removed : List JobId} {goal : Goal}
    (stowed : Stowed n s ∨ Unhoused n s) (whole : ∀ c ∈ s.calls, c.isBroken = false)
    (removals : s.Removals) (attended : Attended orphans s) (finished : s.IsOver (jobId n))
    (hc : s.calls[i]? = some ⟨goal, .done (.ok removed)⟩) (hid : jobId n ∈ removed) :
    s.IsErased orphans (jobId n) := by
  obtain ⟨hhome, htrash⟩ := nothing_of_stowed stowed whole removals hc hid
  exact ⟨(removals.gone i _ hc _ hid).2, finished.2, not_mem_holders finished.2,
    fun running => attended.mem_of_running finished.2 running, hhome, htrash⟩

/-- So it is when the deletion that has the job is over. -/
theorem isErased_of_deleted {s : Service} {n i : Nat} {orphans : List JobId}
    (stowed : Stowed n s ∨ Unhoused n s) (whole : ∀ c ∈ s.calls, c.isBroken = false)
    (removals : s.Removals) (deletes : s.Deletes False 0 (jobId n)) (attended : Attended orphans s)
    (hc : s.calls[i]? = some ⟨.delete (jobId n), .done (.ok [jobId n])⟩) :
    s.IsErased orphans (jobId n) := by
  cases deletes i _ (Nat.zero_le i) hc rfl with
  | returned finished =>
    exact isErased_of_removed stowed whole removals attended finished hc (List.mem_singleton_self _)

/-- **Deletions of a job settle.**  Each comes to its end once the task of the job and the call itself
have had their turns.  Of those of a job that was there one has it, and none of the others finds it;
if the job is not there, none finds it.  When the one is over nothing is left of the job, and nothing
comes back, whatever happens then.  All other jobs are left alone.  This is so if directories can be
moved and others keep away from the two places of the job; and if the task of the job has failed
before and left its process behind, then that process is left. -/
theorem deletions_settle (setup : Setup) (root : Path) (files : FileTree) (n : Nat)
    (before after : List Event) (plain : ".." ∉ root) (home : files.Sane (root ++ [jobId n]))
    (trash : files.Sane (root ++ [trashName (jobId n)]))
    (avoided : Along (fun s e => Avoids (root ++ [jobId n]) s e ∧
      Avoids (root ++ [trashName (jobId n)]) s e) (Service.begin setup root files)
      (before ++ after))
    (whole : ∀ c ∈ ((Service.begin setup root files).run (before ++ after)).calls,
      c.isBroken = false) :
    let id := jobId n
    let s₀ := Service.begin setup root files
    let s := s₀.run before
    let s' := s.run after
    (∀ (i : Nat) (c : Call), s'.calls[i]? = some c → c.goal = .delete id → ∀ more,
      [.moved id, .advanced i, .advanced i, .advanced i].Sublist more →
      ∃ r, (s'.run more).calls[i]? = some ⟨.delete id, .done r⟩) ∧
    (s.store.find? id ≠ none →
      (∀ c ∈ s'.calls, id ∈ c.phase.removed → c.goal = .delete id) →
      (∃ (i : Nat) (c : Call), s.calls.length ≤ i ∧ s'.calls[i]? = some c ∧ c.goal = .delete id) →
      (∀ c ∈ s'.calls, c.goal = .delete id → ∃ r, c.phase = .done r) →
      ∃ k, s'.calls[k]? = some ⟨.delete id, .done (.ok [id])⟩ ∧
        ∀ (i : Nat) (c : Call), s'.calls[i]? = some c → c.goal = .delete id → i ≠ k →
          c.phase = .done (.error (.notFound id))) ∧
    (s.store.find? id = none → (s'.store.Issued id → s.store.Issued id) →
      ∀ (i : Nat) (c : Call) r, s.calls.length ≤ i → s'.calls[i]? = some c →
        c.goal = .delete id → c.phase = .done r → r = .error (.notFound id)) ∧
    (∀ i : Nat, s.calls[i]? = some ⟨.delete id, .done (.ok [id])⟩ →
      s.IsErased (s₀.orphaned before) id ∧ s'.IsErased (s₀.orphaned (before ++ after)) id) ∧
    (∀ e other, s.Deletion id e → s.store.Issued other → other ≠ id →
      Untouched other s (s.step e)) := by
  intro id s₀ s s'
  have hplaced₀ := Placed.begin setup root files
  have hplaced : Placed s := hplaced₀.run before
  have htabled := hplaced.tabled
  have hsupplied : Supplied s := (Supplied.begin setup root files).run hplaced₀ before
  have hremovals₀ := removals_begin setup root files
  have hremovals : s.Removals := hremovals₀.run hplaced₀.tabled before
  have hdeletes₀ : s₀.Deletes False 0 id := fun i c _ hc => nomatch hc
  have hdeletes : s.Deletes False 0 id := hdeletes₀.run hplaced₀.tabled False.elim before
  have hattended := Attended.begin setup root files
  have hroot : s.store.root = root := hplaced₀.tabled.root_run before
  have hrun : s' = s₀.run (before ++ after) := (run_append s₀ before after).symm
  rw [← hrun] at whole
  have hwhole : ∀ c ∈ s.calls, c.isBroken = false := whole_of_run htabled after whole
  refine ⟨fun i c hc goal more turns => ?_, fun there only later answered => ?_,
    fun missing unborn i c r later hc goal done => ?_, fun i hc => ⟨?_, ?_⟩,
    fun e other deletion issued hne => ?_⟩
  · exact deletion_ends (htabled.run after) (hdeletes.run htabled False.elim after) hc goal turns
  · obtain ⟨j, hj⟩ := Option.ne_none_iff_exists'.mp there
    obtain ⟨i, c, hi, hc, goal⟩ := later
    exact exists_deletion htabled hremovals hdeletes hj whole only hi hc goal answered
  · exact not_found_of_missing htabled hremovals hdeletes missing unborn whole later hc goal done
  · have hstowed := stowed_run setup plain home trash (along_append.mp avoided).1
    exact isErased_of_deleted hstowed hwhole hremovals hdeletes
      (hattended.run hplaced₀.tabled before) hc
  · have hstowed := stowed_run setup plain home trash avoided
    have hattended' := hattended.run hplaced₀.tabled (before ++ after)
    rw [← hrun] at hstowed hattended'
    exact isErased_of_deleted hstowed whole (hremovals.run htabled after)
      (hdeletes.run htabled False.elim after) hattended' (calls_run_of_done htabled after hc)
  · exact untouched_deletion (hroot.symm ▸ plain) hplaced hsupplied hdeletes deletion issued hne

namespace Sample

/-- The engine is at work. -/
def encoding : List Event := rendered.take 9

/-- Two clients delete the job then. -/
def race : List Event :=
  [.asked (.delete (jobId 1)), .asked (.delete (jobId 1)), .moved (jobId 1), .advanced 1,
    .advanced 0, .advanced 1, .advanced 1]

/-- A line of diagnostics that does not end. -/
def endlessLine : List UInt8 := List.replicate 65537 120

/-- The engine runs, and has not begun a line on either of its outputs. -/
def isSilent : TaskPhase → Bool
  | .encoding _ watch => watch.output.rest.isEmpty && watch.errors.rest.isEmpty
  | _ => false

theorem step_endlessLine : (service.run encoding).step (.wrote (jobId 1) [] endlessLine) =
    (service.run encoding).leave (jobId 1)
      (some (unforeseen Engine.ReadFault.longRest.message)) := by
  have hwatches : ((service.run encoding).task? (jobId 1)).any
      (fun t => !t.cancelled && isSilent t.phase) = true := by decide +kernel
  obtain ⟨t, task, hwatch⟩ := (Option.any_eq_true _ _).mp hwatches
  obtain ⟨hawake, hwatch⟩ := Bool.and_eq_true_iff.mp hwatch
  cases phase : t.phase with
  | encoding plan watch =>
    rw [phase] at hwatch
    obtain ⟨hquiet, hempty⟩ := Bool.and_eq_true_iff.mp hwatch
    have hline : watch.errors.rest ++ endlessLine = List.replicate 65537 120 := by
      rw [List.isEmpty_iff.mp hempty, List.nil_append, endlessLine]
    refine step_wrote_of_endless task (by simpa using hawake) phase (by decide +kernel)
      (List.isEmpty_iff.mp hquiet) ?_ ?_
    · rw [hline]
      exact fun h => absurd (List.eq_of_mem_replicate h) (by decide)
    · rw [hline, List.length_replicate]
      decide
  | _ =>
    rw [phase] at hwatch
    cases hwatch

end Sample

theorem deletions_settle_sample :
    ∃ k : Nat, (Sample.service.run (Sample.encoding ++ Sample.race)).calls[k]? =
        some ⟨.delete (jobId 1), .done (.ok [jobId 1])⟩ ∧
      (Sample.service.run (Sample.encoding ++ Sample.race)).IsErased [] (jobId 1) := by
  have sane (name : String) : Sample.workRoot.Sane (["work"] ++ [name]) :=
    ⟨by simp [Sample.workRoot], by simp [Sample.workRoot]⟩
  have avoided : Along (fun s e => Avoids (["work"] ++ [jobId 1]) s e ∧
      Avoids (["work"] ++ [trashName (jobId 1)]) s e)
      (Service.begin Sample.setup ["work"] Sample.workRoot) (Sample.encoding ++ Sample.race) := by
    simp [Along, Avoids, Sample.encoding, Sample.rendered, Sample.race]
  -- the race from its beginning on, and what is left at its end
  obtain ⟨-, hone, -⟩ := deletions_settle Sample.setup ["work"] Sample.workRoot 1 Sample.encoding
    Sample.race (by decide) (sane _) (sane _) avoided (by decide +kernel)
  have hthere : ((Sample.service.run Sample.encoding).store.find? (jobId 1)).isSome = true := by
    decide +kernel
  have hnew : (Sample.service.run Sample.encoding).calls.length = 0 := by decide +kernel
  have hasked : (((Sample.service.run Sample.encoding).run Sample.race).calls[0]?).any
      (fun c => c.goal == .delete (jobId 1)) = true := by decide +kernel
  have hover : ∀ c ∈ ((Sample.service.run Sample.encoding).run Sample.race).calls,
      c.isMidway = false := by decide +kernel
  obtain ⟨c, hc, hgoal⟩ := (Option.any_eq_true _ _).mp hasked
  obtain ⟨k, hk, -⟩ := hone (Option.isSome_iff_ne_none.mp hthere) (by decide +kernel)
    ⟨0, c, Nat.le_of_eq hnew, hc, beq_iff_eq.mp hgoal⟩ fun d hd _ => Call.exists_of_over (hover d hd)
  have hrun : (Service.begin Sample.setup ["work"] Sample.workRoot).run
      (Sample.encoding ++ Sample.race) = (Sample.service.run Sample.encoding).run Sample.race :=
    run_append ..
  obtain ⟨-, -, -, herased, -⟩ := deletions_settle Sample.setup ["work"] Sample.workRoot 1
    (Sample.encoding ++ Sample.race) [] (by decide) (sane _) (sane _)
    (by rwa [List.append_nil]) (by decide +kernel)
  refine ⟨k, hrun ▸ hk, ?_⟩
  have horphans : Sample.service.orphaned (Sample.encoding ++ Sample.race) = [] := by
    decide +kernel
  exact horphans ▸ (herased k (hrun ▸ hk)).1

/-- A job is deleted whose task could not read what the engine wrote: the call is over, and the
process runs on. -/
theorem orphan_outlives_deletion :
    let s := Sample.service.run (Sample.encoding ++ [.wrote (jobId 1) [] Sample.endlessLine,
      .asked (.delete (jobId 1)), .advanced 0, .advanced 0])
    (∃ c ∈ s.calls, c.goal = .delete (jobId 1) ∧ c.phase.removed = [jobId 1] ∧
      c.isMidway = false) ∧ s.process? (jobId 1) = some .running := by
  rw [run_append, run_cons, Sample.step_endlessLine]
  decide +kernel

end Montage
