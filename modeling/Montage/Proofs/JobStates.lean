import Montage.Proofs.JobPlaces

/-! # The states that a job goes through

An event advances a job by one state at most (`state_step`), and no event but a submission puts a
job into its first state.  So a job that has come to a state has been in all states before it
(`exists_before`), and a job that is gone does not come back (`Service.IsGone.run`).
-/
namespace Montage

open Service

/-- The state to which the work on a job leads next. -/
def JobState.next? : JobState → Option JobState
  | queued => some .downloading
  | downloading => some .rendering
  | rendering => some .completed
  | completed | failed => none

namespace JobState
variable {a b c : JobState}

theorem canMoveTo_of_next? (h : a.next? = some b) : a.canMoveTo b = true := by
  cases a <;> cases h <;> rfl

theorem eq_of_next? (h : a.next? = some c) (h' : b.next? = some c) : a = b := by
  cases a <;> cases b <;> cases h <;> cases h' <;> rfl

theorem isFinal_of_next? (h : a.next? = some b) : a.isFinal = false := by
  cases a <;> cases h <;> rfl

/-- A state is that of before, or an open job has failed. -/
def Stays (a b : JobState) : Prop := b = a ∨ a.isFinal = false ∧ b = .failed

theorem Stays.trans (h : a.Stays b) (h' : b.Stays c) : a.Stays c := by
  rcases h with rfl | ⟨hopen, rfl⟩
  · exact h'
  · rcases h' with rfl | ⟨hfailed, -⟩
    · exact Or.inr ⟨hopen, rfl⟩
    · cases hfailed

/-- A job that has moved on may fail then. -/
theorem Stays.after_next (h : b.Stays c) (next : a.next? = some b) :
    a.Stays c ∨ a.next? = some c := by
  rcases h with rfl | ⟨-, rfl⟩
  · exact Or.inr next
  · exact Or.inl (Or.inr ⟨isFinal_of_next? next, rfl⟩)

/-- Only a job that has not failed meanwhile moves on. -/
theorem Stays.next (h : a.Stays b) (next : b.next? = some c) : a.next? = some c := by
  rcases h with rfl | ⟨-, rfl⟩
  · exact next
  · cases next

end JobState

/-- A job that is asked to move on does so, or stays where it is. -/
theorem Store.state_of_transition {store : Store} {r : Rounding} {id : JobId} {state : JobState}
    {error stage : Option String} {now : Number} {j' : Job}
    (h : (store.transition r id state error stage now).2.find? id = some j') :
    ∃ j, store.find? id = some j ∧
      j'.state = if j.state.canMoveTo state then state else j.state := by
  rw [Store.find?_transition] at h
  obtain ⟨j, hj, rfl⟩ := Option.map_eq_some_iff.mp h
  exact ⟨j, hj, by rw [if_pos rfl, Store.state_moved]⟩

theorem Service.state_of_leftStore {store : Store} {r : Rounding} {now : Number} {id : JobId}
    {failure : Option String} {j' : Job}
    (h : (leftStore store r now id failure).find? id = some j') :
    ∃ j, store.find? id = some j ∧ j.state.Stays j'.state := by
  cases failure with
  | none => exact ⟨j', h, Or.inl rfl⟩
  | some m =>
    obtain ⟨j, hj, hstate⟩ := Store.state_of_transition h
    refine ⟨j, hj, ?_⟩
    rw [hstate]
    split
    · rename_i hmove
      rw [JobState.canMoveTo, Bool.and_eq_true, Bool.not_eq_true'] at hmove
      exact Or.inr ⟨hmove.1, rfl⟩
    · exact Or.inl rfl

section Moves
variable {s s' : Service} {id : JobId} {j' : Job}

theorem Quiet.state (move : Quiet id s s') (h : s'.store.find? id = some j') :
    ∃ j, s.store.find? id = some j ∧ j.state.Stays j'.state := by
  cases move with
  | note stage =>
    rw [Service.note, store_setStore, Store.find?_setStage] at h
    obtain ⟨j, hj, rfl⟩ := Option.map_eq_some_iff.mp h
    refine ⟨j, hj, Or.inl ?_⟩
    rw [if_pos rfl, Job.note]
    split <;> rfl
  | resign t task phase told =>
    have hleft : (leftStore s.store s.rounding s.now id (some cancelledMessage)).find? id = some j' := h
    exact state_of_leftStore hleft
  | leave t failure task holds gone killed =>
    rw [leave_eq] at h
    exact state_of_leftStore h
  | _ => exact ⟨j', h, Or.inl rfl⟩

theorem Advance.state (move : Advance id s s') (tabled : s.Tabled)
    (h : s'.store.find? id = some j') :
    ∃ j, s.store.find? id = some j ∧ j.state.next? = some j'.state := by
  have hmoved {state : JobState} {error stage : Option String} {k : Job}
      (hk : (s.store.transition s.rounding id state error stage s.now).2.find? id = some k)
      (hnext : ∀ j, s.store.find? id = some j → j.state.next? = some state) :
      ∃ j, s.store.find? id = some j ∧ j.state.next? = some k.state := by
    obtain ⟨j, hj, hstate⟩ := Store.state_of_transition hk
    refine ⟨j, hj, ?_⟩
    rw [hstate, if_pos (JobState.canMoveTo_of_next? (hnext j hj)), hnext j hj]
  cases move with
  | begin t slots task awake slot =>
    refine hmoved h fun j hj => ?_
    rw [tabled.state id t j task hj]
    rcases slot with ⟨phase, -⟩ | ⟨phase, -⟩ <;> rw [phase] <;> rfl
  | render t plan task phase =>
    refine hmoved h fun j hj => ?_
    rw [tabled.state id t j task hj, phase]
    rfl
  | complete t plan watch failure task phase exited size =>
    rw [leave_eq] at h
    obtain ⟨k, hk, hstays⟩ := state_of_leftStore h
    obtain ⟨j, hj, hnext⟩ := hmoved hk fun j hj => by
      rw [tabled.state id t j task hj, phase]
      rfl
    refine ⟨j, hj, ?_⟩
    have hcompleted : k.state = .completed := by
      rw [tabled.state id t j task hj, phase] at hnext
      exact (Option.some.inj hnext).symm
    rcases hstays with hsame | ⟨hopen, -⟩
    · rwa [hsame]
    · rw [hcompleted] at hopen
      cases hopen

/-- **The moves with which a task answers an event lead a job at most one state on.** -/
theorem Moves.state {b : Bool} (moves : Moves id s b s') (tabled : s.Tabled)
    (h : s'.store.find? id = some j') : ∃ j, s.store.find? id = some j ∧
      (j.state.Stays j'.state ∨ b = true ∧ j.state.next? = some j'.state) := by
  have hchain : s'.Tabled ∧ ∀ j', s'.store.find? id = some j' → ∃ j, s.store.find? id = some j ∧
      (j.state.Stays j'.state ∨ b = true ∧ j.state.next? = some j'.state) := by
    clear h
    induction moves with
    | refl => exact ⟨tabled, fun j hj => ⟨j, hj, Or.inl (Or.inl rfl)⟩⟩
    | quiet before move ih =>
      refine ⟨ih.1.quiet move, fun j'' hj'' => ?_⟩
      obtain ⟨j', hj', hstays⟩ := move.state hj''
      obtain ⟨j, hj, hbefore | ⟨hb, hnext⟩⟩ := ih.2 j' hj'
      · exact ⟨j, hj, Or.inl (hbefore.trans hstays)⟩
      · exact ⟨j, hj, (hstays.after_next hnext).imp_right fun h => ⟨hb, h⟩⟩
    | advance before move ih =>
      refine ⟨ih.1.advance move, fun j'' hj'' => ?_⟩
      obtain ⟨j', hj', hnext⟩ := move.state ih.1 hj''
      obtain ⟨j, hj, hbefore | ⟨hb, -⟩⟩ := ih.2 j' hj'
      · exact ⟨j, hj, Or.inr ⟨rfl, hbefore.next hnext⟩⟩
      · cases hb
  exact hchain.2 j' h

end Moves

namespace Service
variable {s : Service} {id : JobId} {j' : Job}

/-- Events of others leave a record alone, if it is not that of the job that was just submitted. -/
theorem record_step_of_other (tabled : s.Tabled) {e : Event} (other : e.job? ≠ some id)
    (h : (s.step e).store.find? id = some j') :
    s.store.find? id = some j' ∨
      id = jobId (s.store.issued + 1) ∧ j' = s.store.newJob s.now s.now := by
  generalize hs' : s.step e = s' at h
  have hcases := step_cases tabled.numbered e
  rw [hs'] at hcases
  cases hcases with
  | job i e b s' about moves =>
    have hne : id ≠ i := fun heq => other (heq ▸ about)
    exact Or.inl ((moves.follows.others id hne).1 ▸ h)
  | submit submission disk s' outcome => exact outcome.record h
  | ask goal s' phase removing move started =>
    exact Or.inl (tabled.numbered.find?_of_sublist move.jobs_sublist h)
  | call e index c s' phase about call move =>
    exact Or.inl (tabled.numbered.find?_of_sublist move.jobs_sublist h)
  | drain | noCall | tick | disk => exact Or.inl h

/-- Only events of a job change its process. -/
theorem process?_step_of_other (tabled : s.Tabled) {e : Event} (other : e.job? ≠ some id) :
    (s.step e).process? id = s.process? id := by
  generalize hs' : s.step e = s'
  have hcases := step_cases tabled.numbered e
  rw [hs'] at hcases
  have hsame {u : Service} (processes : u.processes = s.processes) :
      u.process? id = s.process? id := by rw [process?, processes, process?]
  cases hcases with
  | job i e b s' about moves =>
    have hne : id ≠ i := fun heq => other (heq ▸ about)
    exact (moves.follows.others id hne).2.2
  | submit submission disk s' outcome => exact hsame outcome.frame.2.2.2.2.2.1
  | ask goal s' phase removing move started => exact hsame move.processes
  | call e index c s' phase about call move => exact hsame move.processes
  | drain | noCall | tick | disk => rfl

/-- A task was there before, and was told to stop before if it was, or it is that of the job that was
just submitted. -/
theorem task?_step (tabled : s.Tabled) (e : Event) {t' : Task}
    (ht' : (s.step e).task? id = some t') :
    id = jobId (s.store.issued + 1) ∨
      ∃ t, s.task? id = some t ∧ (t.cancelled = true → t'.cancelled = true) := by
  generalize hs' : s.step e = s' at ht'
  have hcases := step_cases tabled.numbered e
  rw [hs'] at hcases
  cases hcases with
  | job i e b s' about moves =>
    obtain ⟨t, ht, hcancelled, -⟩ := moves.follows.task_any ht'
    exact Or.inr ⟨t, ht, fun h => hcancelled.trans h⟩
  | submit submission disk s' outcome =>
    rcases outcome.task ht' with hold | ⟨hid, -⟩
    · exact Or.inr ⟨t', hold, fun h => h⟩
    · exact Or.inl hid
  | ask goal s' phase removing move started =>
    obtain ⟨t, ht, -, htold⟩ := move.task?_eq_some ht'
    exact Or.inr ⟨t, ht, htold⟩
  | call e index c s' phase about call move =>
    obtain ⟨t, ht, -, htold⟩ := move.task?_eq_some ht'
    exact Or.inr ⟨t, ht, htold⟩
  | drain | noCall | tick | disk => exact Or.inr ⟨t', ht', fun h => h⟩

/-- **An event leads a job at most one state on**, unless it is the job that was just submitted. -/
theorem state_step (tabled : s.Tabled) (e : Event) (h : (s.step e).store.find? id = some j') :
    id = jobId (s.store.issued + 1) ∧ j'.state = .queued ∨
      ∃ j, s.store.find? id = some j ∧
        (j.state.Stays j'.state ∨ j.state.next? = some j'.state) := by
  by_cases about : e.job? = some id
  · obtain ⟨b, hmoves⟩ := step_moves about s
    obtain ⟨j, hj, hstate⟩ := hmoves.state tabled h
    exact Or.inr ⟨j, hj, hstate.imp_right And.right⟩
  · rcases record_step_of_other tabled about h with hj | ⟨hid, rfl⟩
    · exact Or.inr ⟨j', hj, Or.inl (Or.inl rfl)⟩
    · exact Or.inl ⟨hid, rfl⟩

/-- **A job that has ended stays as it is** until it is removed. -/
theorem record_step_of_final (tabled : s.Tabled) {j : Job} (hj : s.store.find? id = some j)
    (final : j.state.isFinal = true) (e : Event) (h : (s.step e).store.find? id = some j') :
    j' = j := by
  by_cases about : e.job? = some id
  · obtain ⟨b, hmoves⟩ := step_moves about s
    obtain ⟨k, hk, hkeeps⟩ := hmoves.follows.record j' h
    cases hj.symm.trans hk
    exact hkeeps.final final
  · rcases record_step_of_other tabled about h with hsame | ⟨hid, -⟩
    · exact Option.some.inj (hsame.symm.trans hj)
    · rw [hid, tabled.numbered.find?_next] at hj
      cases hj

/-- The job was there and was removed. -/
def IsGone (s : Service) (id : JobId) : Prop := s.store.Issued id ∧ s.store.find? id = none

/-- A job that is gone does not come back. -/
theorem IsGone.step (gone : s.IsGone id) (tabled : s.Tabled) (e : Event) :
    (s.step e).IsGone id := by
  refine ⟨gone.1.mono (issued_step tabled.numbered e),
    Option.eq_none_iff_forall_ne_some.mpr fun j' hj' => ?_⟩
  rcases state_step tabled e hj' with ⟨hid, -⟩ | ⟨j, hj, -⟩
  · obtain ⟨n, hn, rfl⟩ := gone.1
    have := jobId_injective hid
    omega
  · exact nomatch gone.2.symm.trans hj

theorem IsGone.run (gone : s.IsGone id) (tabled : s.Tabled) (events : List Event) :
    (s.run events).IsGone id := by
  induction events generalizing s with
  | nil => exact gone
  | cons e rest ih => exact ih (gone.step tabled e) (tabled.step e)

theorem record_run_of_final (tabled : s.Tabled) {j : Job} (hj : s.store.find? id = some j)
    (final : j.state.isFinal = true) (events : List Event)
    (h : (s.run events).store.find? id = some j') : j' = j := by
  induction events generalizing s with
  | nil => exact Option.some.inj (h.symm.trans hj)
  | cons e rest ih =>
    have htabled := tabled.step e
    cases hnext : (s.step e).store.find? id with
    | some k => exact ih htabled (record_step_of_final tabled hj final e hnext ▸ hnext) h
    | none =>
      obtain ⟨hmem, rfl⟩ := Store.find?_eq_some hj
      have hissued : s.store.Issued j.id := tabled.numbered.issued j hmem
      have hgone : (s.step e).IsGone j.id :=
        ⟨hissued.mono (issued_step tabled.numbered e), hnext⟩
      exact nomatch (hgone.run htabled rest).2.symm.trans h

/-- **No state is skipped**: a job that has come to a state was in the state before it. -/
theorem exists_before (setup : Setup) (root : Path) (files : FileTree) (events : List Event)
    {a : JobState} (h : ((Service.begin setup root files).run events).store.find? id = some j')
    (next : a.next? = some j'.state) : ∃ before after, events = before ++ after ∧
      ∃ j, ((Service.begin setup root files).run before).store.find? id = some j ∧
        j.state = a := by
  induction events using List.reverseRecOn generalizing j' with
  | nil => cases h
  | append_singleton before e ih =>
    have tabled := tabled_run setup root files before
    rw [run_append] at h
    rcases state_step tabled e h with ⟨-, hqueued⟩ | ⟨j, hj, (hsame | ⟨-, hfailed⟩) | hnext⟩
    · rw [hqueued] at next
      cases a <;> cases next
    · obtain ⟨earlier, later, rfl, hearlier⟩ := ih hj (hsame ▸ next)
      exact ⟨earlier, later ++ [e], by simp, hearlier⟩
    · rw [hfailed] at next
      cases a <;> cases next
    · exact ⟨before, [e], rfl, j, hj, JobState.eq_of_next? hnext next⟩

end Service
end Montage
