import Montage.Proofs.TaskFrames

/-! # Draining

From its first step on a call that drains keeps new jobs out, so the tasks that there are then are
all that it has to wait for.  What it still waits for covers every task at any time
(`Call.Drains`), and when it is over there is none left, and never will be.
-/
namespace Montage

open Service

/-- The jobs whose tasks a call waits for. -/
def CallPhase.waited : CallPhase → List JobId
  | cancelling jobs | patient jobs | gathering jobs => jobs
  | clearing _ _ | done _ => []

/-- What is true of a call that drains. -/
structure Call.Drains (s : Service) (c : Call) : Prop where
  closed : s.accepting = false
  covered : ∀ id, (s.task? id).isSome = true → id ∈ c.phase.waited
  /-- It neither tells single tasks to stop nor removes anything. -/
  waits : ∀ ids, c.phase ≠ .cancelling ids

theorem Call.Drains.mono {s s' : Service} {c : Call} (h : c.Drains s)
    (closed : s.accepting = false → s'.accepting = false)
    (tasks : ∀ id, (s'.task? id).isSome = true → (s.task? id).isSome = true) : c.Drains s' :=
  ⟨closed h.closed, fun id hid => h.covered id (tasks id hid), h.waits⟩

/-- A submission that is not taken changes nothing. -/
theorem Submitted.eq_of_closed {s s' : Service} {submission : Submission}
    {answer : Except SubmitFault JobId} (h : Submitted s submission answer s')
    (closed : s.accepting = false) : s' = s := by
  cases h with
  | refused => rfl
  | lost f files whole open' left => exact nomatch closed.symm.trans open'
  | torn run made files open' => exact nomatch closed.symm.trans open'
  | accepted t made files open' => exact nomatch closed.symm.trans open'

namespace Service

/-- All calls that drain keep new jobs out and wait for all tasks. -/
def Drained (s : Service) : Prop := ∀ c ∈ s.calls, c.goal.isDrain = true → c.Drains s

variable {s : Service}

theorem drained_begin (setup : Setup) (root : Path) (files : FileTree) :
    (Service.begin setup root files).Drained :=
  fun _ h => nomatch h

theorem Drained.mono {s' : Service} (h : s.Drained) (calls : s'.calls = s.calls)
    (closed : s.accepting = false → s'.accepting = false)
    (tasks : ∀ id, (s'.task? id).isSome = true → (s.task? id).isSome = true) : s'.Drained :=
  fun c hc draining => (h c (calls ▸ hc) draining).mono closed tasks

/-- A move of a call that drains. -/
theorem drains_callMove {s' : Service} {goal : Goal} {phase phase' : CallPhase}
    (h : (Call.mk goal phase).Drains s) (move : CallMove s goal phase s' phase') :
    (Call.mk goal phase').Drains s' := by
  have htasks := move.isSome_task?
  have hafter : (Call.mk goal phase).Drains s' :=
    h.mono (fun closed => move.sameFrame.accepting.trans closed) fun id hid => htasks id ▸ hid
  cases move with
  | idle => exact h
  | tell finished id rest t ended task => exact absurd rfl (h.waits _)
  | remove finished trash store removing ended detached => exact absurd rfl (h.waits _)
  | refuse finished f store removing ended detached => exact absurd rfl (h.waits _)
  | astray finished draining => exact absurd rfl (h.waits _)
  | clear p rest removed => exact ⟨hafter.closed, hafter.covered, fun _ => nofun⟩
  | cleared removed => exact ⟨hafter.closed, hafter.covered, fun _ => nofun⟩
  | drained _ jobs waiting ended =>
    refine ⟨h.closed, fun id hid => ?_, fun _ => nofun⟩
    -- it waits for a task that is not there any more
    have hjobs : id ∈ jobs := by
      have := h.covered id hid
      rcases waiting with rfl | rfl <;> exact this
    exact absurd hid (List.any_eq_false.mp ended id hjobs)
  | lose jobs live left settled =>
    refine ⟨hafter.closed, fun id hid => ?_, fun _ => nofun⟩
    have hbefore : (s.task? id).isSome = true := htasks id ▸ hid
    change id ∈ live
    rw [left]
    exact List.mem_filter.mpr ⟨h.covered id hbefore, hbefore⟩

/-- **Every event leaves the calls that drain in their place.** -/
theorem Drained.step (h : s.Drained) (tabled : s.Tabled) (e : Event) : (s.step e).Drained := by
  generalize hs' : s.step e = s'
  have hcases := step_cases tabled.numbered e
  rw [hs'] at hcases
  cases hcases with
  | job id e b s' about moves =>
    refine h.mono moves.sameFrame.calls (fun closed => moves.sameFrame.accepting.trans closed) ?_
    intro other hother
    obtain ⟨t', ht'⟩ := Option.isSome_iff_exists.mp hother
    obtain ⟨t, ht, -⟩ := moves.follows.task_any ht'
    exact Option.isSome_iff_exists.mpr ⟨t, ht⟩
  | submit submission disk s' outcome =>
    intro c hc draining
    have hbefore := h c (outcome.frame.2.1 ▸ hc) draining
    rwa [outcome.eq_of_closed hbefore.closed]
  | ask goal s' phase removing move started =>
    intro c hc draining
    rcases List.mem_append.mp hc with hc | hc
    · exact (h c hc draining).mono (fun closed => move.sameFrame.accepting.trans closed)
        fun id hid => move.isSome_task? id ▸ hid
    · rw [List.mem_singleton.mp hc, removing] at draining
      cases draining
  | drain patience phase waiting =>
    intro c hc draining
    rcases List.mem_append.mp hc with hc | hc
    · exact (h c hc draining).mono (fun _ => rfl) fun id hid => hid
    · rw [List.mem_singleton.mp hc]
      refine ⟨rfl, fun id hid => ?_, fun ids => ?_⟩
      · obtain ⟨t, ht, rfl⟩ := task?_isSome.mp hid
        rcases waiting with ⟨hnone, -⟩ | rfl
        · exact nomatch (hnone ▸ ht : t ∈ [])
        · exact List.mem_map_of_mem ht
      · rcases waiting with ⟨-, rfl⟩ | rfl <;> exact nofun
  | call e index c s' phase about call move =>
    intro c' hc' draining
    rcases List.mem_or_eq_of_mem_set hc' with hc' | rfl
    · exact (h c' hc' draining).mono (fun closed => move.sameFrame.accepting.trans closed)
        fun id hid => move.isSome_task? id ▸ hid
    · have hmoved := drains_callMove (h c (List.mem_of_getElem? call) draining) move
      exact ⟨hmoved.closed, hmoved.covered, hmoved.waits⟩
  | noCall => exact h
  | tick seconds => exact h.mono rfl (fun closed => closed) fun _ hid => hid
  | disk files => exact h.mono rfl (fun closed => closed) fun _ hid => hid

theorem Drained.run (h : s.Drained) (tabled : s.Tabled) (events : List Event) :
    (s.run events).Drained := by
  induction events generalizing s with
  | nil => exact h
  | cons e rest ih => exact ih (h.step tabled e) (tabled.step e)

/-- A call that drains and is over has left no task, and no job is taken any more. -/
theorem Drained.finished (h : s.Drained) {c : Call} (hc : c ∈ s.calls)
    (draining : c.goal.isDrain = true) (finished : c.isMidway = false) :
    s.tasks = [] ∧ s.accepting = false := by
  have hdrains := h c hc draining
  refine ⟨?_, hdrains.closed⟩
  have hwaited : c.phase.waited = [] := by
    rw [Call.isMidway] at finished
    split at finished
    · rename_i r hphase
      rw [hphase]
      rfl
    · cases finished
  refine List.eq_nil_iff_forall_not_mem.mpr fun t ht => ?_
  have := hdrains.covered t.job (task?_isSome.mpr ⟨t, ht, rfl⟩)
  rw [hwaited] at this
  cases this

/-- Calls that are over stay so. -/
theorem calls_run_of_done (tabled : s.Tabled) (events : List Event) {index : Nat} {goal : Goal}
    {r : Except StoreFault (List JobId)} (h : s.calls[index]? = some ⟨goal, .done r⟩) :
    (s.run events).calls[index]? = some ⟨goal, .done r⟩ := by
  induction events generalizing s with
  | nil => exact h
  | cons e rest ih => exact ih (tabled.step e) (calls_step_of_done tabled.numbered e h)

theorem submit_of_not_accepting (closed : s.accepting = false) (submission : Submission)
    (disk : Option DiskRefusal) : s.submit submission disk = (.error .draining, s) := by
  simp [submit, closed]

end Service
end Montage
