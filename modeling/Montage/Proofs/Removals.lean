import Montage.Proofs.JobStates
import Montage.Proofs.OpenJobs

/-! # Who removes a job

Calls race for the record of a job: the one that finds it removes it, and for all others the job is
not there any more.  So whatever is gone was removed by one call (`Removals`), unless a directory
made trouble.  A call that deletes a job never ends in another way (`Deleting`), and it does come to
its end: it waits for one task, which was told to stop, and has a few moves of its own to make
(`deletion_ends`).
-/
namespace Montage

open Service

namespace Store
variable {s s' : Store} {id : JobId}

/-- Detaching one job goes wrong if it is not there, or if its directory cannot be moved. -/
theorem detachAll_one_error {f : StoreFault} (h : s.detachAll [id] = (.error f, s')) :
    f = .notFound id ∧ s' = s ∧ s.find? id = none ∨ ∃ g, f = .files g := by
  rcases detach_cases s id with ⟨hnone, heq⟩ | ⟨j, -, ⟨-, heq⟩ | ⟨-, ⟨g, -, heq⟩ | ⟨files, -, heq⟩⟩⟩ <;>
    simp only [detachAll, heq] at h <;> cases h
  · exact Or.inl ⟨rfl, rfl, hnone⟩
  · exact Or.inr ⟨g, rfl⟩

theorem detachAll_one_ok {trash : List Path} (h : s.detachAll [id] = (.ok trash, s')) :
    trash.length ≤ 1 := by
  rcases detach_cases s id with ⟨-, heq⟩ | ⟨j, -, ⟨-, heq⟩ | ⟨-, ⟨g, -, heq⟩ | ⟨files, -, heq⟩⟩⟩ <;>
    simp only [detachAll, heq] at h <;> cases h
  · exact Nat.zero_le 1
  · exact Nat.le_refl 1

end Store

/-! ### One call for each job -/

/-- A call has removed the same jobs after a move, or it has just detached those that it is to remove.
-/
theorem CallMove.removed_cases {s s' : Service} {goal : Goal} {phase phase' : CallPhase}
    (move : CallMove s goal phase s' phase') :
    phase'.removed = phase.removed ∨ ∃ trash store,
      s.store.detachAll (goal.targets s) = (.ok trash, store) ∧ s' = s.setStore store ∧
        phase.removed = [] ∧ phase'.removed = goal.targets s := by
  cases move with
  | remove finished trash store removing ended detached =>
    exact Or.inr ⟨trash, store, detached, rfl, rfl, rfl⟩
  | drained _ jobs waiting ended =>
    rcases waiting with rfl | rfl <;> exact Or.inl rfl
  | _ => exact Or.inl rfl

namespace Service
variable {s : Service}

/-- What calls have removed is gone, and each job was removed by one call. -/
structure Removals (s : Service) : Prop where
  gone : ∀ (i : Nat) (c : Call), s.calls[i]? = some c → ∀ id ∈ c.phase.removed, s.IsGone id
  once : ∀ (i j : Nat) (c d : Call) (id : JobId), s.calls[i]? = some c → s.calls[j]? = some d →
    id ∈ c.phase.removed → id ∈ d.phase.removed → i = j

/-- The call that an event is about. -/
def aboutCall? (s : Service) : Event → Option Nat
  | .advanced i | .outOfPatience i => some i
  | .asked _ => some s.calls.length
  | _ => none

/-- What a call detaches was there and is gone. -/
theorem isGone_of_detachAll (tabled : s.Tabled) {ids : List JobId} {trash : List Path}
    {store : Store} (detached : s.store.detachAll ids = (.ok trash, store)) {id : JobId}
    (hid : id ∈ ids) : (s.store.find? id).isSome = true ∧ (s.setStore store).IsGone id := by
  have hthere := Store.isSome_find?_of_detachAll_ok detached hid
  obtain ⟨j, hj⟩ := Option.isSome_iff_exists.mp hthere
  obtain ⟨hmem, rfl⟩ := Store.find?_eq_some hj
  have hissued : s.store.Issued j.id := tabled.numbered.issued j hmem
  refine ⟨hthere, hissued.mono ?_, Store.find?_of_detachAll_ok detached hid⟩
  have := (Store.detachAll_sublist (s := s.store) ids).2
  rw [detached] at this
  exact Nat.le_of_eq this.symm

/-- What a call has removed after an event it had removed before, or it removes it now. -/
theorem removed_step (tabled : s.Tabled) {e : Event} {i : Nat} {c : Call} {id : JobId}
    (hc : (s.step e).calls[i]? = some c) (hid : id ∈ c.phase.removed) :
    (∃ d, s.calls[i]? = some d ∧ id ∈ d.phase.removed) ∨
      s.aboutCall? e = some i ∧ (s.store.find? id).isSome = true ∧ (s.step e).IsGone id := by
  have hnew {phase : CallPhase} {u : Service} {calls : List Call}
      (move : CallMove s c.goal phase u c.phase) (hs' : s.step e = { u with calls }) :
      id ∈ phase.removed ∨ (s.store.find? id).isSome = true ∧ (s.step e).IsGone id := by
    rcases move.removed_cases with hsame | ⟨trash, store, hdetached, rfl, -, hremoved⟩
    · exact Or.inl (hsame ▸ hid)
    · rw [hs']
      exact Or.inr (isGone_of_detachAll tabled hdetached (hremoved ▸ hid))
  cases call_step tabled.numbered hc with
  | kept before => exact Or.inl ⟨c, before, hid⟩
  | moved u phase about before move after =>
    rcases hnew move after with hold | hnew
    · exact Or.inl ⟨_, before, hold⟩
    · rcases about with rfl | rfl <;> exact Or.inr ⟨rfl, hnew⟩
  | begun u about new removing move told after =>
    rcases hnew move after with hold | hnew
    · cases hold
    · exact Or.inr ⟨by rw [about, new]; rfl, hnew⟩
  | drains about new draining waiting =>
    rcases waiting with waiting | waiting <;> rw [waiting] at hid <;> cases hid

theorem removals_begin (setup : Setup) (root : Path) (files : FileTree) :
    (Service.begin setup root files).Removals :=
  ⟨fun _ _ h => (nomatch h), fun _ _ _ _ _ h => (nomatch h)⟩

/-- **A job that a call has removed is removed by no other one.** -/
theorem Removals.step (h : s.Removals) (tabled : s.Tabled) (e : Event) : (s.step e).Removals where
  gone := fun i c hc id hid => by
    rcases removed_step tabled hc hid with ⟨d, hd, hold⟩ | ⟨-, -, hgone⟩
    · exact (h.gone i d hd id hold).step tabled e
    · exact hgone
  once := fun i j c d id hc hd hid hid' => by
    -- what is removed now was not removed before
    have hnot {i : Nat} {c : Call} (hc : s.calls[i]? = some c) (hid : id ∈ c.phase.removed) :
        (s.store.find? id).isSome = false := by
      rw [(h.gone i c hc id hid).2]
      rfl
    rcases removed_step tabled hc hid with ⟨c', hc', hold⟩ | ⟨hi, hthere, -⟩ <;>
      rcases removed_step tabled hd hid' with ⟨d', hd', hold'⟩ | ⟨hj, hthere', -⟩
    · exact h.once i j c' d' id hc' hd' hold hold'
    · exact nomatch hthere'.symm.trans (hnot hc' hold)
    · exact nomatch hthere.symm.trans (hnot hd' hold')
    · exact Option.some.inj (hi.symm.trans hj)

theorem Removals.run (h : s.Removals) (tabled : s.Tabled) (events : List Event) :
    (s.run events).Removals := by
  induction events generalizing s with
  | nil => exact h
  | cons e rest ih => exact ih (h.step tabled e) (tabled.step e)

/-- A job was removed by a call, or a directory has made trouble. -/
def IsRemoved (s : Service) (id : JobId) : Prop :=
  ∃ (i : Nat) (c : Call), s.calls[i]? = some c ∧ (id ∈ c.phase.removed ∨ c.isBroken = true)

/-- Trouble with a directory is not forgotten. -/
theorem isBroken_step (hnumbered : s.store.Numbered) (e : Event) {i : Nat} {c : Call}
    (hc : s.calls[i]? = some c) (broken : c.isBroken = true) :
    ∃ c', (s.step e).calls[i]? = some c' ∧ c'.isBroken = true := by
  obtain ⟨goal, phase⟩ := c
  unfold Call.isBroken at broken
  split at broken
  · rename_i f hphase
    obtain rfl : phase = .done (.error (.files f)) := hphase
    exact ⟨_, calls_step_of_done hnumbered e hc, rfl⟩
  · cases broken

theorem IsRemoved.step {id : JobId} (h : s.IsRemoved id) (tabled : s.Tabled) (e : Event) :
    (s.step e).IsRemoved id := by
  obtain ⟨i, c, hc, hid | hbroken⟩ := h
  · obtain ⟨c', hc', rfl | ⟨hgoal, u, move⟩⟩ := exists_call_step tabled.numbered e hc
    · exact ⟨i, c', hc', Or.inl hid⟩
    refine ⟨i, c', hc', Or.inl ?_⟩
    rcases move.removed_cases with hsame | ⟨-, -, -, -, hnone, -⟩
    · exact hsame ▸ hid
    · rw [hnone] at hid
      cases hid
  · obtain ⟨c', hc', hbroken'⟩ := isBroken_step tabled.numbered e hc hbroken
    exact ⟨i, c', hc', Or.inr hbroken'⟩

/-- A call that has taken a job from the store knows it, unless a directory has made trouble. -/
theorem removed_of_callMove (hnumbered : s.store.Numbered) {s' : Service} {goal : Goal}
    {phase phase' : CallPhase} (move : CallMove s goal phase s' phase') {id : JobId} {j : Job}
    (hj : s.store.find? id = some j) (gone : s'.store.find? id = none) :
    id ∈ phase'.removed ∨ ∃ f, phase' = .done (.error (.files f)) := by
  have htarget {answer : Except StoreFault (List Path)} {store : Store}
      (detached : s.store.detachAll (goal.targets s) = (answer, store))
      (gone : store.find? id = none) : id ∈ goal.targets s := by
    by_contra hother
    have hkept := Store.find?_detachAll_of_not_mem (s := s.store) hother
    rw [detached] at hkept
    exact nomatch (hkept.symm.trans gone).symm.trans hj
  cases move with
  | remove finished trash store removing ended detached => exact Or.inl (htarget detached gone)
  | refuse finished f store removing ended detached =>
    obtain ⟨hnodup, hthere⟩ := Goal.targets_there hnumbered hj
      ((Goal.mem_targets_iff hnumbered hj).mp (htarget detached gone))
    obtain ⟨g, rfl⟩ := Store.exists_files_of_detachAll_error detached hnodup hthere
    exact Or.inr ⟨g, rfl⟩
  | lose jobs live left settled =>
    rw [store_cancelAll] at gone
    exact nomatch gone.symm.trans hj
  | _ => exact nomatch gone.symm.trans hj

/-- A job that is there stays, or a call removes it. -/
theorem isRemoved_step (tabled : s.Tabled) {e : Event} {id : JobId} {j : Job}
    (hj : s.store.find? id = some j) (gone : (s.step e).store.find? id = none) :
    (s.step e).IsRemoved id := by
  have hmoved {u : Service} {goal : Goal} {phase phase' : CallPhase} {calls : List Call} {i : Nat}
      (move : CallMove s goal phase u phase') (gone : u.store.find? id = none)
      (hc : calls[i]? = some ⟨goal, phase'⟩) : IsRemoved { u with calls } id := by
    refine ⟨i, _, hc, (removed_of_callMove tabled.numbered move hj gone).imp_right ?_⟩
    rintro ⟨f, rfl⟩
    rfl
  have hkept (h : s.store.find? id = none) {P : Prop} : P := nomatch h.symm.trans hj
  generalize hs' : s.step e = s' at gone
  have hcases := step_cases tabled.numbered e
  rw [hs'] at hcases
  cases hcases with
  | job i e b s' about moves => exact hkept (moves.follows.kept_any gone)
  | submit submission disk s' outcome => exact hkept (outcome.kept gone)
  | ask goal s' phase removing move started told =>
    exact hmoved move gone List.getElem?_concat_length
  | call e i c s' phase about call move =>
    exact hmoved move gone (List.getElem?_set_self (List.getElem?_eq_some_iff.mp call).1)
  | drain | noCall | tick | disk => exact hkept gone

theorem isRemoved_run (tabled : s.Tabled) {id : JobId} {j : Job} (hj : s.store.find? id = some j)
    (events : List Event) (gone : (s.run events).store.find? id = none) :
    (s.run events).IsRemoved id := by
  have hchain (rest : List Event) (u : Service) (tabled : u.Tabled) (removed : u.IsRemoved id) :
      (u.run rest).IsRemoved id := by
    induction rest generalizing u with
    | nil => exact removed
    | cons e rest ih => exact ih _ (tabled.step e) (removed.step tabled e)
  induction events generalizing s j with
  | nil => exact nomatch gone.symm.trans hj
  | cons e rest ih =>
    cases hnext : (s.step e).store.find? id with
    | some k => exact ih (tabled.step e) hnext gone
    | none => exact hchain rest _ (tabled.step e) (isRemoved_step tabled hj hnext)

/-! ### Deletions -/

/-- Nothing works on a job, and nothing will. -/
def IsOver (s : Service) (id : JobId) : Prop := s.store.Issued id ∧ s.task? id = none

theorem IsOver.step {id : JobId} (h : s.IsOver id) (tabled : s.Tabled) (e : Event) :
    (s.step e).IsOver id := by
  refine ⟨h.1.mono (issued_step tabled.numbered e),
    Option.eq_none_iff_forall_ne_some.mpr fun t' ht' => ?_⟩
  rcases task?_step tabled e ht' with hid | ⟨t, ht, -⟩
  · obtain ⟨n, hn, rfl⟩ := h.1
    have := jobId_injective hid
    omega
  · exact nomatch h.2.symm.trans ht

theorem IsOver.run {id : JobId} (h : s.IsOver id) (tabled : s.Tabled) (events : List Event) :
    (s.run events).IsOver id := by
  induction events generalizing s with
  | nil => exact h
  | cons e rest ih => exact ih (h.step tabled e) (tabled.step e)

end Service

/-- Where a call stands that deletes a job; `known` says that the job was there when the call began. -/
inductive Deleting (known : Prop) (id : JobId) (s : Service) : CallPhase → Prop where
  | cancelling (issued : s.store.Issued id)
      (told : ∀ t, s.task? id = some t → t.cancelled = true) :
      Deleting known id s (.cancelling [id])
  | clearing (trash : List Path) (few : trash.length ≤ 1) (finished : s.IsOver id) :
      Deleting known id s (.clearing trash [id])
  | returned (finished : s.IsOver id) : Deleting known id s (.done (.ok [id]))
  | notFound (gone : known → s.IsGone id) : Deleting known id s (.done (.error (.notFound id)))
  | broken (f : FileFault) : Deleting known id s (.done (.error (.files f)))

namespace Deleting
variable {known : Prop} {s s' : Service} {id : JobId} {phase phase' : CallPhase}

theorem mono (h : Deleting known id s phase) (issued : s.store.Issued id → s'.store.Issued id)
    (told : s.store.Issued id → (∀ t, s.task? id = some t → t.cancelled = true) →
      ∀ t, s'.task? id = some t → t.cancelled = true)
    (finished : s.IsOver id → s'.IsOver id) (gone : s.IsGone id → s'.IsGone id) :
    Deleting known id s' phase := by
  cases h with
  | cancelling given htold => exact .cancelling (issued given) (told given htold)
  | clearing trash few hover => exact .clearing trash few (finished hover)
  | returned hover => exact .returned (finished hover)
  | notFound hgone => exact .notFound fun h => gone (hgone h)
  | broken f => exact .broken f

/-- Other events leave a call where it stands. -/
theorem step (h : Deleting known id s phase) (tabled : s.Tabled) (e : Event) :
    Deleting known id (s.step e) phase := by
  refine h.mono (fun given => given.mono (issued_step tabled.numbered e)) (fun given told t' ht' => ?_)
    (fun finished => finished.step tabled e) fun gone => gone.step tabled e
  rcases task?_step tabled e ht' with hid | ⟨t, ht, htold⟩
  · obtain ⟨n, hn, rfl⟩ := given
    have := jobId_injective hid
    omega
  · exact htold (told t ht)

theorem of_cancel (issued : s.store.Issued id) :
    Deleting known id (s.cancel id) (.cancelling [id]) := by
  refine .cancelling issued fun t' ht' => ?_
  rw [task?_cancel] at ht'
  obtain ⟨u, -, rfl⟩ := Option.map_eq_some_iff.mp ht'
  rw [if_pos rfl]

/-- A call that begins, or that has waited for its task, tells it to stop, or finds the job or not. -/
theorem of_cancelling (tabled : s.Tabled) (issued : known → s.store.Issued id)
    (move : CallMove s (.delete id) (.cancelling [id]) s' phase')
    (idle : s' = s → phase' = .cancelling [id] → Deleting known id s' (.cancelling [id])) :
    Deleting known id s' phase' := by
  generalize hphase : CallPhase.cancelling [id] = phase at move
  have hover {finished : List JobId} (hphase : CallPhase.cancelling [id] = .cancelling finished)
      (ended : ∀ i ∈ finished, s.task? i = none) : s.task? id = none := by
    cases hphase
    exact ended id (List.mem_singleton_self id)
  cases move with
  | idle => exact hphase ▸ idle rfl hphase.symm
  | tell finished i rest t ended task =>
    obtain ⟨rfl, hone⟩ := (List.append_eq_singleton_iff.mp
      (CallPhase.cancelling.inj hphase).symm).resolve_right fun h => nomatch h.2
    cases hone
    exact of_cancel (tabled.issued id t task)
  | remove finished trash store removing ended detached =>
    have hgone := isGone_of_detachAll tabled detached (List.mem_singleton_self id)
    exact .clearing trash (Store.detachAll_one_ok detached) ⟨hgone.2.1, hover hphase ended⟩
  | refuse finished f store removing ended detached =>
    rcases Store.detachAll_one_error detached with ⟨rfl, rfl, hnone⟩ | ⟨g, rfl⟩
    · exact .notFound fun h => ⟨issued h, hnone⟩
    · exact .broken g
  | drained _ jobs waiting ended => rcases waiting with rfl | rfl <;> cases hphase
  | astray finished draining => cases draining
  | clear | cleared | lose => cases hphase

/-- **A call that deletes a job stays on its way.** -/
theorem callMove (h : Deleting known id s phase) (tabled : s.Tabled)
    (issued : known → s.store.Issued id) (move : CallMove s (.delete id) phase s' phase') :
    Deleting known id s' phase' := by
  have hissued := move.sameFrame.issued
  have hmono : Deleting known id s' phase := by
    refine h.mono (fun given => given.mono (Nat.le_of_eq hissued.symm)) (fun given told t' ht' => ?_)
      (fun finished => ⟨finished.1.mono (Nat.le_of_eq hissued.symm), ?_⟩)
      fun gone => ⟨gone.1.mono (Nat.le_of_eq hissued.symm), ?_⟩
    · obtain ⟨t, ht, -, htold⟩ := move.task?_eq_some ht'
      exact htold (told t ht)
    · rw [← Option.not_isSome_iff_eq_none, move.isSome_task?, finished.2]
      exact Bool.false_ne_true
    · refine Option.eq_none_iff_forall_ne_some.mpr fun j hj => ?_
      exact nomatch gone.2.symm.trans (tabled.numbered.find?_of_sublist move.jobs_sublist hj)
  cases h with
  | cancelling given told => exact of_cancelling tabled issued move fun hs _ => hmono
  | clearing trash few finished =>
    cases move with
    | idle => exact hmono
    | clear p rest => exact .clearing rest (Nat.le_of_succ_le_succ (Nat.le_succ_of_le few)) finished
    | cleared => exact .returned finished
    | drained _ jobs waiting => rcases waiting with h | h <;> cases h
  | returned | notFound | broken => exact move.of_done ▸ hmono

end Deleting

namespace Service

/-- All calls that delete a job are on their way, from one of the calls on. -/
def Deletes (known : Prop) (first : Nat) (id : JobId) (s : Service) : Prop :=
  ∀ (i : Nat) (c : Call), first ≤ i → s.calls[i]? = some c → c.goal = .delete id →
    Deleting known id s c.phase

variable {known : Prop} {first : Nat} {id : JobId} {s : Service}

theorem Deletes.step (h : s.Deletes known first id) (tabled : s.Tabled)
    (issued : known → s.store.Issued id) (e : Event) : (s.step e).Deletes known first id := by
  intro i c hi hc goal
  obtain ⟨goal', phase'⟩ := c
  obtain rfl : goal' = .delete id := goal
  cases call_step tabled.numbered hc with
  | kept before => exact (h i _ hi before rfl).step tabled e
  | moved u phase about before move after =>
    rw [after]
    exact ((h i _ hi before rfl).callMove tabled issued move).mono (fun h => h) (fun _ h => h)
      (fun h => h) fun h => h
  | begun u about new removing move told after =>
    have hbegun : Deleting known id u phase' := by
      refine .of_cancelling tabled issued move fun hu hphase => ?_
      obtain ⟨i, rest, t, hwaiting, task, hu'⟩ := told _ hphase
      cases hwaiting
      exact hu' ▸ .of_cancel (tabled.issued id t task)
    rw [after]
    exact hbegun.mono (fun h => h) (fun _ h => h) (fun h => h) fun h => h
  | drains about new draining waiting => cases draining

theorem Deletes.run (h : s.Deletes known first id) (tabled : s.Tabled)
    (issued : known → s.store.Issued id) (events : List Event) :
    (s.run events).Deletes known first id := by
  induction events generalizing s with
  | nil => exact h
  | cons e rest ih =>
    exact ih (h.step tabled issued e) (tabled.step e)
      fun h => (issued h).mono (issued_step tabled.numbered e)

end Service

/-! ### Deletions come to their end -/

/-- How many moves a call that deletes a job has to make, once the task of the job is over. -/
def CallPhase.toGo : CallPhase → Nat
  | cancelling _ => 3
  | clearing trash _ => trash.length + 1
  | patient _ | gathering _ | done _ => 0

namespace Deleting
variable {known : Prop} {s s' : Service} {id : JobId} {phase phase' : CallPhase}

theorem isDone (h : Deleting known id s phase) (none : phase.toGo = 0) : ∃ r, phase = .done r := by
  cases h with
  | cancelling | clearing => cases none
  | returned | notFound | broken => exact ⟨_, rfl⟩

theorem toGo_le_three (h : Deleting known id s phase) : phase.toGo ≤ 3 := by
  cases h with
  | clearing trash few finished => exact Nat.succ_le_succ (Nat.le_succ_of_le few)
  | cancelling | returned | notFound | broken => simp [CallPhase.toGo]

theorem toGo_le (h : Deleting known id s phase) (move : CallMove s (.delete id) phase s' phase') :
    phase'.toGo ≤ phase.toGo := by
  cases move with
  | remove finished trash store removing ended detached =>
    exact Nat.succ_le_succ (Nat.le_succ_of_le (Store.detachAll_one_ok detached))
  | clear p rest removed => exact Nat.le_succ _
  | lose => cases h
  | _ => first | exact Nat.le_refl _ | exact Nat.zero_le _

/-- A call that has nothing to wait for goes on when it moves. -/
theorem toGo_advance (h : Deleting known id s phase) (finished : s.task? id = none) :
    (s.advance (.delete id) phase).2.toGo ≤ phase.toGo - 1 := by
  cases h with
  | cancelling =>
    rw [advance, finished, Option.isSome_none, if_neg Bool.false_ne_true, cancelNext, remove]
    split
    · exact Nat.zero_le _
    · rename_i trash store detached
      cases trash <;> simp [CallPhase.toGo]
  | clearing trash few _ => cases trash <;> simp [advance, clearNext, CallPhase.toGo]
  | returned | notFound | broken => exact Nat.zero_le _

end Deleting

namespace Service
variable {id : JobId} {s : Service} {i n : Nat}

/-- A call that deletes a job has so many moves to make and nothing to wait for. -/
structure Due (n i : Nat) (id : JobId) (s : Service) : Prop where
  deletes : s.Deletes False 0 id
  call : ∃ phase, s.calls[i]? = some ⟨.delete id, phase⟩ ∧ phase.toGo ≤ n ∧
    (phase.toGo = 0 ∨ s.IsOver id)

theorem Due.step (h : Due n i id s) (tabled : s.Tabled) (e : Event) : Due n i id (s.step e) := by
  obtain ⟨phase, hc, hfew, hover⟩ := h.call
  refine ⟨h.deletes.step tabled False.elim e, ?_⟩
  have hover' : phase.toGo = 0 ∨ (s.step e).IsOver id := hover.imp_right fun h => h.step tabled e
  obtain ⟨⟨goal', phase'⟩, hc', hsame | ⟨hgoal, u, move⟩⟩ := exists_call_step tabled.numbered e hc
  · cases hsame
    exact ⟨phase, hc', hfew, hover'⟩
  · obtain rfl : goal' = .delete id := hgoal
    have hless := (h.deletes i _ (Nat.zero_le i) hc rfl).toGo_le move
    refine ⟨phase', hc', Nat.le_trans hless hfew, hover'.imp_left fun h => ?_⟩
    exact Nat.le_zero.mp (h ▸ hless)

theorem Due.advance (h : Due (n + 1) i id s) (tabled : s.Tabled) :
    Due n i id (s.step (.advanced i)) := by
  obtain ⟨phase, hc, hfew, hover⟩ := h.call
  have hnext := h.step tabled (.advanced i)
  obtain ⟨phase', hc', -, hover'⟩ := hnext.call
  refine ⟨hnext.deletes, phase', hc', ?_, hover'⟩
  have hmove : CallMove s (.delete id) phase _ _ := advance_cases phase
  have hcalls := hmove.sameFrame.calls
  have hphase : phase' = (s.advance (.delete id) phase).2 := by
    rw [Service.step, withCall, hc] at hc'
    rcases heq : s.advance (.delete id) phase with ⟨u, after⟩
    rw [heq] at hcalls
    simp only [heq] at hc'
    rw [hcalls, List.getElem?_set_self (List.getElem?_eq_some_iff.mp hc).1] at hc'
    exact (Call.mk.inj (Option.some.inj hc')).2.symm
  have hdeleting := h.deletes i _ (Nat.zero_le i) hc rfl
  rcases hover with hdone | hover
  · obtain ⟨r, rfl⟩ := hdeleting.isDone hdone
    rw [hphase]
    exact Nat.zero_le n
  · rw [hphase]
    have := hdeleting.toGo_advance hover.2
    dsimp only at this
    omega

theorem Due.ends {more : List Event} (h : Due n i id s) (tabled : s.Tabled)
    (moves : (List.replicate n (.advanced i)).Sublist more) :
    ∃ r, (s.run more).calls[i]? = some ⟨.delete id, .done r⟩ := by
  induction more generalizing s n with
  | nil =>
    obtain ⟨phase, hc, hfew, -⟩ := h.call
    obtain rfl : n = 0 := by simpa using List.sublist_nil.mp moves
    obtain ⟨r, rfl⟩ := (h.deletes i _ (Nat.zero_le i) hc rfl).isDone (Nat.le_zero.mp hfew)
    exact ⟨r, hc⟩
  | cons e rest ih =>
    rcases List.sublist_cons_iff.mp moves with hlater | ⟨less, heq, hrest⟩
    · exact ih (h.step tabled e) (tabled.step e) hlater
    · cases n with
      | zero => cases heq
      | succ n =>
        obtain ⟨rfl, rfl⟩ := List.cons.inj (List.replicate_succ.symm.trans heq)
        exact ih (h.advance tabled) (tabled.step _) hrest

/-- A task that is stopped is over. -/
theorem task?_stop (s : Service) (t : Task) : (s.stop t).task? t.job = none := by
  unfold stop
  split
  · rw [task?_endTask, if_pos rfl]
  · rw [task?_endTask, if_pos rfl]
  all_goals exact task?_leave _ _ _

end Service

/-- The task of a job that is deleted is over when it has had its turn. -/
theorem Deleting.isOver_moved {known : Prop} {s : Service} {id : JobId} {phase : CallPhase}
    (h : Deleting known id s phase) (tabled : s.Tabled) :
    phase.toGo = 0 ∨ (s.step (.moved id)).IsOver id := by
  cases h with
  | cancelling issued told =>
    refine Or.inr ?_
    cases task : s.task? id with
    | none => exact IsOver.step ⟨issued, task⟩ tabled _
    | some t =>
      refine ⟨issued.mono (issued_step tabled.numbered _), ?_⟩
      obtain rfl := job_of_task? task
      simp only [Service.step, task, moveTask, told t task, if_true]
      exact task?_stop s t
  | clearing trash few finished => exact Or.inr (finished.step tabled _)
  | returned finished => exact Or.inr (finished.step tabled _)
  | notFound | broken => exact Or.inl rfl

namespace Service
variable {id : JobId} {s : Service} {i n : Nat}

theorem exists_call_run (tabled : s.Tabled) (events : List Event) {c : Call}
    (hc : s.calls[i]? = some c) : ∃ phase, (s.run events).calls[i]? = some ⟨c.goal, phase⟩ := by
  induction events generalizing s c with
  | nil => exact ⟨c.phase, hc⟩
  | cons e rest ih =>
    obtain ⟨c', hc', hsame⟩ := exists_call_step tabled.numbered e hc
    obtain ⟨phase, hphase⟩ := ih (tabled.step e) hc'
    have hgoal : c'.goal = c.goal := hsame.elim (fun h => h ▸ rfl) And.left
    exact ⟨phase, hgoal ▸ hphase⟩

/-- **A call that deletes a job comes to its end**, whatever else happens, as soon as the task of the
job and then the call three times have had their turn. -/
theorem deletion_ends (tabled : s.Tabled) (deletes : s.Deletes False 0 id) {c : Call}
    (hc : s.calls[i]? = some c) (goal : c.goal = .delete id) {more : List Event}
    (turns : [.moved id, .advanced i, .advanced i, .advanced i].Sublist more) :
    ∃ r, (s.run more).calls[i]? = some ⟨.delete id, .done r⟩ := by
  obtain ⟨first, rest, rfl, hmem, hrest⟩ := List.cons_sublist_iff.mp turns
  obtain ⟨before, after, rfl⟩ := List.append_of_mem hmem
  have htabled := tabled.run before
  have hdeletes := deletes.run tabled False.elim before
  obtain ⟨phase, hphase⟩ := exists_call_run tabled before hc
  rw [goal] at hphase
  have hdeleting := hdeletes i _ (Nat.zero_le i) hphase rfl
  obtain ⟨b, hmoves⟩ := step_moves (e := .moved id) rfl (s.run before)
  have hdue : Due 3 i id ((s.run before).step (.moved id)) :=
    ⟨hdeletes.step htabled False.elim _, phase, hmoves.sameFrame.calls ▸ hphase,
      hdeleting.toGo_le_three, hdeleting.isOver_moved htabled⟩
  rw [List.append_assoc, List.cons_append, run_append, run_cons]
  exact hdue.ends (htabled.step _) (hrest.trans (List.sublist_append_right after rest))

end Service
end Montage
