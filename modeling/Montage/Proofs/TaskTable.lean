import Montage.Proofs.CallMoves
import Montage.Proofs.SlotCounts
import Mathlib.Data.List.Perm.Subperm

/-! # Tasks, jobs and slots

The table of tasks, the records of jobs and the queue for slots speak about the same jobs, and in
all runs they agree (`Tabled`): each task has a job of its own, the state of the job says where its
task stands, who waits in the queue has a task that waits, and the slots that no task works on are
as many as are left.

Each move is preserved by one of two arguments.  Either the task of a job stands somewhere else
afterwards (`Tabled.stand`), or it is over (`Tabled.over`); both say what has to be true of the
record, the queue and the slots then.
-/
namespace Montage

namespace Service

/-- How many tasks work on a slot. -/
def busy (s : Service) : Nat := s.tasks.countP fun t => t.phase.holdsSlot

/-- The tables agree. -/
structure Tabled (s : Service) : Prop where
  numbered : s.store.Numbered
  issued : ∀ id t, s.task? id = some t → ∃ n ≤ s.store.issued, id = jobId n
  unique : (s.tasks.map Task.job).Nodup
  state : ∀ id t j, s.task? id = some t → s.store.find? id = some j → j.state = t.phase.jobState
  /-- A job that is worked on has a task. -/
  working : ∀ id j, s.store.find? id = some j → j.state = .downloading ∨ j.state = .rendering →
    (s.task? id).isSome = true
  apart : s.slots.waiters.Nodup
  waiting : ∀ id ∈ s.slots.waiters, ∃ t, s.task? id = some t ∧ t.phase = .waiting
  conserved : s.slots.spare + s.busy = s.setup.slots

variable {s : Service} {id : JobId} {t : Task}

theorem tabled_begin (setup : Setup) (root : Path) (files : FileTree) :
    (Service.begin setup root files).Tabled where
  numbered := Store.numbered_begin root files
  issued := fun _ _ h => nomatch h
  unique := List.nodup_nil
  state := fun _ _ _ h => nomatch h
  working := fun _ _ h => nomatch h
  apart := List.nodup_nil
  waiting := nofun
  conserved := rfl

/-! ### Counting tasks -/

theorem Tabled.task?_eq_some_iff (h : s.Tabled) :
    s.task? id = some t ↔ t ∈ s.tasks ∧ t.job = id := by
  refine ⟨fun task => ⟨mem_of_task? task, job_of_task? task⟩, ?_⟩
  rintro ⟨hmem, rfl⟩
  obtain ⟨u, task⟩ := Option.isSome_iff_exists.mp (task?_isSome.mpr ⟨t, hmem, rfl⟩)
  rw [task, List.inj_on_of_nodup_map h.unique (mem_of_task? task) hmem (job_of_task? task)]

/-- The other tasks stay when the task of a job is over. -/
theorem busy_endTask (hunique : (s.tasks.map Task.job).Nodup) (task : s.task? id = some t) :
    (s.endTask id).busy + t.phase.holdsSlot.toNat = s.busy := by
  have hcount : ∀ tasks : List Task, (tasks.map Task.job).Nodup →
      tasks.find? (fun t => t.job == id) = some t →
      (tasks.filter fun t => t.job != id).countP (fun t => t.phase.holdsSlot) +
        t.phase.holdsSlot.toNat = tasks.countP fun t => t.phase.holdsSlot := by
    intro tasks hunique task
    induction tasks with
    | nil => cases task
    | cons u rest ih =>
      rw [List.map_cons, List.nodup_cons] at hunique
      by_cases hu : u.job = id
      · have hut : u = t := by simpa [hu] using task
        subst hut
        have hrest : (rest.filter fun t => t.job != id) = rest :=
          List.filter_eq_self.mpr fun v hv => by
            have : v.job ≠ id := fun hid => hunique.1 (hu ▸ hid ▸ List.mem_map_of_mem hv)
            simpa using this
        cases hslot : u.phase.holdsSlot <;> simp [hu, hrest, hslot]
      · have htask : rest.find? (fun t => t.job == id) = some t := by simpa [hu] using task
        have hrest := ih hunique.2 htask
        have hkept : (u.job != id) = true := by simpa using hu
        simp only [List.filter_cons, hkept, if_true, List.countP_cons]
        omega
  exact hcount s.tasks hunique task

theorem tasks_setPhase_jobs (s : Service) (id : JobId) (p : TaskPhase) :
    (s.setPhase id p).tasks.map Task.job = s.tasks.map Task.job := by
  simp only [setPhase, List.map_map]
  refine List.map_congr_left fun t _ => ?_
  simp only [Function.comp]
  split <;> rfl

theorem busy_setPhase (hunique : (s.tasks.map Task.job).Nodup) (task : s.task? id = some t)
    (p : TaskPhase) :
    (s.setPhase id p).busy + t.phase.holdsSlot.toNat = s.busy + p.holdsSlot.toNat := by
  have hbefore := busy_endTask hunique task
  have hafter := busy_endTask ((tasks_setPhase_jobs s id p).symm ▸ hunique)
    (task?_setPhase_self task p)
  rw [endTask_setPhase] at hafter
  dsimp only at hafter
  omega

/-! ### What a move preserves -/

/-- The task of a job stands somewhere else, and record, queue and slots are as they should be. -/
theorem Tabled.stand (h : s.Tabled) (task : s.task? id = some t) {store : Store} {slots : Slots}
    {p : TaskPhase} (numbered : store.Numbered) (issued : s.store.issued ≤ store.issued)
    (others : ∀ other ≠ id, store.find? other = s.store.find? other)
    (state : ∀ j, store.find? id = some j → j.state = p.jobState) (apart : slots.waiters.Nodup)
    (waiting : ∀ w ∈ slots.waiters, w ∈ s.slots.waiters ∧ w ≠ id ∨ w = id ∧ p = .waiting)
    (spare : slots.spare + p.holdsSlot.toNat = s.slots.spare + t.phase.holdsSlot.toNat) :
    (((s.setSlots slots).setStore store).setPhase id p).Tabled where
  numbered := numbered
  issued := fun other u hu => by
    have hlive : (s.task? other).isSome = true := by
      rw [task?_setPhase] at hu
      obtain ⟨v, hv, -⟩ := Option.map_eq_some_iff.mp hu
      exact Option.isSome_iff_exists.mpr ⟨v, hv⟩
    obtain ⟨v, hv⟩ := Option.isSome_iff_exists.mp hlive
    obtain ⟨n, hn, hid⟩ := h.issued other v hv
    exact ⟨n, Nat.le_trans hn issued, hid⟩
  unique := (tasks_setPhase_jobs _ id p).symm ▸ h.unique
  state := fun other u j hu hj => by
    rw [task?_setPhase] at hu
    obtain ⟨v, hv, rfl⟩ := Option.map_eq_some_iff.mp hu
    by_cases hother : other = id
    · subst hother
      simpa using state j hj
    · simp only [hother, if_false]
      exact h.state other v j hv ((others other hother).symm.trans hj)
  working := fun other j hj hworking => by
    rw [task?_setPhase, Option.isSome_map]
    by_cases hother : other = id
    · subst hother
      exact Option.isSome_iff_exists.mpr ⟨t, task⟩
    · exact h.working other j ((others other hother).symm.trans hj) hworking
  apart := apart
  waiting := fun w hw => by
    rw [task?_setPhase]
    rcases waiting w hw with ⟨hold, hne⟩ | ⟨rfl, rfl⟩
    · obtain ⟨u, hu, hphase⟩ := h.waiting w hold
      refine ⟨u, ?_, hphase⟩
      simp [show ((s.setSlots slots).setStore store).task? w = some u from hu, hne]
    · refine ⟨{ t with phase := .waiting }, ?_, rfl⟩
      simp [show ((s.setSlots slots).setStore store).task? w = some t from task]
  conserved := by
    have hbusy := busy_setPhase (s := (s.setSlots slots).setStore store) h.unique task p
    have hconserved := h.conserved
    change slots.spare + (((s.setSlots slots).setStore store).setPhase id p).busy = s.setup.slots
    change _ = s.busy + _ at hbusy
    omega

/-- The task of a job is over, and nobody works on the job any more. -/
theorem Tabled.finished (h : s.Tabled) (task : s.task? id = some t) {store : Store} {slots : Slots}
    (numbered : store.Numbered) (issued : s.store.issued ≤ store.issued)
    (others : ∀ other ≠ id, store.find? other = s.store.find? other)
    (idle : ∀ j, store.find? id = some j → j.state ≠ .downloading ∧ j.state ≠ .rendering)
    (apart : slots.waiters.Nodup)
    (waiting : ∀ w ∈ slots.waiters, w ∈ s.slots.waiters ∧ w ≠ id)
    (spare : slots.spare = s.slots.spare + t.phase.holdsSlot.toNat) :
    (((s.setSlots slots).setStore store).endTask id).Tabled where
  numbered := numbered
  issued := fun other u hu => by
    rw [task?_endTask] at hu
    split at hu
    · cases hu
    · obtain ⟨n, hn, hid⟩ := h.issued other u hu
      exact ⟨n, Nat.le_trans hn issued, hid⟩
  unique := h.unique.sublist (List.filter_sublist.map _)
  state := fun other u j hu hj => by
    rw [task?_endTask] at hu
    split at hu
    · cases hu
    · rename_i hother
      exact h.state other u j hu ((others other hother).symm.trans hj)
  working := fun other j hj hworking => by
    rw [task?_endTask]
    by_cases hother : other = id
    · subst hother
      obtain ⟨hdownloading, hrendering⟩ := idle j hj
      rcases hworking with hworking | hworking
      · exact absurd hworking hdownloading
      · exact absurd hworking hrendering
    · rw [if_neg hother]
      exact h.working other j ((others other hother).symm.trans hj) hworking
  apart := apart
  waiting := fun w hw => by
    obtain ⟨hold, hne⟩ := waiting w hw
    rw [task?_endTask, if_neg hne]
    exact h.waiting w hold
  conserved := by
    have hbusy := busy_endTask (s := (s.setSlots slots).setStore store) h.unique task
    have hconserved := h.conserved
    change slots.spare + (((s.setSlots slots).setStore store).endTask id).busy = s.setup.slots
    change _ = s.busy at hbusy
    omega

/-- Records are changed or forgotten, and no state of a job. -/
theorem Tabled.records (h : s.Tabled) {store : Store} (numbered : store.Numbered)
    (issued : s.store.issued ≤ store.issued)
    (kept : ∀ id j', store.find? id = some j' →
      ∃ j, s.store.find? id = some j ∧ j'.state = j.state) : (s.setStore store).Tabled where
  numbered := numbered
  issued := fun other u hu => by
    obtain ⟨n, hn, hid⟩ := h.issued other u hu
    exact ⟨n, Nat.le_trans hn issued, hid⟩
  unique := h.unique
  state := fun other u j' hu hj' => by
    obtain ⟨j, hj, hstate⟩ := kept other j' hj'
    exact hstate.trans (h.state other u j hu hj)
  working := fun other j' hj' hworking => by
    obtain ⟨j, hj, hstate⟩ := kept other j' hj'
    exact h.working other j hj (hstate ▸ hworking)
  apart := h.apart
  waiting := h.waiting
  conserved := h.conserved

/-- Nothing of the tables changes. -/
theorem Tabled.congr {s' : Service} (h : s.Tabled) (setup : s'.setup = s.setup)
    (store : s'.store = s.store) (slots : s'.slots = s.slots) (tasks : s'.tasks = s.tasks) :
    s'.Tabled := by
  have htask (id : JobId) : s'.task? id = s.task? id := by rw [task?, tasks, task?]
  refine ⟨?_, ?_, ?_, ?_, ?_, ?_, ?_, ?_⟩
  · exact store ▸ h.numbered
  · exact fun id t ht => store ▸ h.issued id t (htask id ▸ ht)
  · exact tasks ▸ h.unique
  · exact fun id t j ht hj => h.state id t j (htask id ▸ ht) (store ▸ hj)
  · exact fun id j hj hworking => htask id ▸ h.working id j (store ▸ hj) hworking
  · exact slots ▸ h.apart
  · intro id hid
    rw [htask]
    exact h.waiting id (slots ▸ hid)
  · rw [slots, setup, busy, tasks]
    exact h.conserved

/-! ### Moves of a task -/

/-- The store when the work on a job is left. -/
def leftStore (store : Store) (r : Rounding) (now : Number) (id : JobId) : Option String → Store
  | none => store
  | some m => (store.transition r id .failed (some m) none now).2

theorem leave_eq (s : Service) (id : JobId) (failure : Option String) :
    s.leave id failure = ((s.setSlots s.slots.release).setStore
      (leftStore s.store s.rounding s.now id failure)).endTask id := by
  cases failure <;> rfl

theorem task?_leave (s : Service) (id : JobId) (failure : Option String) :
    (s.leave id failure).task? id = none := by
  rw [leave_eq, task?_endTask, if_pos rfl]

section LeftStore
variable {store : Store} {r : Rounding} {now : Number} {failure : Option String}

theorem numbered_leftStore (h : store.Numbered) : (leftStore store r now id failure).Numbered := by
  cases failure with
  | none => exact h
  | some m => exact h.transition id .failed (some m) none now

theorem issued_leftStore : (leftStore store r now id failure).issued = store.issued := by
  cases failure with
  | none => rfl
  | some m => exact Store.transition_frame.2.1

theorem root_leftStore : (leftStore store r now id failure).root = store.root := by
  cases failure with
  | none => rfl
  | some m => exact Store.transition_frame.1

theorem files_leftStore : (leftStore store r now id failure).files = store.files := by
  cases failure with
  | none => rfl
  | some m => exact Store.transition_frame.2.2

theorem find?_leftStore_of_ne {other : JobId} (hother : other ≠ id) :
    (leftStore store r now id failure).find? other = store.find? other := by
  cases failure with
  | none => rfl
  | some m => exact Store.find?_transition_of_ne hother

/-- A job that is left has ended, if it is still there. -/
theorem isFinal_of_leftStore
    (ended : failure = none → ∀ j, store.find? id = some j → j.state.isFinal = true) {j : Job}
    (hj : (leftStore store r now id failure).find? id = some j) : j.state.isFinal = true := by
  cases failure with
  | none => exact ended rfl j hj
  | some m =>
    rw [leftStore, Store.find?_transition] at hj
    obtain ⟨k, -, rfl⟩ := Option.map_eq_some_iff.mp hj
    rw [if_pos rfl]
    exact Store.isFinal_moved rfl k

end LeftStore

theorem JobState.not_working {state : JobState} (h : state.isFinal = true) :
    state ≠ .downloading ∧ state ≠ .rendering := by
  cases state <;> simp_all [JobState.isFinal]

theorem TaskPhase.jobState_of_holdsSlot {p : TaskPhase} (h : p.holdsSlot = true) :
    p ≠ .waiting ∧ p ≠ .created := by
  cases p <;> simp_all [TaskPhase.holdsSlot]

/-- A job whose task works does not wait. -/
theorem Tabled.not_waiting (h : s.Tabled) (task : s.task? id = some t) (phase : t.phase ≠ .waiting)
    {w : JobId} (hw : w ∈ s.slots.waiters) : w ≠ id := by
  rintro rfl
  obtain ⟨u, hu, hwaiting⟩ := h.waiting w hw
  cases task.symm.trans hu
  exact phase hwaiting

/-- The work on a job is left, perhaps with the store of a last move. -/
theorem Tabled.leave (h : s.Tabled) (task : s.task? id = some t) (holds : t.phase.holdsSlot = true)
    {store : Store} (numbered : store.Numbered) (issued : s.store.issued ≤ store.issued)
    (others : ∀ other ≠ id, store.find? other = s.store.find? other) (failure : Option String)
    (ended : failure = none → ∀ j, store.find? id = some j → j.state.isFinal = true) :
    ((s.setStore store).leave id failure).Tabled := by
  rw [leave_eq]
  refine h.finished task (numbered_leftStore numbered) (issued_leftStore.symm ▸ issued) ?_ ?_ ?_ ?_ ?_
  · intro other hother
    exact (find?_leftStore_of_ne hother).trans (others other hother)
  · exact fun j hj => JobState.not_working (isFinal_of_leftStore ended hj)
  · exact (Slots.waiters_release s.slots).symm ▸ h.apart
  · intro w hw
    have hold : w ∈ s.slots.waiters := Slots.waiters_release s.slots ▸ hw
    exact ⟨hold, h.not_waiting task (TaskPhase.jobState_of_holdsSlot holds).1 hold⟩
  · rw [holds]
    exact Slots.spare_release s.slots

/-- The task goes on without a change of slots. -/
theorem Tabled.goOn (h : s.Tabled) (task : s.task? id = some t) {p : TaskPhase}
    (same : p.jobState = t.phase.jobState) (holds : t.phase.holdsSlot = true)
    (holds' : p.holdsSlot = true) : (s.setPhase id p).Tabled := by
  refine h.stand task h.numbered (Nat.le_refl _) (fun _ _ => rfl) ?_ h.apart ?_ ?_
  · exact fun j hj => (h.state id t j task hj).trans same.symm
  · intro w hw
    exact Or.inl ⟨hw, h.not_waiting task (TaskPhase.jobState_of_holdsSlot holds).1 hw⟩
  · rw [holds, holds']

theorem Tabled.setFiles (h : s.Tabled) (files : FileTree) : (s.setFiles files).Tabled :=
  h.records ⟨h.numbered.issued, h.numbered.unique⟩ (Nat.le_refl _) fun _ j hj => ⟨j, hj, rfl⟩

theorem Tabled.quiet {s' : Service} (h : s.Tabled) (move : Quiet id s s') : s'.Tabled := by
  cases move with
  | note stage =>
    refine h.records (h.numbered.perform (r := s.rounding) (.setStage id stage)) (Nat.le_refl _) ?_
    intro other j' hj'
    rw [Store.find?_setStage] at hj'
    obtain ⟨j, hj, rfl⟩ := Option.map_eq_some_iff.mp hj'
    refine ⟨j, hj, ?_⟩
    split
    · unfold Job.note
      split <;> rfl
    · rfl
  | write u written => exact h.setFiles u
  | download t ds index e task phase =>
    have hfiles := h.setFiles (ds.step s.setup.fetcher s.store.files index e).2
    exact hfiles.goOn task (by rw [phase]; rfl) (by rw [phase]; rfl) rfl
  | fetch t j items task phase found targets =>
    exact h.goOn task (by rw [phase]; rfl) (by rw [phase]; rfl) rfl
  | probe t done left task phase =>
    refine h.goOn task phase.symm ?_ rfl
    cases hp : t.phase <;> simp_all [TaskPhase.jobState, TaskPhase.holdsSlot]
  | spawn t plan watch task phase =>
    have hprocess : (s.addProcess id).Tabled := h.congr rfl rfl rfl rfl
    exact hprocess.goOn task (by rw [phase]; rfl) (by rw [phase]; rfl) rfl
  | watch t plan before after task phase =>
    exact h.goOn task (by rw [phase]; rfl) (by rw [phase]; rfl) rfl
  | exit code running => exact h.congr rfl rfl rfl rfl
  | kill running => exact h.congr rfl rfl rfl rfl
  | wait t task phase awake =>
    have hnew : id ∉ s.slots.waiters := fun hid =>
      h.not_waiting task (by rw [phase]; exact nofun) hid rfl
    change (((s.setSlots (s.slots.enqueue id)).setStore s.store).setPhase id .waiting).Tabled
    refine h.stand task h.numbered (Nat.le_refl _) (fun _ _ => rfl) ?_ ?_ ?_ ?_
    · exact fun j hj => (h.state id t j task hj).trans (by rw [phase]; rfl)
    · rw [Slots.waiters_enqueue]
      exact List.nodup_append'.mpr ⟨h.apart, List.nodup_singleton id, by simpa using hnew⟩
    · intro w hw
      rw [Slots.waiters_enqueue] at hw
      rcases List.mem_append.mp hw with hw | hw
      · exact Or.inl ⟨hw, fun hid => hnew (hid ▸ hw)⟩
      · exact Or.inr ⟨List.mem_singleton.mp hw, rfl⟩
    · rw [phase, Slots.spare_enqueue]
      rfl
  | vanish t task phase told =>
    change (((s.setSlots s.slots).setStore s.store).endTask id).Tabled
    refine h.finished task h.numbered (Nat.le_refl _) (fun _ _ => rfl) ?_ h.apart ?_ (by rw [phase]; rfl)
    · intro j hj
      rw [h.state id t j task hj, phase]
      exact ⟨nofun, nofun⟩
    · exact fun w hw => ⟨hw, h.not_waiting task (by rw [phase]; exact nofun) hw⟩
  | resign t task phase told =>
    change (((s.setSlots (s.slots.leave id)).setStore (s.store.transition s.rounding id .failed
      (some cancelledMessage) none s.now).2).endTask id).Tabled
    refine h.finished task (h.numbered.transition ..)
      (Nat.le_of_eq Store.transition_frame.2.1.symm)
      (fun _ hother => Store.find?_transition_of_ne hother) ?_ ?_ ?_ ?_
    · intro j hj
      rw [Store.find?_transition] at hj
      obtain ⟨k, -, rfl⟩ := Option.map_eq_some_iff.mp hj
      rw [if_pos rfl]
      exact JobState.not_working (Store.isFinal_moved rfl k)
    · rw [Slots.waiters_leave]
      exact h.apart.filter _
    · intro w hw
      simpa [Slots.waiters_leave] using hw
    · rw [phase, Slots.spare_leave h.apart]
      rfl
  | leave t failure task holds gone killed =>
    refine h.leave task holds h.numbered (Nat.le_refl _) (fun _ _ => rfl) failure fun hf j hj => ?_
    exact nomatch (gone hf).symm.trans hj

theorem Tabled.advance {s' : Service} (h : s.Tabled) (move : Advance id s s') : s'.Tabled := by
  cases move with
  | begin t slots task awake slot =>
    have hqueued : ∀ j, s.store.find? id = some j → j.state = .queued := by
      intro j hj
      rw [h.state id t j task hj]
      rcases slot with ⟨phase, -⟩ | ⟨phase, -⟩ <;> rw [phase] <;> rfl
    have hslots : slots.waiters = s.slots.waiters.filter (· != id) ∧
        slots.spare + 1 = s.slots.spare := by
      rcases slot with ⟨-, htake⟩ | ⟨-, hgranted, rfl⟩
      · obtain ⟨hempty, hempty', hspare⟩ := Slots.take?_eq_some htake
        exact ⟨by simp [hempty, hempty'], hspare⟩
      · exact ⟨Slots.waiters_resume _ _, Slots.spare_resume h.apart hgranted⟩
    refine h.stand task (h.numbered.transition ..) (Nat.le_of_eq Store.transition_frame.2.1.symm)
      (fun _ hother => Store.find?_transition_of_ne hother) ?_ ?_ ?_ ?_
    · intro j hj
      rw [Store.find?_transition] at hj
      obtain ⟨k, hk, rfl⟩ := Option.map_eq_some_iff.mp hj
      rw [if_pos rfl, Store.state_moved, hqueued k hk]
      rfl
    · rw [hslots.1]
      exact h.apart.filter _
    · intro w hw
      rw [hslots.1] at hw
      exact Or.inl (by simpa using hw)
    · have hidle : t.phase.holdsSlot = false := by
        rcases slot with ⟨phase, -⟩ | ⟨phase, -⟩ <;> rw [phase] <;> rfl
      rw [hidle]
      exact hslots.2
  | render t plan task phase =>
    have holds : t.phase.holdsSlot = true := by
      cases hp : t.phase <;> simp_all [TaskPhase.jobState, TaskPhase.holdsSlot]
    refine h.stand task (h.numbered.transition ..) (Nat.le_of_eq Store.transition_frame.2.1.symm)
      (fun _ hother => Store.find?_transition_of_ne hother) ?_ h.apart ?_ (by rw [holds]; rfl)
    · intro j hj
      rw [Store.find?_transition] at hj
      obtain ⟨k, hk, rfl⟩ := Option.map_eq_some_iff.mp hj
      rw [if_pos rfl, Store.state_moved, h.state id t k task hk, phase]
      rfl
    · intro w hw
      exact Or.inl ⟨hw, h.not_waiting task (TaskPhase.jobState_of_holdsSlot holds).1 hw⟩
  | complete t plan watch failure task phase exited size =>
    refine h.leave task (by rw [phase]; rfl) (h.numbered.transition ..)
      (Nat.le_of_eq Store.transition_frame.2.1.symm)
      (fun _ hother => Store.find?_transition_of_ne hother) failure fun _ j hj => ?_
    rw [Store.find?_transition] at hj
    obtain ⟨k, -, rfl⟩ := Option.map_eq_some_iff.mp hj
    rw [if_pos rfl]
    exact Store.isFinal_moved rfl k

/-! ### Calls and submissions -/

theorem busy_cancel (s : Service) (id : JobId) : (s.cancel id).busy = s.busy := by
  simp only [busy, cancel, List.countP_map]
  refine List.countP_congr fun t _ => ?_
  simp only [Function.comp]
  split <;> rfl

/-- Being told to stop changes where no task stands. -/
theorem Tabled.cancel (h : s.Tabled) (id : JobId) : (s.cancel id).Tabled where
  numbered := h.numbered
  issued := fun other u hu => by
    rw [task?_cancel] at hu
    obtain ⟨v, hv, -⟩ := Option.map_eq_some_iff.mp hu
    exact h.issued other v hv
  unique := by
    have hjobs : (s.cancel id).tasks.map Task.job = s.tasks.map Task.job := by
      simp only [Service.cancel, List.map_map]
      refine List.map_congr_left fun t _ => ?_
      simp only [Function.comp]
      split <;> rfl
    exact hjobs ▸ h.unique
  state := fun other u j hu hj => by
    rw [task?_cancel] at hu
    obtain ⟨v, hv, rfl⟩ := Option.map_eq_some_iff.mp hu
    refine (h.state other v j hv hj).trans ?_
    split <;> rfl
  working := fun other j hj hworking => by
    rw [task?_cancel, Option.isSome_map]
    exact h.working other j hj hworking
  apart := h.apart.sublist (Slots.waiters_withdraw_sublist s.slots id)
  waiting := fun w hw => by
    obtain ⟨t, ht, phase⟩ := h.waiting w ((Slots.waiters_withdraw_sublist s.slots id).subset hw)
    refine ⟨_, by rw [task?_cancel, ht]; rfl, ?_⟩
    split <;> exact phase
  conserved := by
    rw [busy_cancel]
    exact (congrArg (· + s.busy) (Slots.spare_withdraw s.slots id)).trans h.conserved

theorem Tabled.cancelAll (h : s.Tabled) (ids : List JobId) :
    (ids.foldl Service.cancel s).Tabled := by
  induction ids generalizing s with
  | nil => exact h
  | cons id rest ih => exact ih (h.cancel id)

theorem Tabled.detachAll (h : s.Tabled) {ids : List JobId}
    {answer : Except StoreFault (List Path)} {store : Store}
    (detached : s.store.detachAll ids = (answer, store)) : (s.setStore store).Tabled := by
  obtain ⟨hjobs, hissued⟩ := Store.detachAll_sublist (s := s.store) ids
  rw [detached] at hjobs hissued
  exact h.records (h.numbered.of_sublist (Nat.le_of_eq hissued.symm) hjobs)
    (Nat.le_of_eq hissued.symm) fun id j hj => ⟨j, h.numbered.find?_of_sublist hjobs hj, rfl⟩

theorem Tabled.callMove {goal : Goal} {phase phase' : CallPhase} {s' : Service} (h : s.Tabled)
    (move : CallMove s goal phase s' phase') : s'.Tabled := by
  cases move with
  | idle | cleared | drained | astray => exact h
  | tell finished id rest t ended task => exact h.cancel id
  | remove finished trash store removing ended detached => exact h.detachAll detached
  | refuse finished f store removing ended detached => exact h.detachAll detached
  | clear p rest removed => exact h.setFiles _
  | lose jobs live left settled => exact h.cancelAll live

/-- The id that is given out next has no task. -/
theorem Tabled.task?_next (h : s.Tabled) : s.task? (jobId (s.store.issued + 1)) = none := by
  cases htask : s.task? (jobId (s.store.issued + 1)) with
  | none => rfl
  | some t =>
    obtain ⟨n, hn, hid⟩ := h.issued _ t htask
    have := jobId_injective hid
    omega

theorem Tabled.register (h : s.Tabled) (files : FileTree) :
    (s.setStore (s.store.register s.now files)).Tabled := by
  refine ⟨h.numbered.register s.now files, ?_, h.unique, ?_, ?_, h.apart, h.waiting, h.conserved⟩
  · intro id t task
    obtain ⟨n, hn, hid⟩ := h.issued id t task
    exact ⟨n, Nat.le_succ_of_le hn, hid⟩
  · intro id t j task hj
    rcases Store.find?_register_eq_some hj with hj | ⟨rfl, -⟩
    · exact h.state id t j task hj
    · exact nomatch h.task?_next.symm.trans task
  · intro id j hj hworking
    rcases Store.find?_register_eq_some hj with hj | ⟨-, rfl⟩
    · exact h.working id j hj hworking
    · rcases hworking with hworking | hworking <;> cases hworking

/-- A new task stands where its job does. -/
theorem Tabled.addTask (h : s.Tabled) (free : s.task? t.job = none) (phase : t.phase = .created)
    (issued : ∃ n ≤ s.store.issued, t.job = jobId n)
    (state : ∀ j, s.store.find? t.job = some j → j.state = .queued) :
    Tabled { s with tasks := s.tasks ++ [t] } := by
  refine ⟨h.numbered, ?_, ?_, ?_, ?_, h.apart, ?_, ?_⟩
  · intro other u hu
    rcases task?_append_eq_some hu with hu | ⟨rfl, -⟩
    · exact h.issued other u hu
    · exact issued
  · rw [List.map_append]
    refine List.nodup_append'.mpr ⟨h.unique, List.nodup_singleton _, fun other hmem hmem' => ?_⟩
    obtain ⟨u, hu, rfl⟩ := List.mem_map.mp hmem
    exact task?_eq_none.mp free u hu (List.mem_singleton.mp hmem')
  · intro other u j hu hj
    rcases task?_append_eq_some hu with hu | ⟨rfl, rfl⟩
    · exact h.state other u j hu hj
    · rw [state j hj, phase]
      rfl
  · intro other j hj hworking
    rw [task?_append, Option.isSome_or, h.working other j hj hworking, Bool.true_or]
  · intro w hw
    obtain ⟨u, hu, hphase⟩ := h.waiting w hw
    exact ⟨u, by rw [task?_append, hu]; rfl, hphase⟩
  · rw [← h.conserved]
    simp [busy, phase, TaskPhase.holdsSlot]

theorem Tabled.submitted {submission : Submission} {answer : Except SubmitFault JobId}
    {s' : Service} (h : s.Tabled) (outcome : Submitted s submission answer s') : s'.Tabled := by
  cases outcome with
  | refused => exact h
  | lost f files whole open' left =>
    exact h.records (h.numbered.of_sublist (Nat.le_succ _) (List.Sublist.refl _)) (Nat.le_succ _)
      fun id j hj => ⟨j, hj, rfl⟩
  | torn run made files open' half date directory written => exact h.register files
  | accepted t made files open' checked date directory written =>
    have hregister := h.register files
    refine hregister.addTask (t := ⟨_, t, .created, false⟩) h.task?_next rfl
      ⟨_, Nat.le_refl _, rfl⟩ fun j hj => ?_
    rcases Store.find?_register_eq_some hj with hj | ⟨-, rfl⟩
    · exact nomatch h.numbered.find?_next.symm.trans hj
    · rfl

/-! ### Runs -/

theorem Tabled.step (h : s.Tabled) (e : Event) : (s.step e).Tabled := by
  generalize hs' : s.step e = s'
  have hcases := step_cases h.numbered e
  rw [hs'] at hcases
  cases hcases with
  | job id e b s' about moves =>
    exact moves.preserves (P := Tabled) (fun _ _ h move => h.quiet move)
      (fun _ _ h move => h.advance move) h
  | submit submission disk s' outcome => exact h.submitted outcome
  | ask goal s' phase removing move started => exact (h.callMove move).congr rfl rfl rfl rfl
  | drain patience phase waiting => exact h.congr rfl rfl rfl rfl
  | call e index c s' phase about call move => exact (h.callMove move).congr rfl rfl rfl rfl
  | noCall => exact h
  | tick seconds => exact h.congr rfl rfl rfl rfl
  | disk files => exact h.setFiles files

theorem Tabled.run (h : s.Tabled) (events : List Event) : (s.run events).Tabled := by
  induction events generalizing s with
  | nil => exact h
  | cons e rest ih => exact ih (h.step e)

theorem Tabled.setup_run (h : s.Tabled) (events : List Event) :
    (s.run events).setup = s.setup := by
  induction events generalizing s with
  | nil => rfl
  | cons e rest ih => exact (ih (h.step e)).trans (setup_step h.numbered e)

theorem Tabled.rounding_run (h : s.Tabled) (events : List Event) :
    (s.run events).rounding = s.rounding :=
  congrArg (fun u => u.compiler.rounding) (h.setup_run events)

theorem Tabled.rounding_step (h : s.Tabled) (e : Event) : (s.step e).rounding = s.rounding :=
  h.rounding_run [e]

theorem Tabled.root_run (h : s.Tabled) (events : List Event) :
    (s.run events).store.root = s.store.root := by
  induction events generalizing s with
  | nil => rfl
  | cons e rest ih => exact (ih (h.step e)).trans (root_step h.numbered e)

/-- **The tables agree in every run.** -/
theorem tabled_run (setup : Setup) (root : Path) (files : FileTree) (events : List Event) :
    ((Service.begin setup root files).run events).Tabled :=
  (tabled_begin setup root files).run events

/-! ### Who holds a slot -/

/-- The jobs that hold a slot: their tasks work on one, or were handed one and have not noticed
yet. -/
def holders (s : Service) : List JobId :=
  (s.tasks.filter fun t => t.phase.holdsSlot || s.slots.isGranted t.job).map Task.job

/-- The jobs that are worked on. -/
def workingJobs (s : Service) : List Job :=
  s.store.jobs.filter fun j => j.state == .downloading || j.state == .rendering

/-- Everybody who was handed a slot has a task that waits. -/
theorem Tabled.handed_eq (h : s.Tabled) :
    s.slots.handed =
      (s.tasks.filter fun t => !t.phase.holdsSlot && s.slots.isGranted t.job).length := by
  have hperm : ((s.slots.queue.filter Waiter.granted).map Waiter.job).Perm
      ((s.tasks.filter fun t => !t.phase.holdsSlot && s.slots.isGranted t.job).map Task.job) := by
    refine (List.perm_ext_iff_of_nodup (h.apart.sublist (List.filter_sublist.map _))
      (h.unique.sublist (List.filter_sublist.map _))).mpr fun id => ?_
    simp only [List.mem_map, List.mem_filter, Bool.and_eq_true, Bool.not_eq_true']
    constructor
    · rintro ⟨w, ⟨hw, hgranted⟩, rfl⟩
      obtain ⟨t, task, phase⟩ := h.waiting w.job (List.mem_map_of_mem hw)
      have hjob := job_of_task? task
      refine ⟨t, ⟨mem_of_task? task, by rw [phase]; rfl, ?_⟩, hjob⟩
      exact Slots.isGranted_iff.mpr ⟨w, hw, hjob.symm, hgranted⟩
    · rintro ⟨t, ⟨-, -, hgranted⟩, rfl⟩
      obtain ⟨w, hw, hid, hw'⟩ := Slots.isGranted_iff.mp hgranted
      exact ⟨w, ⟨hw, hw'⟩, hid⟩
  rw [Slots.handed, List.countP_eq_length_filter]
  simpa using hperm.length_eq

theorem Tabled.free_add_holders (h : s.Tabled) :
    s.slots.free + s.holders.length = s.setup.slots := by
  have hsplit : s.holders.length = s.busy +
      (s.tasks.filter fun t => !t.phase.holdsSlot && s.slots.isGranted t.job).length := by
    rw [holders, List.length_map, busy, ← List.countP_eq_length_filter,
      ← List.countP_eq_length_filter]
    induction s.tasks with
    | nil => rfl
    | cons t rest ih =>
      simp only [List.countP_cons, ih]
      cases t.phase.holdsSlot <;> cases s.slots.isGranted t.job <;> simp <;> omega
  have hconserved := h.conserved
  rw [Slots.spare, h.handed_eq] at hconserved
  omega

/-- A job that is worked on is one of those that hold a slot. -/
theorem Tabled.working_sub_holders (h : s.Tabled) :
    s.workingJobs.map Job.id ⊆ s.holders := by
  intro id hid
  obtain ⟨j, hj, rfl⟩ := List.mem_map.mp hid
  obtain ⟨hmem, hstate⟩ := List.mem_filter.mp hj
  have hworking : j.state = .downloading ∨ j.state = .rendering := by simpa using hstate
  have hfound := h.numbered.find?_eq_some_iff.mpr ⟨hmem, rfl⟩
  obtain ⟨t, task⟩ := Option.isSome_iff_exists.mp (h.working j.id j hfound hworking)
  have hphase := h.state j.id t j task hfound
  have holds : t.phase.holdsSlot = true := by
    cases hp : t.phase <;> simp_all [TaskPhase.jobState, TaskPhase.holdsSlot]
  refine List.mem_map.mpr ⟨t, List.mem_filter.mpr ⟨mem_of_task? task, ?_⟩, job_of_task? task⟩
  rw [holds, Bool.true_or]

/-- **Slots are conserved**, whatever clients, tasks and the world do and in whatever order: the free
slots and the jobs that hold one make up the number of slots, each holder has one of them and a task
that has not come to its end, and no more jobs than there are slots are downloading or rendering.
-/
theorem slots_conserved (setup : Setup) (root : Path) (files : FileTree) (events : List Event) :
    let s := (Service.begin setup root files).run events
    s.slots.free + s.holders.length = setup.slots ∧ s.holders.Nodup ∧
      (∀ id ∈ s.holders, (s.task? id).isSome = true) ∧
      s.workingJobs.map Job.id ⊆ s.holders ∧ s.workingJobs.length ≤ setup.slots := by
  intro s
  have h : s.Tabled := tabled_run setup root files events
  have hsetup : s.setup = setup := (tabled_begin setup root files).setup_run events
  have hnodup : s.holders.Nodup := h.unique.sublist (List.filter_sublist.map _)
  have hcount := h.free_add_holders
  have hworking : s.workingJobs.length ≤ s.holders.length := by
    have hids : (s.workingJobs.map Job.id).Nodup :=
      h.numbered.unique.sublist (List.filter_sublist.map _)
    simpa using (List.subperm_of_subset hids h.working_sub_holders).length_le
  refine ⟨hsetup ▸ hcount, hnodup, fun id hid => ?_, h.working_sub_holders, ?_⟩
  · obtain ⟨t, ht, rfl⟩ := List.mem_map.mp hid
    exact task?_isSome.mpr ⟨t, (List.mem_filter.mp ht).1, rfl⟩
  · rw [← hsetup]
    omega

end Service
end Montage
