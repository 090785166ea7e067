import Montage.Proofs.TaskTable

/-! # What the moves of a task leave alone

The moves of a task are about one job: records, tasks and processes of all others stay as they
are.  Of its own job a chain of moves keeps what must not change (`Job.Keeps`); it never adds or
removes a record, and never a task without need: a task that is over has left a job that has ended,
or was told to stop before its first move (`Follows`).
-/
namespace Montage

open Service

/-- What no move of a task changes of a record. -/
structure Job.Keeps (a b : Job) : Prop where
  id : b.id = a.id
  directory : b.directory = a.directory
  since : b.since = a.since
  final : a.state.isFinal = true → b = a

theorem Job.Keeps.refl (a : Job) : a.Keeps a := ⟨rfl, rfl, rfl, fun _ => rfl⟩

theorem Job.Keeps.trans {a b c : Job} (h : a.Keeps b) (h' : b.Keeps c) : a.Keeps c where
  id := h'.id.trans h.id
  directory := h'.directory.trans h.directory
  since := h'.since.trans h.since
  final := fun ha => by
    have hb := h.final ha
    subst hb
    exact h'.final ha

theorem Job.keeps_note (j : Job) (stage : String) : j.Keeps (j.note stage) := by
  unfold Job.note
  split
  · exact Job.Keeps.refl j
  · rename_i hopen
    exact ⟨rfl, rfl, rfl, fun hfinal => absurd hfinal hopen⟩

theorem Store.keeps_moved (s : Store) (r : Rounding) (state : JobState)
    (error stage : Option String) (now : Number) (j : Job) :
    j.Keeps (s.moved r state error stage now j) :=
  ⟨Store.id_moved j, Store.directory_moved j, Store.since_moved j, Store.moved_of_isFinal⟩

/-- One service after another one, as far as moves of the task of a job lead. -/
structure Follows (id : JobId) (s s' : Service) : Prop where
  others : ∀ other ≠ id, s'.store.find? other = s.store.find? other ∧
    s'.task? other = s.task? other ∧ s'.process? other = s.process? other
  record : ∀ j', s'.store.find? id = some j' → ∃ j, s.store.find? id = some j ∧ j.Keeps j'
  kept : s'.store.find? id = none → s.store.find? id = none
  task : ∀ t', s'.task? id = some t' → ∃ t, s.task? id = some t ∧ t'.cancelled = t.cancelled ∧
    (t'.phase = .created → t.phase = .created)
  finished : ∀ t, s.task? id = some t → s'.task? id = none →
    (∀ j', s'.store.find? id = some j' → j'.state.isFinal = true) ∨
      t.phase = .created ∧ t.cancelled = true

namespace Follows
variable {id : JobId} {s s' s'' : Service}

theorem refl (id : JobId) (s : Service) : Follows id s s where
  others := fun _ _ => ⟨rfl, rfl, rfl⟩
  record := fun j hj => ⟨j, hj, Job.Keeps.refl j⟩
  kept := fun h => h
  task := fun t ht => ⟨t, ht, rfl, fun h => h⟩
  finished := fun _ ht hover => nomatch hover.symm.trans ht

theorem trans (h : Follows id s s') (h' : Follows id s' s'') : Follows id s s'' where
  others := fun other hother => by
    obtain ⟨hrecord, htask, hprocess⟩ := h.others other hother
    obtain ⟨hrecord', htask', hprocess'⟩ := h'.others other hother
    exact ⟨hrecord'.trans hrecord, htask'.trans htask, hprocess'.trans hprocess⟩
  record := fun j'' hj'' => by
    obtain ⟨j', hj', hkeeps'⟩ := h'.record j'' hj''
    obtain ⟨j, hj, hkeeps⟩ := h.record j' hj'
    exact ⟨j, hj, hkeeps.trans hkeeps'⟩
  kept := fun hnone => h.kept (h'.kept hnone)
  task := fun t'' ht'' => by
    obtain ⟨t', ht', hcancelled', hphase'⟩ := h'.task t'' ht''
    obtain ⟨t, ht, hcancelled, hphase⟩ := h.task t' ht'
    exact ⟨t, ht, hcancelled'.trans hcancelled, fun hnew => hphase (hphase' hnew)⟩
  finished := fun t ht hover => by
    cases ht' : s'.task? id with
    | none =>
      -- it was over before, and a job that has ended stays as it is
      rcases h.finished t ht ht' with hfinal | hnew
      · refine Or.inl fun j'' hj'' => ?_
        obtain ⟨j', hj', hkeeps⟩ := h'.record j'' hj''
        rw [hkeeps.final (hfinal j' hj')]
        exact hfinal j' hj'
      · exact Or.inr hnew
    | some t' =>
      rcases h'.finished t' ht' hover with hfinal | ⟨hphase', hcancelled'⟩
      · exact Or.inl hfinal
      · obtain ⟨u, hu, hcancelled, hphase⟩ := h.task t' ht'
        cases ht.symm.trans hu
        exact Or.inr ⟨hphase hphase', hcancelled ▸ hcancelled'⟩

/-- Every record after comes from one before. -/
theorem record_any (h : Follows id s s') {other : JobId} {j' : Job}
    (hj' : s'.store.find? other = some j') :
    ∃ j, s.store.find? other = some j ∧ j.Keeps j' := by
  by_cases hother : other = id
  · subst hother
    exact h.record j' hj'
  · exact ⟨j', (h.others other hother).1.symm.trans hj', Job.Keeps.refl j'⟩

theorem kept_any (h : Follows id s s') {other : JobId} (hnone : s'.store.find? other = none) :
    s.store.find? other = none := by
  by_cases hother : other = id
  · subst hother
    exact h.kept hnone
  · exact (h.others other hother).1.symm.trans hnone

/-- Every task after was there before, and was told to stop before if it is now. -/
theorem task_any (h : Follows id s s') {other : JobId} {t' : Task}
    (ht' : s'.task? other = some t') :
    ∃ t, s.task? other = some t ∧ t'.cancelled = t.cancelled ∧
      (t'.phase = .created → t.phase = .created) := by
  by_cases hother : other = id
  · subst hother
    exact h.task t' ht'
  · exact ⟨t', (h.others other hother).2.1.symm.trans ht', rfl, fun h => h⟩

theorem task_none (h : Follows id s s') {other : JobId} (hnone : s.task? other = none) :
    s'.task? other = none := by
  cases ht' : s'.task? other with
  | none => rfl
  | some t' =>
    obtain ⟨t, ht, -⟩ := h.task_any ht'
    exact nomatch hnone.symm.trans ht

end Follows

namespace Service
variable {s : Service} {id : JobId} {t : Task}

theorem process?_addProcess_of_ne {other : JobId} (hother : other ≠ id) :
    (s.addProcess id).process? other = s.process? other := by
  simp [process?, addProcess, List.find?_append, Ne.symm hother]

theorem process?_addProcess_self (idle : s.process? id = none) :
    (s.addProcess id).process? id = some .running := by
  have hidle : (s.processes.find? fun p => p.job == id) = none := Option.map_eq_none_iff.mp idle
  simp [process?, addProcess, List.find?_append, hidle]

theorem process?_setProcess_of_ne {other : JobId} (hother : other ≠ id)
    (status : ProcessStatus) : (s.setProcess id status).process? other = s.process? other := by
  simp [process?_setProcess, hother]

/-- The task stands somewhere else, but not at its beginning. -/
theorem follows_stand (s : Service) (id : JobId) {p : TaskPhase} (hp : p ≠ .created) :
    Follows id s (s.setPhase id p) where
  others := fun other hother => ⟨rfl, by simp [task?_setPhase, hother], rfl⟩
  record := fun j hj => ⟨j, hj, Job.Keeps.refl j⟩
  kept := fun h => h
  task := fun t' ht' => by
    rw [task?_setPhase] at ht'
    obtain ⟨t, ht, rfl⟩ := Option.map_eq_some_iff.mp ht'
    exact ⟨t, ht, by simp, fun h => absurd (by simpa using h) hp⟩
  finished := fun t ht hover => by
    rw [task?_setPhase, ht] at hover
    cases hover

/-- The record of the job changes. -/
theorem follows_records (s : Service) (id : JobId) {store : Store} {f : Job → Job}
    (hstore : ∀ other, store.find? other =
      (s.store.find? other).map fun j => if other = id then f j else j)
    (hf : ∀ j : Job, j.Keeps (f j)) : Follows id s (s.setStore store) where
  others := fun other hother => ⟨by simp [hstore, hother], rfl, rfl⟩
  record := fun j' hj' => by
    rw [store_setStore, hstore] at hj'
    obtain ⟨j, hj, rfl⟩ := Option.map_eq_some_iff.mp hj'
    exact ⟨j, hj, by simpa using hf j⟩
  kept := fun h => by
    rw [store_setStore, hstore] at h
    exact Option.map_eq_none_iff.mp h
  task := fun t ht => ⟨t, ht, rfl, fun h => h⟩
  finished := fun t ht hover => nomatch hover.symm.trans ht

/-- The task is over. -/
theorem follows_endTask (task : s.task? id = some t)
    (ended : (∀ j, s.store.find? id = some j → j.state.isFinal = true) ∨
      t.phase = .created ∧ t.cancelled = true) : Follows id s (s.endTask id) where
  others := fun other hother => ⟨rfl, by simp [task?_endTask, hother], rfl⟩
  record := fun j hj => ⟨j, hj, Job.Keeps.refl j⟩
  kept := fun h => h
  task := fun t' ht' => by
    rw [task?_endTask, if_pos rfl] at ht'
    cases ht'
  finished := fun u hu _ => by
    cases task.symm.trans hu
    exact ended

theorem follows_transition (s : Service) (id : JobId) (state : JobState)
    (error stage : Option String) :
    Follows id s (s.setStore (s.store.transition s.rounding id state error stage s.now).2) :=
  follows_records s id (Store.find?_transition _ _ _ _ _ _ _)
    (Store.keeps_moved s.store s.rounding state error stage s.now)

/-- The work on a job is left; a job that is left has ended, if it is still there. -/
theorem follows_leave (task : s.task? id = some t) (failure : Option String)
    (ended : failure = none → ∀ j, s.store.find? id = some j → j.state.isFinal = true) :
    Follows id s (s.leave id failure) := by
  have hfinal : ∀ j, (leftStore s.store s.rounding s.now id failure).find? id = some j →
      j.state.isFinal = true := fun j hj => isFinal_of_leftStore ended hj
  rw [leave_eq]
  have hslots : Follows id s (s.setSlots s.slots.release) := ⟨fun _ _ => ⟨rfl, rfl, rfl⟩,
    (Follows.refl id s).record, fun h => h, (Follows.refl id s).task, (Follows.refl id s).finished⟩
  refine hslots.trans (Follows.trans ?_ (follows_endTask (t := t) task (Or.inl hfinal)))
  cases failure with
  | none => exact Follows.refl id _
  | some m => exact follows_transition (s.setSlots s.slots.release) id .failed (some m) none

end Service

theorem Quiet.follows {id : JobId} {s s' : Service} (move : Quiet id s s') : Follows id s s' := by
  -- what is written, and where a process stands, is seen by no table
  have hsame {u : Service} (hstore : ∀ other, u.store.find? other = s.store.find? other)
      (htask : ∀ other, u.task? other = s.task? other)
      (hprocess : ∀ other ≠ id, u.process? other = s.process? other) : Follows id s u :=
    ⟨fun other hother => ⟨hstore other, htask other, hprocess other hother⟩,
      fun j hj => ⟨j, (hstore id).symm.trans hj, Job.Keeps.refl j⟩, fun h => hstore id ▸ h,
      fun t ht => ⟨t, (htask id).symm.trans ht, rfl, fun h => h⟩,
      fun t ht hover => nomatch ((htask id).symm.trans hover).symm.trans ht⟩
  cases move with
  | note stage =>
    exact follows_records s id (fun other => Store.find?_setStage stage)
      fun j => Job.keeps_note j stage
  | write u written => exact hsame (fun _ => rfl) (fun _ => rfl) fun _ _ => rfl
  | download t ds index e task phase =>
    have hfiles : Follows id s (s.setFiles (ds.step s.setup.fetcher s.store.files index e).2) :=
      hsame (fun _ => rfl) (fun _ => rfl) fun _ _ => rfl
    exact hfiles.trans (follows_stand _ id nofun)
  | fetch t j items task phase found targets => exact follows_stand s id nofun
  | probe t done left task phase => exact follows_stand s id nofun
  | spawn t plan watch task phase =>
    have hspawn : Follows id s (s.addProcess id) :=
      hsame (fun _ => rfl) (fun _ => rfl) fun _ hother => process?_addProcess_of_ne hother
    exact hspawn.trans (follows_stand _ id nofun)
  | watch t plan before after task phase => exact follows_stand s id nofun
  | exit code running =>
    exact hsame (fun _ => rfl) (fun _ => rfl) fun _ hother => process?_setProcess_of_ne hother _
  | kill running =>
    exact hsame (fun _ => rfl) (fun _ => rfl) fun _ hother => process?_setProcess_of_ne hother _
  | wait t task phase awake =>
    have hqueue : Follows id s (s.setSlots (s.slots.enqueue id)) :=
      hsame (fun _ => rfl) (fun _ => rfl) fun _ _ => rfl
    exact hqueue.trans (follows_stand _ id nofun)
  | vanish t task phase told => exact follows_endTask task (Or.inr ⟨phase, told⟩)
  | resign t task phase told =>
    have hqueue : Follows id s (s.setSlots (s.slots.leave id)) :=
      hsame (fun _ => rfl) (fun _ => rfl) fun _ _ => rfl
    refine hqueue.trans ((follows_transition _ id .failed (some cancelledMessage) none).trans ?_)
    refine follows_endTask (t := t) task (Or.inl fun j hj => ?_)
    rw [store_setStore, Store.find?_transition] at hj
    obtain ⟨k, -, rfl⟩ := Option.map_eq_some_iff.mp hj
    rw [if_pos rfl]
    exact Store.isFinal_moved rfl k
  | leave t failure task holds gone killed =>
    exact follows_leave task failure fun hf j hj => nomatch (gone hf).symm.trans hj

theorem Advance.follows {id : JobId} {s s' : Service} (move : Advance id s s') :
    Follows id s s' := by
  cases move with
  | begin t slots task awake slot =>
    have hslots : Follows id s (s.setSlots slots) := ⟨fun _ _ => ⟨rfl, rfl, rfl⟩,
      (Follows.refl id s).record, fun h => h, (Follows.refl id s).task, (Follows.refl id s).finished⟩
    exact hslots.trans ((follows_transition _ id _ _ _).trans (follows_stand _ id nofun))
  | render t plan task phase =>
    exact (follows_transition s id _ _ _).trans (follows_stand _ id nofun)
  | complete t plan watch failure task phase exited size =>
    have hcompleted := follows_transition s id .completed none none
    have task' : (s.setStore (s.store.transition s.rounding id .completed none none
      s.now).2).task? id = some t := task
    refine hcompleted.trans (follows_leave task' failure fun _ j hj => ?_)
    rw [store_setStore, Store.find?_transition] at hj
    obtain ⟨k, -, rfl⟩ := Option.map_eq_some_iff.mp hj
    rw [if_pos rfl]
    exact Store.isFinal_moved rfl k

/-- **The events of a job leave all other jobs alone**, and of the job itself what must not change.
-/
theorem Moves.follows {id : JobId} {s s' : Service} {b : Bool} (moves : Moves id s b s') :
    Follows id s s' :=
  moves.preserves (P := Follows id s) (fun _ _ h move => h.trans move.follows)
    (fun _ _ h move => h.trans move.follows) (Follows.refl id s)

end Montage
