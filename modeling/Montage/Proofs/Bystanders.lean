import Montage.Proofs.RemovedPlaces
import Montage.Proofs.Supplies

/-! # What removing a job leaves alone

A call that removes jobs tells their tasks to stop, takes their records away, moves their directories
aside and clears these away; and a task that was told to stop gives up what it was waiting for.  None
of this is about any other job: its record, its task, its process and its files stay (`Untouched`).
-/
namespace Montage

open FileTree Service

/-- A job is left as it is, with all that is in its directory. -/
structure Untouched (id : JobId) (s s' : Service) : Prop where
  record : s'.store.find? id = s.store.find? id
  task : s'.task? id = s.task? id
  process : s'.process? id = s.process? id
  names : ∀ p, s.store.directory id <+: p → s'.store.files.node? p = s.store.files.node? p
  contents : s'.store.files.contents = s.store.files.contents

theorem Untouched.refl (id : JobId) (s : Service) : Untouched id s s :=
  ⟨rfl, rfl, rfl, fun _ _ => rfl, rfl⟩

/-- In the directory of a job stands nothing that is in another one. -/
theorem Store.not_prefix_of_below {s : Store} {name other : String} {p : Path}
    (below : s.directory name <+: p) (h : name ≠ other) : ¬ s.directory other <+: p := by
  intro hother
  refine not_prefix_directory h (List.prefix_of_prefix_length_le hother below ?_)
  simp [directory]

section Calls
variable {s s' : Service} {id : JobId}

/-- Detaching other jobs leaves all files of a job where they are. -/
theorem node?_detachAll (plain : ".." ∉ s.store.root) (placed : Placed s)
    (issued : s.store.Issued id) {ids : List JobId} (other : id ∉ ids) {p : Path}
    (below : s.store.directory id <+: p) :
    (s.store.detachAll ids).2.files.node? p = s.store.files.node? p := by
  have hchain : (∀ i j, (s.store.detachAll ids).2.find? i = some j → s.store.find? i = some j) ∧
      (s.store.detachAll ids).2.files.node? p = s.store.files.node? p := by
    refine Store.detachAll_preserves (P := fun t =>
      (∀ i j, t.find? i = some j → s.store.find? i = some j) ∧
        t.files.node? p = s.store.files.node? p) ids ?_ ⟨fun _ _ h => h, rfl⟩
    rintro t i hi ⟨hfound, hnode⟩
    refine ⟨fun k j hj => ?_, ?_⟩
    · rw [Store.find?_detach] at hj
      split at hj
      · cases hj
      · exact hfound k j hj
    · rcases Store.detach_cases t i with
        ⟨-, heq⟩ | ⟨j, hj, ⟨-, heq⟩ | ⟨-, ⟨f, -, heq⟩ | ⟨files, hmove, heq⟩⟩⟩ <;> rw [heq]
      · exact hnode
      · exact hnode
      · exact hnode
      · have hthere := hfound i j hj
        have hne : id ≠ i := fun h => other (h ▸ hi)
        rw [placed.directories i j hthere, Store.trashOf_directory] at hmove
        have hspares : Spares p t.files files := .rename
          (Store.plain_directory plain (placed.issued_of_find? hthere).ne_dots)
          Store.directory_ne_nil (Store.plain_directory plain (trashName_ne_dots i))
          Store.directory_ne_nil (Store.not_prefix_of_below below hne)
          (Store.not_prefix_of_below below (issued.ne_trashName i)) hmove
        exact hspares.node.trans hnode
  exact hchain.2

theorem untouched_cancel {i : JobId} (h : id ≠ i) : Untouched id s (s.cancel i) where
  record := rfl
  task := by
    rw [task?_cancel]
    cases s.task? id with
    | none => rfl
    | some t => simp [h]
  process := rfl
  names := fun _ _ => rfl
  contents := rfl

/-- **A call leaves each job alone that it neither waits for nor removes.** -/
theorem CallMove.untouched (plain : ".." ∉ s.store.root) (placed : Placed s)
    (issued : s.store.Issued id) {goal : Goal} {phase phase' : CallPhase} {calls : List Call}
    (move : CallMove s goal phase s' phase')
    (waits : ∀ ids, phase = .cancelling ids → id ∉ ids) (kept : id ∉ goal.targets s)
    (removing : ∀ jobs, phase ≠ .patient jobs)
    (trashed : ∀ q, phase.trash.head? = some q → ∃ i, q = s.store.directory (trashName i)) :
    Untouched id s { s' with calls } := by
  have hsame {u : Service} (h : Untouched id s u) : Untouched id s { u with calls } :=
    ⟨h.record, h.task, h.process, h.names, h.contents⟩
  have hdetached {answer : Except StoreFault (List Path)} {store : Store}
      (detached : s.store.detachAll (goal.targets s) = (answer, store)) :
      Untouched id s (s.setStore store) := by
    have hfind := Store.find?_detachAll_of_not_mem (s := s.store) kept
    have hnode (p : Path) := node?_detachAll plain placed issued kept (p := p)
    have hcontents := (Store.shuffles_detachAll (s := s.store) (goal.targets s)).contents
    rw [detached] at hfind hnode hcontents
    exact ⟨hfind, rfl, rfl, hnode, hcontents⟩
  refine hsame ?_
  cases move with
  | idle | cleared | drained | astray => exact .refl id s
  | tell finished i rest t ended task =>
    exact untouched_cancel fun h => waits _ rfl (h ▸ List.mem_append_right finished List.mem_cons_self)
  | remove finished trash store removing ended detached => exact hdetached detached
  | refuse finished f store removing ended detached => exact hdetached detached
  | clear q rest removed =>
    obtain ⟨i, rfl⟩ := trashed q rfl
    have hspares (p : Path) (below : s.store.directory id <+: p) :
        Spares p s.store.files (s.store.clear [s.store.directory (trashName i)]).files :=
      .remove (Store.plain_directory plain (trashName_ne_dots i)) Store.directory_ne_nil
        (Store.not_prefix_of_below below (issued.ne_trashName i))
    exact ⟨rfl, rfl, rfl, fun p below => (hspares p below).node,
      contents_remove s.store.files _⟩
  | lose jobs live left settled => exact absurd rfl (removing jobs)

end Calls

theorem files_leave (s : Service) (id : JobId) (failure : Option String) :
    (s.leave id failure).store.files = s.store.files := by
  rw [leave_eq]
  exact files_leftStore

/-- A task that is stopped gives its downloads up, if it has some, and writes nothing. -/
theorem files_stop (s : Service) (t : Task) :
    (s.stop t).store.files = s.store.files ∨ ∃ ds, t.phase = .fetching ds ∧
      (s.stop t).store.files = (ds.abandon s.setup.fetcher s.store.files).2 := by
  unfold stop
  split
  · exact Or.inl rfl
  · exact Or.inl Store.transition_frame.2.2
  · rename_i ds phase
    exact Or.inr ⟨ds, phase, files_leave ..⟩
  · exact Or.inl (files_leave ..)
  · exact Or.inl (files_leave ..)
  · refine Or.inl ((files_leave ..).trans ?_)
    split <;> rfl

/-- **A task that was told to stop leaves all other jobs alone.** -/
theorem untouched_stop {s : Service} {id i : JobId} (plain : ".." ∉ s.store.root) (placed : Placed s)
    (supplied : Supplied s) (h : id ≠ i) {t : Task} (task : s.task? i = some t)
    (told : t.cancelled = true) : Untouched id s (s.step (.moved i)) := by
  obtain ⟨b, hmoves⟩ := step_moves (e := .moved i) rfl s
  obtain ⟨hrecord, htask, hprocess⟩ := hmoves.follows.others id h
  obtain rfl := job_of_task? task
  have hstop : s.step (.moved t.job) = s.stop t := by
    simp only [step, task, moveTask, told, if_true]
  rw [hstop] at hrecord htask hprocess ⊢
  rcases files_stop s t with hfiles | ⟨ds, phase, hfiles⟩
  · exact ⟨hrecord, htask, hprocess, fun p _ => congrArg (FileTree.node? · p) hfiles,
      congrArg FileTree.contents hfiles⟩
  have hassets : ".." ∉ s.store.directory t.job ++ [Job.assetsName] := Path.plain_concat
    (Store.plain_directory plain (placed.issued_of_task? task).ne_dots) (by decide)
  have habandon (p : Path) (below : s.store.directory id <+: p) :=
    Downloads.spares_abandon_of_targets (t := s.store.files) hassets
      (fun hp => Store.not_prefix_of_below below h ((List.prefix_append _ _).trans hp))
      (fun d hd => supplied.targets task phase hd) s.setup.fetcher
  rw [← hfiles] at habandon
  exact ⟨hrecord, htask, hprocess, fun p below => (habandon p below).1.node,
    (habandon _ (List.prefix_refl _)).2⟩

end Montage
