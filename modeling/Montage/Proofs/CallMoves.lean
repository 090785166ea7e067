import Montage.Proofs.TaskMoves

/-! # What submissions and calls can do

The rest of the events: a client submits, or a call moves.  A submission has four outcomes
(`Submitted`), which differ in what is left behind: nothing, a used up id, a job without a task,
or a job with one.

The moves of a call are those of its three parts (`CallMove`).  A call that removes jobs and a call
that only waits have the same first move, told by the jobs of which the call wants to know whether
they have a task.
-/
namespace Montage

open Service

/-! ### Submissions -/

/-- Files are written in a directory; none of them is an output. -/
inductive WrittenIn (directory : Path) (t : FileTree) : FileTree → Prop where
  | nothing : WrittenIn directory t t
  | more (name : String) (c : Content) (u v : FileTree) (before : WrittenIn directory t u)
      (other : name ≠ Job.outputName) (plain : name ≠ "..")
      (made : u.write (directory ++ [name]) c = .ok v) : WrittenIn directory t v

/-- What a submission that comes to nothing leaves of its directory. -/
inductive GivenUp (directory : Path) (t : FileTree) : FileTree → Prop where
  | unmade : GivenUp directory t t
  | left (u v : FileTree) (made : t.makeDirectory directory = .ok u)
      (written : WrittenIn directory u v) : GivenUp directory t v
  | removed (u v w : FileTree) (made : t.makeDirectory directory = .ok u)
      (written : WrittenIn directory u v)
      (aside : v.rename directory (Store.trashOf directory) = .ok w) :
      GivenUp directory t (w.remove (Store.trashOf directory))

/-- The store with a new job. -/
def Store.register (s : Store) (now : Number) (files : FileTree) : Store :=
  { s with issued := s.issued + 1, files, jobs := s.jobs ++ [s.newJob now now] }

theorem Store.find?_register (s : Store) (now : Number) (files : FileTree) (id : JobId) :
    (s.register now files).find? id =
      (s.find? id).or (if jobId (s.issued + 1) = id then some (s.newJob now now) else none) :=
  Store.find?_append ..

/-- A record of a store with a new job was there before, or it is the new one. -/
theorem Store.find?_register_eq_some {s : Store} {now : Number} {files : FileTree} {id : JobId}
    {j : Job} (h : (s.register now files).find? id = some j) :
    s.find? id = some j ∨ id = jobId (s.issued + 1) ∧ j = s.newJob now now := by
  rw [Store.find?_register, Option.or_eq_some_iff] at h
  rcases h with h | ⟨-, h⟩
  · exact Or.inl h
  · split at h
    · rename_i hid
      exact Or.inr ⟨hid.symm, (Option.some.inj h).symm⟩
    · cases h

theorem Store.Numbered.register {s : Store} (h : s.Numbered) (now : Number) (files : FileTree) :
    (s.register now files).Numbered where
  issued := fun j hj => by
    rcases List.mem_append.mp hj with hj | hj
    · obtain ⟨n, hn, hid⟩ := h.issued j hj
      exact ⟨n, Nat.le_succ_of_le hn, hid⟩
    · exact ⟨s.issued + 1, Nat.le_refl _, by rw [List.mem_singleton.mp hj]; rfl⟩
  unique := by
    rw [Store.register, List.map_append]
    refine List.nodup_append'.mpr ⟨h.unique, List.nodup_singleton _, fun id hid hid' => ?_⟩
    obtain ⟨j, hj, rfl⟩ := List.mem_map.mp hid
    exact h.fresh j hj (List.mem_singleton.mp hid')

/-- What a submission can come to. -/
inductive Submitted (s : Service) (submission : Submission) :
    Except SubmitFault JobId → Service → Prop where
  | refused (f : SubmitFault) (whole : ∀ run, f ≠ .torn run) : Submitted s submission (.error f) s
  /-- The id is used up. -/
  | lost (f : SubmitFault) (files : FileTree) (whole : ∀ run, f ≠ .torn run)
      (open' : s.accepting = true)
      (left : GivenUp (s.store.directory (jobId (s.store.issued + 1))) s.store.files files) :
      Submitted s submission (.error f)
        (s.setStore { s.store with issued := s.store.issued + 1, files })
  | torn (run : HalvedRun) (made files : FileTree) (open' : s.accepting = true)
      (half : submission.tear? = some run) (date : Timestamp.check s.rounding s.now = .ok ())
      (directory : s.store.files.makeDirectory
        (s.store.directory (jobId (s.store.issued + 1))) = .ok made)
      (written : WrittenIn (s.store.directory (jobId (s.store.issued + 1))) made files) :
      Submitted s submission (.error (.torn run)) (s.setStore (s.store.register s.now files))
  | accepted (t : Timeline) (made files : FileTree) (open' : s.accepting = true)
      (checked : t.check s.rounding = .ok ()) (date : Timestamp.check s.rounding s.now = .ok ())
      (directory : s.store.files.makeDirectory
        (s.store.directory (jobId (s.store.issued + 1))) = .ok made)
      (written : WrittenIn (s.store.directory (jobId (s.store.issued + 1))) made files) :
      Submitted s submission (.ok (jobId (s.store.issued + 1))) { s with
        store := s.store.register s.now files
        tasks := s.tasks ++ [⟨jobId (s.store.issued + 1), t, .created, false⟩] }

theorem FileTree.writtenIn_writeRequest {t u : FileTree} {directory : Path}
    {submission : Submission} {disk : Option DiskRefusal}
    (h : t.writeRequest directory submission disk = .ok u) : WrittenIn directory t u := by
  unfold FileTree.writeRequest at h
  split at h
  · cases h
  · exact .more _ _ t u .nothing (by decide) (by decide) h

theorem FileTree.writtenIn_storeTimeline {t u v : FileTree} {directory : Path}
    {timeline : Timeline} {disk : Option DiskRefusal} (before : WrittenIn directory t u)
    (h : u.storeTimeline directory timeline disk = .ok v) : WrittenIn directory t v := by
  unfold FileTree.storeTimeline at h
  split at h
  · cases h
  · exact .more _ _ u v before (by decide) (by decide) h

namespace Service
variable {s : Service} {id : JobId}

/-- Giving a new job up leaves the records as they were before it. -/
theorem giveUp_cases (hnumbered : s.store.Numbered) (hopen : s.accepting = true)
    (submission : Submission) {made files : FileTree}
    (hmade : s.store.files.makeDirectory
      (s.store.directory (jobId (s.store.issued + 1))) = .ok made)
    (written : WrittenIn (s.store.directory (jobId (s.store.issued + 1))) made files)
    (f : FileFault) :
    Submitted s submission
      ((s.setStore (s.store.register s.now files)).giveUp (jobId (s.store.issued + 1)) f).1
      ((s.setStore (s.store.register s.now files)).giveUp (jobId (s.store.issued + 1)) f).2 := by
  have hfound : (s.store.register s.now files).find? (jobId (s.store.issued + 1)) =
      some (s.store.newJob s.now s.now) := by
    rw [Store.register, Store.find?_append, hnumbered.find?_next]
    simp [Store.newJob, Job.fresh]
  have hjobs : (s.store.register s.now files).jobs.filter
      (fun j => j.id != jobId (s.store.issued + 1)) = s.store.jobs := by
    rw [Store.register, List.filter_append, List.filter_eq_self.mpr fun j hj => by
      simpa using hnumbered.fresh j hj]
    simp [Store.newJob, Job.fresh]
  unfold giveUp Store.delete
  rcases Store.detach_cases (s.store.register s.now files) (jobId (s.store.issued + 1)) with
    ⟨hnone, -⟩ | ⟨j, hj, ⟨hthere, heq⟩ | ⟨hthere, ⟨g, hmove, heq⟩ | ⟨moved, hmove, heq⟩⟩⟩
  · exact nomatch hnone.symm.trans hfound
  · simp only [store_setStore, heq, hjobs]
    exact .lost (.store (.files f)) files nofun hopen (.left made files hmade written)
  · simp only [store_setStore, heq, hjobs]
    exact .lost (.store (.files g)) files nofun hopen (.left made files hmade written)
  · obtain rfl : j = s.store.newJob s.now s.now := Option.some.inj (hj.symm.trans hfound)
    simp only [store_setStore, heq, hjobs]
    exact .lost (.store (.files f)) _ nofun hopen (.removed made files moved hmade written hmove)

theorem accept_cases (hnumbered : s.store.Numbered) (hopen : s.accepting = true)
    {submission : Submission} {t : Timeline} (checked : t.check s.rounding = .ok ())
    (disk : Option DiskRefusal) :
    Submitted s submission (s.accept submission t disk).1 (s.accept submission t disk).2 := by
  unfold accept
  rcases heq : s.store.create s.rounding s.now with ⟨answer, store⟩
  -- the store makes the directory first and looks at the clock then
  simp only [Store.create] at heq
  split at heq
  · cases heq
    exact .lost (.store (.files _)) s.store.files (fun _ => SubmitFault.noConfusion) hopen .unmade
  · rename_i made hmade
    split at heq
    · cases heq
      exact .lost (.store (.clock _)) made (fun _ => SubmitFault.noConfusion) hopen
        (.left made made hmade .nothing)
    · rename_i hdate
      cases heq
      dsimp only
      split
      · rename_i f hrequest
        exact giveUp_cases hnumbered hopen submission hmade .nothing f
      · rename_i files hrequest
        have hwritten := FileTree.writtenIn_writeRequest hrequest
        split
        · rename_i run htear
          exact .torn run made files hopen htear hdate hmade hwritten
        · split
          · rename_i f htimeline
            exact giveUp_cases hnumbered hopen submission hmade hwritten f
          · rename_i more htimeline
            exact .accepted t made more hopen checked hdate hmade
              (FileTree.writtenIn_storeTimeline hwritten htimeline)

/-- **A submission has one of four outcomes.** -/
theorem submit_cases (hnumbered : s.store.Numbered) (submission : Submission)
    (disk : Option DiskRefusal) :
    Submitted s submission (s.submit submission disk).1 (s.submit submission disk).2 := by
  unfold submit
  split
  · rename_i hopen
    split
    · exact .refused _ nofun
    · split
      · exact .refused _ nofun
      · rename_i hchecked
        exact accept_cases hnumbered hopen hchecked disk
  · exact .refused .draining nofun

end Service

theorem Submitted.frame {s s' : Service} {submission : Submission}
    {answer : Except SubmitFault JobId} (h : Submitted s submission answer s') :
    s'.setup = s.setup ∧ s'.calls = s.calls ∧ s'.accepting = s.accepting ∧ s'.now = s.now ∧
      s'.store.root = s.store.root ∧ s'.processes = s.processes ∧ s'.slots = s.slots := by
  cases h <;> exact ⟨rfl, rfl, rfl, rfl, rfl, rfl, rfl⟩

theorem Submitted.issued {s s' : Service} {submission : Submission}
    {answer : Except SubmitFault JobId} (h : Submitted s submission answer s') :
    s.store.issued ≤ s'.store.issued := by
  cases h with
  | refused => exact Nat.le_refl _
  | lost | torn | accepted => exact Nat.le_succ _

/-- A record was there before, or it is that of the new job. -/
theorem Submitted.record {s s' : Service} {submission : Submission}
    {answer : Except SubmitFault JobId} (h : Submitted s submission answer s') {id : JobId} {j : Job}
    (hj : s'.store.find? id = some j) :
    s.store.find? id = some j ∨
      id = jobId (s.store.issued + 1) ∧ j = s.store.newJob s.now s.now := by
  cases h with
  | refused | lost => exact Or.inl hj
  | torn | accepted => exact Store.find?_register_eq_some hj

/-- No record is lost. -/
theorem Submitted.kept {s s' : Service} {submission : Submission}
    {answer : Except SubmitFault JobId} (h : Submitted s submission answer s') {id : JobId}
    (gone : s'.store.find? id = none) : s.store.find? id = none := by
  cases h with
  | refused | lost => exact gone
  | torn | accepted =>
    change (s.store.register _ _).find? id = none at gone
    rw [Store.find?_register, Option.or_eq_none_iff] at gone
    exact gone.1

/-- A task was there before, or it is that of the new job. -/
theorem Submitted.task {s s' : Service} {submission : Submission}
    {answer : Except SubmitFault JobId} (h : Submitted s submission answer s') {id : JobId}
    {t' : Task} (ht' : s'.task? id = some t') :
    s.task? id = some t' ∨ id = jobId (s.store.issued + 1) ∧ t'.phase = .created := by
  cases h with
  | refused | lost | torn => exact Or.inl ht'
  | accepted =>
    rcases task?_append_eq_some ht' with hold | ⟨rfl, rfl⟩
    · exact Or.inl hold
    · exact Or.inr ⟨rfl, rfl⟩

/-! ### Calls -/

def Goal.isDrain : Goal → Bool
  | drain _ => true
  | _ => false

/-- The call has come to its end because a directory could not be moved aside. -/
def Call.isBroken (c : Call) : Bool :=
  match c.phase with
  | .done (.error (.files _)) => true
  | _ => false

/-- The jobs that a call removes when it comes to that. -/
def Goal.targets (s : Service) : Goal → List JobId
  | delete id | forget id => [id]
  | sweep time => s.store.expired s.rounding s.setup.lifetime time
  | drain _ => []

/-- The jobs whose tasks are told to stop when a call begins. -/
def Goal.marked (s : Service) : Goal → List JobId
  | delete id => [id]
  | sweep time => s.store.expired s.rounding s.setup.lifetime time
  | forget _ | drain _ => []

/-- A move of a call: where it stood, the service after it, and where it stands. -/
inductive CallMove (s : Service) (goal : Goal) : CallPhase → Service → CallPhase → Prop where
  | idle (phase : CallPhase) : CallMove s goal phase s phase
  /-- The first job that has a task is told to stop. -/
  | tell (finished : List JobId) (id : JobId) (rest : List JobId) (t : Task)
      (ended : ∀ i ∈ finished, s.task? i = none) (task : s.task? id = some t) :
      CallMove s goal (.cancelling (finished ++ id :: rest)) (s.cancel id) (.cancelling (id :: rest))
  | remove (finished : List JobId) (trash : List Path) (store : Store) (removing : goal.isDrain = false)
      (ended : ∀ i ∈ finished, s.task? i = none)
      (detached : s.store.detachAll (goal.targets s) = (.ok trash, store)) :
      CallMove s goal (.cancelling finished) (s.setStore store) (.clearing trash (goal.targets s))
  | refuse (finished : List JobId) (f : StoreFault) (store : Store) (removing : goal.isDrain = false)
      (ended : ∀ i ∈ finished, s.task? i = none)
      (detached : s.store.detachAll (goal.targets s) = (.error f, store)) :
      CallMove s goal (.cancelling finished) (s.setStore store) (.done (.error f))
  | clear (p : Path) (rest : List Path) (removed : List JobId) :
      CallMove s goal (.clearing (p :: rest) removed) (s.setStore (s.store.clear [p]))
        (.clearing rest removed)
  | cleared (removed : List JobId) : CallMove s goal (.clearing [] removed) s (.done (.ok removed))
  /-- None of the tasks is left that a call waits for. -/
  | drained (phase : CallPhase) (jobs : List JobId)
      (waiting : phase = .patient jobs ∨ phase = .gathering jobs)
      (ended : s.anyLive jobs = false) : CallMove s goal phase s (.done (.ok []))
  | lose (jobs live : List JobId) (left : live = jobs.filter fun id => (s.task? id).isSome)
      (settled : live.any s.isNew = false) :
      CallMove s goal (.patient jobs) (live.foldl cancel s) (.gathering live)
  /-- A call that drains never stands here. -/
  | astray (finished : List JobId) (draining : goal.isDrain = true) :
      CallMove s goal (.cancelling finished) s (.done (.ok []))

namespace Service
variable {s : Service} {goal : Goal}

theorem remove_cases (ids : List JobId) (ended : ∀ i ∈ ids, s.task? i = none) :
    CallMove s goal (.cancelling ids) (s.remove goal).1 (s.remove goal).2 := by
  cases goal with
  | delete id | forget id =>
    simp only [remove]
    -- removing one job is removing a list of one
    rcases hdetach : s.store.detach id with ⟨f | trash, store⟩
    · exact .refuse ids f store rfl ended (by simp [Goal.targets, Store.detachAll, hdetach])
    · exact .remove ids trash.toList store rfl ended
        (by simp [Goal.targets, Store.detachAll, hdetach])
  | sweep time =>
    simp only [remove]
    rcases hdetach : s.store.detachAll (s.store.expired s.rounding s.setup.lifetime time) with
      ⟨f | trash, store⟩
    · exact .refuse ids f store rfl ended hdetach
    · exact .remove ids trash store rfl ended hdetach
  | drain patience => exact .astray ids rfl

theorem cancelNext_cases (finished ids : List JobId) (ended : ∀ i ∈ finished, s.task? i = none) :
    CallMove s goal (.cancelling (finished ++ ids)) (s.cancelNext goal ids).1
      (s.cancelNext goal ids).2 := by
  induction ids generalizing finished with
  | nil =>
    rw [List.append_nil]
    exact remove_cases finished ended
  | cons id rest ih =>
    rw [cancelNext]
    split
    · rename_i hlive
      obtain ⟨t, task⟩ := Option.isSome_iff_exists.mp hlive
      exact .tell finished id rest t ended task
    · rename_i hover
      -- a job without a task joins those that are over
      have hmore := ih (finished ++ [id]) fun i hi => by
        rcases List.mem_append.mp hi with hi | hi
        · exact ended i hi
        · rw [List.mem_singleton.mp hi]
          exact Option.not_isSome_iff_eq_none.mp hover
      rwa [List.append_assoc] at hmore

theorem remove_not_cancelling (goal : Goal) (ids : List JobId) :
    (s.remove goal).2 ≠ .cancelling ids := by
  intro h
  cases goal with
  | delete id | forget id | sweep time =>
    simp only [remove] at h
    split at h <;> cases h
  | drain patience => cases h

/-- A call waits only for a task that is there. -/
theorem started_of_cancelNext (ids : List JobId) {waiting : List JobId}
    (h : (s.cancelNext goal ids).2 = .cancelling waiting) :
    ∃ id rest t, waiting = id :: rest ∧ s.task? id = some t := by
  induction ids with
  | nil => exact absurd h (remove_not_cancelling goal waiting)
  | cons id rest ih =>
    rw [cancelNext] at h
    split at h
    · rename_i hlive
      obtain ⟨t, task⟩ := Option.isSome_iff_exists.mp hlive
      cases h
      exact ⟨id, rest, t, rfl, task⟩
    · exact ih h

theorem started_of_beginCall (s : Service) (goal : Goal) (waiting : List JobId)
    (h : (s.beginCall goal).2 = .cancelling waiting) :
    ∃ id rest t, waiting = id :: rest ∧ s.task? id = some t := by
  cases goal with
  | delete id => exact started_of_cancelNext [id] h
  | forget id => exact absurd h (remove_not_cancelling _ waiting)
  | sweep time => exact started_of_cancelNext _ h
  | drain patience =>
    simp only [beginCall] at h
    split at h <;> cases h

/-- A call that waits for a task has told it to stop. -/
theorem told_of_cancelNext (ids : List JobId) {id : JobId} {rest : List JobId}
    (h : (s.cancelNext goal ids).2 = .cancelling (id :: rest)) :
    (s.cancelNext goal ids).1 = s.cancel id := by
  induction ids with
  | nil => exact absurd h (remove_not_cancelling goal _)
  | cons first more ih =>
    rw [cancelNext] at h ⊢
    split at h
    · rename_i hlive
      cases h
      rw [if_pos hlive]
    · rename_i hover
      rw [if_neg hover]
      exact ih h

theorem told_of_beginCall (s : Service) (goal : Goal) (id : JobId) (rest : List JobId)
    (h : (s.beginCall goal).2 = .cancelling (id :: rest)) : (s.beginCall goal).1 = s.cancel id := by
  cases goal with
  | delete i => exact told_of_cancelNext [i] h
  | forget i => exact absurd h (remove_not_cancelling _ _)
  | sweep time => exact told_of_cancelNext _ h
  | drain patience =>
    simp only [beginCall] at h
    split at h <;> cases h

theorem advance_cases (phase : CallPhase) :
    CallMove s goal phase (s.advance goal phase).1 (s.advance goal phase).2 := by
  cases phase with
  | cancelling ids =>
    cases ids with
    | nil => exact remove_cases [] nofun
    | cons id rest =>
      rw [advance]
      split
      · exact .idle _
      · rename_i hover
        refine cancelNext_cases [id] rest fun i hi => ?_
        rw [List.mem_singleton.mp hi]
        exact Option.not_isSome_iff_eq_none.mp hover
  | patient jobs | gathering jobs =>
    rw [advance]
    split
    · exact .idle _
    · rename_i hover
      exact .drained _ jobs (by simp) (by simpa using hover)
  | clearing trash removed =>
    cases trash with
    | nil => exact .cleared removed
    | cons p rest => exact .clear p rest removed
  | done r => exact .idle _

theorem losePatience_cases (phase : CallPhase) :
    CallMove s goal phase (s.losePatience phase).1 (s.losePatience phase).2 := by
  cases phase with
  | patient jobs =>
    simp only [losePatience]
    split
    · exact .idle _
    · rename_i hsettled
      exact .lose jobs _ rfl (by simpa using hsettled)
  | cancelling ids | gathering jobs | clearing trash removed | done r => exact .idle _

theorem beginCall_cases (hgoal : goal.isDrain = false) :
    CallMove s goal (.cancelling (goal.marked s)) (s.beginCall goal).1 (s.beginCall goal).2 := by
  cases goal with
  | delete id => exact cancelNext_cases [] [id] nofun
  | forget id => exact remove_cases [] nofun
  | sweep time => exact cancelNext_cases [] _ nofun
  | drain patience => cases hgoal

end Service

theorem sameFrame_cancelAll (ids : List JobId) (s : Service) :
    SameFrame s (ids.foldl cancel s) := by
  induction ids generalizing s with
  | nil => exact ⟨rfl, rfl, rfl, rfl, rfl, rfl⟩
  | cons id rest ih =>
    have hrest := ih (s.cancel id)
    exact ⟨hrest.setup, hrest.calls, hrest.accepting, hrest.now, hrest.root, hrest.issued⟩

theorem store_cancelAll (ids : List JobId) (s : Service) : (ids.foldl cancel s).store = s.store := by
  induction ids generalizing s with
  | nil => rfl
  | cons id rest ih => exact ih (s.cancel id)

theorem processes_cancelAll (ids : List JobId) (s : Service) :
    (ids.foldl cancel s).processes = s.processes := by
  induction ids generalizing s with
  | nil => rfl
  | cons id rest ih => exact ih (s.cancel id)

theorem sameFrame_detachAll {s : Service} {ids : List JobId}
    {answer : Except StoreFault (List Path)} {store : Store}
    (detached : s.store.detachAll ids = (answer, store)) : SameFrame s (s.setStore store) := by
  have hroot := Store.root_detachAll (s := s.store) ids
  have hissued := (Store.detachAll_sublist (s := s.store) ids).2
  rw [detached] at hroot hissued
  exact ⟨rfl, rfl, rfl, rfl, hroot, hissued⟩

/-- A move of a call does not change what is outside the tables. -/
theorem CallMove.sameFrame {s s' : Service} {goal : Goal} {phase phase' : CallPhase}
    (h : CallMove s goal phase s' phase') : SameFrame s s' := by
  cases h with
  | lose jobs live left settled => exact sameFrame_cancelAll live s
  | remove finished trash store removing ended detached => exact sameFrame_detachAll detached
  | refuse finished f store removing ended detached => exact sameFrame_detachAll detached
  | _ => exact ⟨rfl, rfl, rfl, rfl, rfl, rfl⟩

/-- No move of a call ends a task or lets one begin. -/
theorem CallMove.isSome_task? {s s' : Service} {goal : Goal} {phase phase' : CallPhase}
    (h : CallMove s goal phase s' phase') (id : JobId) :
    (s'.task? id).isSome = (s.task? id).isSome := by
  have hcancel (s : Service) (i : JobId) :
      ((s.cancel i).task? id).isSome = (s.task? id).isSome := by
    rw [task?_cancel, Option.isSome_map]
  cases h with
  | tell finished i rest t ended task => exact hcancel s i
  | lose jobs live left settled =>
    clear left settled
    induction live generalizing s with
    | nil => rfl
    | cons i rest ih => exact (ih (s := s.cancel i)).trans (hcancel s i)
  | _ => rfl

/-- A call changes nothing of a task but that it is told to stop. -/
theorem CallMove.task?_eq_told {s s' : Service} {goal : Goal} {phase phase' : CallPhase}
    (h : CallMove s goal phase s' phase') {id : JobId} {t' : Task} (ht' : s'.task? id = some t') :
    ∃ t, s.task? id = some t ∧ t' = { t with cancelled := t'.cancelled } ∧
      (t.cancelled = true → t'.cancelled = true) := by
  have hcancel {s : Service} {i : JobId} {t' : Task} (ht' : (s.cancel i).task? id = some t') :
      ∃ t, s.task? id = some t ∧ t' = { t with cancelled := t'.cancelled } ∧
        (t.cancelled = true → t'.cancelled = true) := by
    rw [task?_cancel] at ht'
    obtain ⟨t, ht, rfl⟩ := Option.map_eq_some_iff.mp ht'
    refine ⟨t, ht, ?_⟩
    split
    · exact ⟨rfl, fun _ => rfl⟩
    · exact ⟨rfl, fun h => h⟩
  cases h with
  | tell finished i rest t ended task => exact hcancel ht'
  | lose jobs live left settled =>
    clear left settled
    induction live generalizing s with
    | nil => exact ⟨t', ht', rfl, fun h => h⟩
    | cons i rest ih =>
      obtain ⟨u, hu, hsame, htold⟩ := ih (s := s.cancel i) ht'
      obtain ⟨t, ht, hsame', htold'⟩ := hcancel hu
      exact ⟨t, ht, by rw [hsame, hsame'], fun h => htold (htold' h)⟩
  | _ => exact ⟨t', ht', rfl, fun h => h⟩

theorem CallMove.task?_eq_some {s s' : Service} {goal : Goal} {phase phase' : CallPhase}
    (h : CallMove s goal phase s' phase') {id : JobId} {t' : Task} (ht' : s'.task? id = some t') :
    ∃ t, s.task? id = some t ∧ t'.phase = t.phase ∧ (t.cancelled = true → t'.cancelled = true) := by
  obtain ⟨t, ht, hsame, htold⟩ := h.task?_eq_told ht'
  exact ⟨t, ht, by rw [hsame], htold⟩

/-- Calls have nothing to do with processes. -/
theorem CallMove.processes {s s' : Service} {goal : Goal} {phase phase' : CallPhase}
    (h : CallMove s goal phase s' phase') : s'.processes = s.processes := by
  cases h with
  | lose jobs live left settled => exact processes_cancelAll live s
  | _ => rfl

/-- No move of a call adds a record or changes one. -/
theorem CallMove.jobs_sublist {s s' : Service} {goal : Goal} {phase phase' : CallPhase}
    (h : CallMove s goal phase s' phase') : s'.store.jobs.Sublist s.store.jobs := by
  have hdetached {answer : Except StoreFault (List Path)} {store : Store}
      (detached : s.store.detachAll (goal.targets s) = (answer, store)) :
      store.jobs.Sublist s.store.jobs := by
    have hjobs := (Store.detachAll_sublist (s := s.store) (goal.targets s)).1
    rwa [detached] at hjobs
  cases h with
  | remove finished trash store removing ended detached => exact hdetached detached
  | refuse finished f store removing ended detached => exact hdetached detached
  | lose jobs live left settled => exact store_cancelAll live s ▸ List.Sublist.refl _
  | _ => exact List.Sublist.refl _

/-- A call that is over stays where it is. -/
theorem CallMove.of_done {s s' : Service} {goal : Goal} {phase' : CallPhase}
    {r : Except StoreFault (List JobId)} (h : CallMove s goal (.done r) s' phase') :
    phase' = .done r := by
  cases h with
  | idle => rfl
  | drained _ jobs waiting ended => rcases waiting with waiting | waiting <;> cases waiting

/-! ### Events -/

/-- What can happen to a service with an event. -/
inductive Happening (s : Service) : Event → Service → Prop where
  | job (id : JobId) (e : Event) (b : Bool) (s' : Service) (about : e.job? = some id)
      (moves : Moves id s b s') : Happening s e s'
  | submit (submission : Submission) (disk : Option DiskRefusal) (s' : Service)
      (outcome : Submitted s submission (s.submit submission disk).1 s') :
      Happening s (.submitted submission disk) s'
  /-- A call begins that removes jobs. -/
  | ask (goal : Goal) (s' : Service) (phase : CallPhase) (removing : goal.isDrain = false)
      (move : CallMove s goal (.cancelling (goal.marked s)) s' phase)
      (started : ∀ waiting, phase = .cancelling waiting →
        ∃ id rest t, waiting = id :: rest ∧ s.task? id = some t)
      (told : ∀ id rest, phase = .cancelling (id :: rest) → s' = s.cancel id) :
      Happening s (.asked goal) { s' with calls := s.calls ++ [⟨goal, phase⟩] }
  | drain (patience : Number) (phase : CallPhase)
      (waiting : s.tasks = [] ∧ phase = .done (.ok []) ∨ phase = .patient (s.tasks.map Task.job)) :
      Happening s (.asked (.drain patience))
        { s with accepting := false, calls := s.calls ++ [⟨.drain patience, phase⟩] }
  | call (e : Event) (index : Nat) (c : Call) (s' : Service) (phase : CallPhase)
      (about : e = .advanced index ∨ e = .outOfPatience index) (call : s.calls[index]? = some c)
      (move : CallMove s c.goal c.phase s' phase) :
      Happening s e { s' with calls := s.calls.set index ⟨c.goal, phase⟩ }
  | noCall (e : Event) (index : Nat) (about : e = .advanced index ∨ e = .outOfPatience index)
      (missing : s.calls[index]? = none) : Happening s e s
  | tick (seconds : Number) :
      Happening s (.ticked seconds) { s with now := Number.add s.rounding s.now seconds }
  | disk (files : FileTree) : Happening s (.disk files) (s.setFiles files)

namespace Service
variable {s : Service}

theorem withCall_cases {e : Event} {index : Nat}
    {f : Service → Goal → CallPhase → Service × CallPhase}
    (about : e = .advanced index ∨ e = .outOfPatience index)
    (hf : ∀ goal phase, CallMove s goal phase (f s goal phase).1 (f s goal phase).2) :
    Happening s e (s.withCall index f) := by
  unfold withCall
  split
  · rename_i hmissing
    exact .noCall e index about hmissing
  · rename_i c hcall
    have hmove := hf c.goal c.phase
    have hcalls := hmove.sameFrame.calls
    rcases heq : f s c.goal c.phase with ⟨s', phase⟩
    rw [heq] at hmove hcalls
    dsimp only at hcalls ⊢
    rw [hcalls]
    exact .call e index c s' phase about hcall hmove

/-- **What a step can do**, said once for all that follows. -/
theorem step_cases (hnumbered : s.store.Numbered) (e : Event) : Happening s e (s.step e) := by
  have hjob (id : JobId) (about : e.job? = some id) : Happening s e (s.step e) := by
    obtain ⟨b, hmoves⟩ := step_moves about s
    exact .job id e b _ about hmoves
  cases e with
  | moved id | download id | probed id | spawned id | wrote id | produced id | exited id
  | raised id | strayed id => exact hjob id rfl
  | submitted submission disk => exact .submit submission disk _ (submit_cases hnumbered _ _)
  | ticked seconds => exact .tick seconds
  | disk files => exact .disk files
  | advanced index => exact withCall_cases (Or.inl rfl) fun goal phase => advance_cases phase
  | outOfPatience index =>
    exact withCall_cases (f := fun s _ phase => s.losePatience phase) (Or.inr rfl)
      fun goal phase => losePatience_cases phase
  | asked goal =>
    have hremoving (removing : goal.isDrain = false) :
        Happening s (.asked goal) (s.step (.asked goal)) := by
      have hmove := beginCall_cases (s := s) removing
      have hcalls := hmove.sameFrame.calls
      have hstarted := started_of_beginCall s goal
      have htold := told_of_beginCall s goal
      rw [step, ask]
      rcases heq : s.beginCall goal with ⟨s', phase⟩
      rw [heq] at hmove hcalls hstarted htold
      dsimp only at hcalls ⊢
      rw [hcalls]
      exact .ask goal s' phase removing hmove hstarted htold
    cases goal with
    | delete id | forget id | sweep time => exact hremoving rfl
    | drain patience =>
      rw [step, ask, beginCall]
      dsimp only
      split
      · rename_i htasks
        exact .drain patience _ (Or.inl ⟨List.map_eq_nil_iff.mp htasks, rfl⟩)
      · exact .drain patience _ (Or.inr rfl)

/-- How a call has come to stand where it stands after an event. -/
inductive CallStep (s : Service) (e : Event) (s' : Service) (i : Nat) (c : Call) : Prop where
  | kept (before : s.calls[i]? = some c) : CallStep s e s' i c
  | moved (u : Service) (phase : CallPhase) (about : e = .advanced i ∨ e = .outOfPatience i)
      (before : s.calls[i]? = some ⟨c.goal, phase⟩) (move : CallMove s c.goal phase u c.phase)
      (after : s' = { u with calls := s.calls.set i c }) : CallStep s e s' i c
  | begun (u : Service) (about : e = .asked c.goal) (new : i = s.calls.length)
      (removing : c.goal.isDrain = false)
      (move : CallMove s c.goal (.cancelling (c.goal.marked s)) u c.phase)
      (told : ∀ waiting, c.phase = .cancelling waiting →
        ∃ id rest t, waiting = id :: rest ∧ s.task? id = some t ∧ u = s.cancel id)
      (after : s' = { u with calls := s.calls ++ [c] }) : CallStep s e s' i c
  | drains (about : e = .asked c.goal) (new : i = s.calls.length) (draining : c.goal.isDrain = true)
      (waiting : c.phase = .done (.ok []) ∨ c.phase = .patient (s.tasks.map Task.job)) :
      CallStep s e s' i c

/-- Calls keep their numbers, and an event is about one of them at most. -/
theorem call_step (hnumbered : s.store.Numbered) {e : Event} {i : Nat} {c : Call}
    (hc : (s.step e).calls[i]? = some c) : CallStep s e (s.step e) i c := by
  have hlast {last : Call} (hc : (s.calls ++ [last])[i]? = some c) :
      s.calls[i]? = some c ∨ i = s.calls.length ∧ c = last := by
    rw [List.getElem?_append] at hc
    split at hc
    · exact Or.inl hc
    · rename_i hi
      have hlength : i - s.calls.length = 0 := by
        simpa using (List.getElem?_eq_some_iff.mp hc).1
      rw [hlength] at hc
      exact Or.inr ⟨by omega, (Option.some.inj hc).symm⟩
  generalize hs' : s.step e = s' at hc
  have hcases := step_cases hnumbered e
  rw [hs'] at hcases
  cases hcases with
  | job id e b s' about moves => exact .kept (moves.sameFrame.calls ▸ hc)
  | submit submission disk s' outcome => exact .kept (outcome.frame.2.1 ▸ hc)
  | ask goal s' phase removing move started told =>
    rcases hlast hc with hold | ⟨rfl, rfl⟩
    · exact .kept hold
    · refine .begun s' rfl rfl removing move (fun waiting hwaiting => ?_) rfl
      obtain ⟨id, rest, t, rfl, task⟩ := started waiting hwaiting
      exact ⟨id, rest, t, rfl, task, told id rest hwaiting⟩
  | drain patience phase waiting =>
    rcases hlast hc with hold | ⟨rfl, rfl⟩
    · exact .kept hold
    · exact .drains rfl rfl rfl (waiting.imp_left And.right)
  | call e index d s' phase about call move =>
    by_cases hi : index = i
    · subst hi
      rw [List.getElem?_set_self (List.getElem?_eq_some_iff.mp call).1] at hc
      cases hc
      exact .moved s' d.phase about call move rfl
    · rw [List.getElem?_set_ne hi] at hc
      exact .kept hc
  | noCall | tick | disk => exact .kept hc

/-- A call that is there stays, and perhaps it moves. -/
theorem exists_call_step (hnumbered : s.store.Numbered) (e : Event) {i : Nat} {c : Call}
    (hc : s.calls[i]? = some c) : ∃ c', (s.step e).calls[i]? = some c' ∧
      (c' = c ∨ c'.goal = c.goal ∧ ∃ u, CallMove s c.goal c.phase u c'.phase) := by
  have hlength : i < s.calls.length := (List.getElem?_eq_some_iff.mp hc).1
  have hmore : s.calls.length ≤ (s.step e).calls.length := by
    generalize hs' : s.step e = s'
    have hcases := step_cases hnumbered e
    rw [hs'] at hcases
    cases hcases with
    | job id e b s' about moves => exact Nat.le_of_eq (congrArg _ moves.sameFrame.calls).symm
    | submit submission disk s' outcome => exact Nat.le_of_eq (congrArg _ outcome.frame.2.1).symm
    | ask | drain => simp
    | call => simp
    | noCall | tick | disk => exact Nat.le_refl _
  refine ⟨(s.step e).calls[i], List.getElem?_eq_getElem _, ?_⟩
  cases call_step hnumbered (List.getElem?_eq_getElem (Nat.lt_of_lt_of_le hlength hmore)) with
  | kept before => exact Or.inl (Option.some.inj (before.symm.trans hc))
  | moved u phase about before move after =>
    obtain rfl := Option.some.inj (before.symm.trans hc)
    exact Or.inr ⟨rfl, u, move⟩
  | begun _ _ new | drains _ new => exact absurd new (Nat.ne_of_lt hlength)

/-- Calls keep their numbers, and one that is over keeps its result. -/
theorem calls_step_of_done (hnumbered : s.store.Numbered) (e : Event) {index : Nat} {goal : Goal}
    {r : Except StoreFault (List JobId)} (h : s.calls[index]? = some ⟨goal, .done r⟩) :
    (s.step e).calls[index]? = some ⟨goal, .done r⟩ := by
  obtain ⟨c, hc, rfl | ⟨hgoal, u, move⟩⟩ := exists_call_step hnumbered e h
  · exact hc
  · have hdone : c = ⟨goal, .done r⟩ := by
      obtain ⟨goal', phase'⟩ := c
      obtain rfl : goal' = goal := hgoal
      exact congrArg _ move.of_done
    exact hdone ▸ hc

theorem setup_step (hnumbered : s.store.Numbered) (e : Event) : (s.step e).setup = s.setup := by
  generalize hs' : s.step e = s'
  have hcases := step_cases hnumbered e
  rw [hs'] at hcases
  cases hcases with
  | job id e b s' about moves => exact moves.sameFrame.setup
  | submit submission disk s' outcome => exact outcome.frame.1
  | ask goal s' phase removing move started => exact move.sameFrame.setup
  | call e index c s' phase about call move => exact move.sameFrame.setup
  | drain | noCall | tick | disk => rfl

theorem root_step (hnumbered : s.store.Numbered) (e : Event) :
    (s.step e).store.root = s.store.root := by
  generalize hs' : s.step e = s'
  have hcases := step_cases hnumbered e
  rw [hs'] at hcases
  cases hcases with
  | job id e b s' about moves => exact moves.sameFrame.root
  | submit submission disk s' outcome => exact outcome.frame.2.2.2.2.1
  | ask goal s' phase removing move started => exact move.sameFrame.root
  | call e index c s' phase about call move => exact move.sameFrame.root
  | drain | noCall | tick | disk => rfl

/-- An id that was given out stays so. -/
theorem issued_step (hnumbered : s.store.Numbered) (e : Event) :
    s.store.issued ≤ (s.step e).store.issued := by
  generalize hs' : s.step e = s'
  have hcases := step_cases hnumbered e
  rw [hs'] at hcases
  cases hcases with
  | job id e b s' about moves => exact Nat.le_of_eq moves.sameFrame.issued.symm
  | submit submission disk s' outcome => exact outcome.issued
  | ask goal s' phase removing move started => exact Nat.le_of_eq move.sameFrame.issued.symm
  | call e index c s' phase about call move => exact Nat.le_of_eq move.sameFrame.issued.symm
  | drain | noCall | tick | disk => exact Nat.le_refl _

/-- Only a submission gives an id out, and only one. -/
theorem issued_step_cases (hnumbered : s.store.Numbered) (e : Event) :
    (s.step e).store.issued = s.store.issued ∨
      (∃ submission disk, e = .submitted submission disk) ∧
        (s.step e).store.issued = s.store.issued + 1 := by
  generalize hs' : s.step e = s'
  have hcases := step_cases hnumbered e
  rw [hs'] at hcases
  cases hcases with
  | job id e b s' about moves => exact Or.inl moves.sameFrame.issued
  | submit submission disk s' outcome =>
    generalize (s.submit submission disk).1 = answer at outcome
    cases outcome with
    | refused => exact Or.inl rfl
    | lost | torn | accepted => exact Or.inr ⟨⟨submission, disk, rfl⟩, rfl⟩
  | ask goal s' phase removing move started => exact Or.inl move.sameFrame.issued
  | call e index c s' phase about call move => exact Or.inl move.sameFrame.issued
  | drain | noCall | tick | disk => exact Or.inl rfl

end Service

/-! ### Runs -/

/-- A property of all events of a run, each with the state in which it happens. -/
def Along (P : Service → Event → Prop) : Service → List Event → Prop
  | _, [] => True
  | s, e :: rest => P s e ∧ Along P (s.step e) rest

instance {P : Service → Event → Prop} [∀ s e, Decidable (P s e)] :
    (s : Service) → (events : List Event) → Decidable (Along P s events)
  | _, [] => inferInstanceAs (Decidable True)
  | s, e :: rest =>
    have : Decidable (Along P (s.step e) rest) := instDecidableAlong (s.step e) rest
    inferInstanceAs (Decidable (P s e ∧ Along P (s.step e) rest))

theorem Along.imp {P Q : Service → Event → Prop} {s : Service} {events : List Event}
    (h : Along P s events) (imp : ∀ s e, P s e → Q s e) : Along Q s events := by
  induction events generalizing s with
  | nil => trivial
  | cons e rest ih => exact ⟨imp s e h.1, ih h.2⟩

theorem along_append {P : Service → Event → Prop} {s : Service} {before after : List Event} :
    Along P s (before ++ after) ↔ Along P s before ∧ Along P (s.run before) after := by
  induction before generalizing s with
  | nil => simp [Along]
  | cons e rest ih => simp [Along, ih, and_assoc]

end Montage
