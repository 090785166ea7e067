import Montage.Proofs.Homes
import Montage.Proofs.JobHistory

/-! # Directories of the jobs in a store

A store keeps records, and for each record a directory below its root.  The two are changed one after
the other, and a directory that is removed is set aside first, but when a call is done nothing of that is
left: **below the root there are the directories of the jobs in the store, and no others** (`Kept`).

This is so as long as no call fails because of the files (`Store.Smooth`), and as long as whoever else
writes there writes inside the directories of jobs (`Store.WritesInside`).  What a store then promises to
those who use it is put together in `store_directories`.
-/
namespace Montage

open FileTree Path

/-- A fault of the files or of the clock; other faults are answers. -/
def StoreFault.isTrouble : StoreFault → Bool
  | files _ | clock _ => true
  | _ => false

namespace Store

/-- Somebody else writes inside the directories of jobs. -/
def WritesInside (s : Store) (files : FileTree) : Prop :=
  ∀ q, (∀ j ∈ s.jobs, ∀ home, s.files.locate j.directory = .ok home → ¬ Inside home q) →
    files.node? q = s.files.node? q

/-- A call has no trouble with the files or with the clock, and writing happens inside the directories
of jobs. -/
def Allows (s : Store) (r : Rounding) : StoreCall → Prop
  | .disk files => s.WritesInside files
  | c => ∀ f, (s.perform r c).1 = .error f → f.isTrouble = false

/-- Each of the calls is allowed when its turn comes. -/
def Smooth (s : Store) (r : Rounding) : List StoreCall → Prop
  | [] => True
  | c :: rest => s.Allows r c ∧ (s.perform r c).2.Smooth r rest

variable {s s' : Store} {r : Rounding} {id : JobId} {ids : List JobId} {place : Path}

/-- A call that succeeds has no trouble. -/
theorem allows_of_isOk {c : StoreCall} (call : ∀ files, c ≠ .disk files)
    (h : (s.perform r c).1.isOk = true) : s.Allows r c := by
  cases c with
  | disk files => exact absurd rfl (call files)
  | _ =>
    intro f hf
    rw [hf] at h
    cases h

/-! ### Directories -/

/-- Below the root there are the directories of the jobs in the store. -/
structure Kept (place : Path) (s : Store) : Prop extends s.Sited place where
  homes : ∀ j ∈ s.jobs, (s.files.outside place).Stands s.root place ∧ CanStand j.id ∧
    s.files.node? (place ++ [j.id]) = some .directory
  only : ∀ q, Inside place q → s.files.node? q = some .directory →
    ∃ j ∈ s.jobs, place ++ [j.id] <+: q

/-- What a removal of jobs does to a store. -/
structure Removes (place : Path) (ids : List JobId) (s s' : Store) : Prop where
  jobs : s'.jobs = s.jobs.filter fun j => j.id ∉ ids
  files : Cleared place ids s.files s'.files

namespace Kept

theorem homed (h : s.Kept place) : s.Homed place := ⟨h.toSited, h.homes⟩

theorem begin {root : Path} {files : FileTree} (rooted : files.HasPlace root place)
    (clean : ∀ q, Inside place q → files.node? q ≠ some .directory) :
    (Store.begin root files).Kept place where
  toSited := (Homed.begin rooted).toSited
  homes := (Homed.begin rooted).homes
  only := fun q hq hd => absurd hd (clean q hq)

theorem locate (h : s.Kept place) {j : Job} (hj : j ∈ s.jobs) :
    s.files.locate j.directory = .ok (place ++ [j.id]) := h.homed.locate hj

theorem issued (h : s.Kept place) {j : Job} (hj : j ∈ s.jobs) : s.Issued j.id :=
  h.numbered.issued j hj

/-- Nothing that was set aside is left. -/
theorem not_trash (h : s.Kept place) {q : Path} (hq : place ++ [trashName id] <+: q) :
    s.files.node? q ≠ some .directory := by
  intro hd
  obtain ⟨j, hj, hbelow⟩ := h.only q ((inside_concat place _).extend hq) hd
  exact (h.issued hj).ne_trashName id (entry_unique hbelow hq)

/-- A call that is about records alone leaves the directories, if the same jobs are there. -/
theorem perform_records (h : s.Kept place) {c : StoreCall}
    (other : ∀ now steady, c ≠ .create now steady) (files : (s.perform r c).2.files = s.files)
    (all : (s.perform r c).2.jobs.map Job.id = s.jobs.map Job.id) :
    (s.perform r c).2.Kept place where
  toSited := (h.homed.tends_perform other files).homed.toSited
  homes := (h.homed.tends_perform other files).homed.homes
  only := fun q hq hd => by
    rw [files] at hd
    obtain ⟨j, hj, hbelow⟩ := h.only q hq hd
    have hmem : j.id ∈ (s.perform r c).2.jobs.map Job.id := all ▸ List.mem_map_of_mem hj
    obtain ⟨j', hj', hid⟩ := List.mem_map.mp hmem
    exact ⟨j', hj', hid ▸ hbelow⟩

/-- A new job has a directory. -/
theorem create {now steady : Number} {job : Job} (h : s.Kept place)
    (created : s.create r now steady = (.ok job, s')) : s'.Kept place := by
  have hhomed : s'.Homed place := by
    simpa only [created] using (h.homed.tends_create (r := r) now steady).homed
  refine ⟨hhomed.toSited, hhomed.homes, fun q hq hd => ?_⟩
  simp only [Store.create] at created
  split at created
  · cases created
  rename_i files hmade
  split at created
  · cases created
  cases created
  obtain ⟨-, -, -, -, hinside, -⟩ := h.rooted.makeDirectory (jobId_ne_dots (s.issued + 1)) hmade
  by_cases hq' : q = place ++ [jobId (s.issued + 1)]
  · exact ⟨_, List.mem_append_right _ (List.mem_singleton.mpr rfl), hq' ▸ List.prefix_refl _⟩
  · replace hd : files.node? q = some .directory := hd
    rw [hinside q hq hq'] at hd
    obtain ⟨j, hj, hbelow⟩ := h.only q hq hd
    exact ⟨j, List.mem_append_left _ hj, hbelow⟩

/-- Writing inside directories of jobs leaves them where they are. -/
theorem disk (h : s.Kept place) {files : FileTree} (inside : s.WritesInside files) :
    { s with files := files }.Kept place := by
  have hsame (q : Path) (hq : ∀ j ∈ s.jobs, ¬ Inside (place ++ [j.id]) q) :
      files.node? q = s.files.node? q := by
    refine inside q fun j hj home hhome => ?_
    cases (h.locate hj).symm.trans hhome
    exact hq j hj
  have hleaves : s.LeavesHomes place files := by
    intro q hd hhome
    refine (hsame q fun k _ hin => ?_).trans hd
    obtain ⟨j, -, rfl⟩ := hhome ((inside_concat place k.id).extend hin.1)
    exact hin.2 (by rw [prefix_entry_iff.mp hin.1])
  refine ⟨(h.homed.disk hleaves).toSited, (h.homed.disk hleaves).homes, fun q hq hd => ?_⟩
  by_cases hin : ∃ j ∈ s.jobs, Inside (place ++ [j.id]) q
  · obtain ⟨j, hj, hin⟩ := hin
    exact ⟨j, hj, hin.1⟩
  · exact h.only q hq ((hsame q fun j hj hq' => hin ⟨j, hj, hq'⟩).symm.trans hd)

/-- **Jobs are removed with their directories**, and other jobs are left alone. -/
theorem remove (h : s.Kept place) (nodup : ids.Nodup)
    (there : ∀ id ∈ ids, (s.find? id).isSome = true) {trash : List Path}
    (detached : s.detachAll ids = (.ok trash, s')) :
    (s'.clear trash).Kept place ∧ Removes place ids s (s'.clear trash) := by
  have hhome (id : JobId) (hid : id ∈ ids) : (s.files.outside place).Stands s.root place ∧
      s.Issued id ∧ CanStand id ∧ s.files.node? (place ++ [id]) = some .directory := by
    obtain ⟨j, hj⟩ := Option.isSome_iff_exists.mp (there id hid)
    obtain ⟨hmem, rfl⟩ := find?_eq_some hj
    obtain ⟨hstands, hname, hd⟩ := h.homes j hmem
    exact ⟨hstands, h.issued hmem, hname, hd⟩
  have hhoused : s.housed ids = ids := by
    refine List.filter_eq_self.mpr fun id hid => ?_
    obtain ⟨hstands, -, hname, hd⟩ := hhome id hid
    rw [exists?, nodeAt?, directory, hstands.of_outside.locate_of_canStand hname]
    show (s.files.node? (place ++ [id])).isSome = true
    rw [hd]
    rfl
  obtain ⟨hsited, htrash, haside, hstands⟩ := h.toSited.detachAll nodup there detached
  rw [hhoused] at htrash haside hstands
  have hjobs := jobs_detachAll detached
  have hfiles : Cleared place ids s.files (s'.clear trash).files := by
    rw [htrash]
    exact haside.cleared nodup (fun id hid => ⟨(hstands id hid).1, (hstands id hid).2.2⟩)
      (fun id hid => (hhome id hid).2.2.2) fun id q hq => h.not_trash hq
  have hroot : s'.root = s.root := by simpa [detached] using root_detachAll (s := s) ids
  refine ⟨⟨⟨⟨hsited.numbered.issued, hsited.numbered.unique⟩, hsited.directories, ?_⟩, fun j hj => ?_, fun q hq hd => ?_⟩,
    hjobs, hfiles⟩
  · show (s'.clear trash).files.HasPlace s'.root place
    rw [hroot]
    exact h.rooted.mono hfiles.keeps
  · replace hj : j ∈ s'.jobs := hj
    rw [hjobs] at hj
    obtain ⟨hmem, hother⟩ := List.mem_filter.mp hj
    obtain ⟨hstands, hname, hd⟩ := h.homes j hmem
    refine ⟨?_, hname, (hfiles.kept _ fun id hid hpre => ?_).trans hd⟩
    · show ((s'.clear trash).files.outside place).Stands s'.root place
      rw [hroot]
      exact hstands.outside_mono hfiles.keeps
    · rw [prefix_entry_iff.mp hpre] at hid
      simp [hid] at hother
  · have hother : ∀ id ∈ ids, ¬ place ++ [id] <+: q := fun id hid hpre => by
      rw [hfiles.gone id hid q hpre] at hd
      cases hd
    rw [hfiles.kept q hother] at hd
    obtain ⟨j, hj, hbelow⟩ := h.only q hq hd
    refine ⟨j, ?_, hbelow⟩
    show j ∈ s'.jobs
    rw [hjobs, List.mem_filter]
    exact ⟨hj, by simpa using fun hid => hother j.id hid hbelow⟩

/-! ### Calls -/

/-- A job is deleted, or it was not there. -/
theorem delete (h : s.Kept place) (smooth : ∀ f, (s.delete id).1 ≠ .error (.files f)) :
    s.find? id = none ∧ s.delete id = (.error (.notFound id), s) ∨
      (s.delete id).1 = .ok () ∧ (s.delete id).2.Kept place ∧
        Removes place [id] s (s.delete id).2 := by
  rw [Store.delete] at smooth ⊢
  rcases detach_cases s id with
    ⟨hnone, heq⟩ | ⟨j, hj, ⟨-, heq⟩ | ⟨-, ⟨f, -, heq⟩ | ⟨files, -, heq⟩⟩⟩ <;> rw [heq] at smooth ⊢
  · exact Or.inl ⟨hnone, rfl⟩
  · exact Or.inr ⟨rfl, h.remove (List.nodup_singleton id)
      (fun i hi => by rw [List.mem_singleton.mp hi, hj]; rfl) (detachAll_one heq)⟩
  · exact absurd rfl (smooth f)
  · exact Or.inr ⟨rfl, h.remove (List.nodup_singleton id)
      (fun i hi => by rw [List.mem_singleton.mp hi, hj]; rfl) (detachAll_one heq)⟩

/-- All jobs that have been there for the given time are removed. -/
theorem expire (h : s.Kept place) {lifetime now : Number}
    (smooth : ∀ f, (s.expire r lifetime now).1 ≠ .error (.files f)) :
    (s.expire r lifetime now).1 = .ok (s.expired r lifetime now) ∧
      (s.expire r lifetime now).2.Kept place ∧
      Removes place (s.expired r lifetime now) s (s.expire r lifetime now).2 := by
  obtain ⟨hnodup, hthere⟩ := h.numbered.expired_there r lifetime now
  rcases hdetach : s.detachAll (s.expired r lifetime now) with ⟨f | trash, s'⟩
  · obtain ⟨g, rfl⟩ := exists_files_of_detachAll_error hdetach hnodup hthere
    rw [expire_of_error hdetach] at smooth
    exact absurd rfl (smooth g)
  · rw [expire_of_ok hdetach]
    exact ⟨rfl, h.remove hnodup hthere hdetach⟩

/-- **What a call does that has no trouble**: there are the directories of the jobs again. -/
theorem perform (h : s.Kept place) {c : StoreCall} (allows : s.Allows r c) :
    (s.perform r c).2.Kept place := by
  cases c with
  | get id | jobs | openOutput id | expired lifetime now => exact h
  | disk files => exact h.disk allows
  | create now steady =>
    rw [Store.perform]
    rcases hcreate : s.create r now steady with ⟨answer, s'⟩
    cases answer with
    | ok job => exact h.create hcreate
    | error f =>
      -- making a job fails because of the files or the clock only
      have hf := allows f (by rw [Store.perform, hcreate]; rfl)
      rcases create_cases (s := s) (r := r) now steady with
        ⟨g, heq⟩ | ⟨files, g, heq⟩ | ⟨files, -, heq⟩ <;> cases hcreate.symm.trans heq <;> cases hf
  | setStage id stage =>
    exact h.perform_records (fun _ _ heq => by cases heq) rfl (ids_setStage id stage)
  | transition id state error stage now =>
    exact h.perform_records (fun _ _ heq => by cases heq) transition_frame.2.2 (ids_transition ..)
  | delete id =>
    have hsmooth : ∀ f, (s.delete id).1 ≠ .error (.files f) := fun f hf => by
      have := allows (.files f) (by simp only [Store.perform, hf]; rfl)
      cases this
    rw [Store.perform]
    rcases h.delete hsmooth with ⟨-, heq⟩ | ⟨-, hkept, -⟩
    · rw [heq]
      exact h
    · exact hkept
  | expire lifetime now =>
    have hsmooth : ∀ f, (s.expire r lifetime now).1 ≠ .error (.files f) := fun f hf => by
      have := allows (.files f) (by simp only [Store.perform, hf]; rfl)
      cases this
    exact (h.expire hsmooth).2.1

theorem run (h : s.Kept place) {calls : List StoreCall} (smooth : s.Smooth r calls) :
    (s.run r calls).Kept place := by
  induction calls generalizing s with
  | nil => exact h
  | cons c rest ih => exact ih (h.perform smooth.1) smooth.2

end Kept

/-! ### Ids in the order of their creation -/

/-- Id of the job that a call creates. -/
def handedOut (s : Store) (r : Rounding) : StoreCall → List JobId
  | .create now steady =>
    match (s.create r now steady).1 with
    | .ok job => [job.id]
    | .error _ => []
  | _ => []

/-- Ids of the jobs that calls create, in the order of the calls. -/
def created (s : Store) (r : Rounding) : List StoreCall → List JobId
  | [] => []
  | c :: rest => s.handedOut r c ++ (s.perform r c).2.created r rest

/-- Only a call that makes a job takes an id. -/
theorem issued_perform {c : StoreCall} (other : ∀ now steady, c ≠ .create now steady) :
    (s.perform r c).2.issued = s.issued := by
  cases c with
  | create now steady => exact absurd rfl (other now steady)
  | get id | jobs | openOutput id | expired lifetime now | disk files | setStage id stage => rfl
  | transition id state error stage now => exact transition_frame.2.1
  | delete id => exact (delete_sublist id).2
  | expire lifetime now => exact (expire_sublist lifetime now).2

theorem issued_create (s : Store) (r : Rounding) (now steady : Number) :
    (s.perform r (.create now steady)).2.issued = s.issued + 1 := by
  rw [perform]
  rcases create_cases (s := s) (r := r) now steady with
    ⟨f, heq⟩ | ⟨files, f, heq⟩ | ⟨files, -, heq⟩ <;> rw [heq]

/-- A new job comes last, and the others stay in their order. -/
theorem ids_sublist (s : Store) (r : Rounding) (c : StoreCall) :
    ((s.perform r c).2.jobs.map Job.id).Sublist (s.jobs.map Job.id ++ s.handedOut r c) := by
  by_cases hcreate : ∃ now steady, c = .create now steady
  · obtain ⟨now, steady, rfl⟩ := hcreate
    rw [perform, handedOut]
    rcases create_cases (s := s) (r := r) now steady with
      ⟨f, heq⟩ | ⟨files, f, heq⟩ | ⟨files, -, heq⟩ <;> rw [heq]
    · exact List.sublist_append_left _ _
    · exact List.sublist_append_left _ _
    · rw [List.map_append]
      exact List.Sublist.refl _
  · rcases ids_perform s r c with ⟨-, hids⟩ | ⟨hissued, -⟩
    · exact hids.trans (List.sublist_append_left _ _)
    · have := issued_perform (s := s) (r := r) fun now steady heq => hcreate ⟨now, steady, heq⟩
      omega

theorem ids_sublist_created (s : Store) (r : Rounding) (calls : List StoreCall) :
    ((s.run r calls).jobs.map Job.id).Sublist (s.jobs.map Job.id ++ s.created r calls) := by
  induction calls generalizing s with
  | nil => exact List.sublist_append_left _ _
  | cons c rest ih =>
    rw [created, ← List.append_assoc]
    exact (ih (s.perform r c).2).trans ((ids_sublist s r c).append_right _)

theorem mem_handedOut {c : StoreCall} (h : id ∈ s.handedOut r c) :
    id = jobId (s.issued + 1) ∧ (s.perform r c).2.issued = s.issued + 1 := by
  cases c with
  | create now steady =>
    refine ⟨?_, issued_create s r now steady⟩
    rw [handedOut] at h
    rcases create_cases (s := s) (r := r) now steady with
      ⟨f, heq⟩ | ⟨files, f, heq⟩ | ⟨files, -, heq⟩ <;> rw [heq] at h
    · cases h
    · cases h
    · exact List.mem_singleton.mp h
  | _ => cases h

/-- Ids that calls take are none of those that were taken before. -/
theorem later_of_mem_created {calls : List StoreCall} (h : id ∈ s.created r calls) :
    ∃ n, s.issued < n ∧ id = jobId n := by
  induction calls generalizing s with
  | nil => cases h
  | cons c rest ih =>
    rcases List.mem_append.mp h with h | h
    · exact ⟨s.issued + 1, Nat.lt_succ_self _, (mem_handedOut h).1⟩
    · obtain ⟨n, hn, hid⟩ := ih h
      have hle : s.issued ≤ (s.perform r c).2.issued := issued_le_run (s := s) (r := r) [c]
      exact ⟨n, Nat.lt_of_le_of_lt hle hn, hid⟩

theorem nodup_created (s : Store) (r : Rounding) (calls : List StoreCall) :
    (s.created r calls).Nodup := by
  induction calls generalizing s with
  | nil => exact List.nodup_nil
  | cons c rest ih =>
    refine List.nodup_append'.mpr ⟨?_, ih _, fun id hid hid' => ?_⟩
    · cases c with
      | create now steady =>
        rw [handedOut]
        split
        · exact List.nodup_singleton _
        · exact List.nodup_nil
      | _ => exact List.nodup_nil
    · obtain ⟨heq, hissued⟩ := mem_handedOut hid
      obtain ⟨n, hn, heq'⟩ := later_of_mem_created hid'
      have := jobId_injective (heq.symm.trans heq')
      omega

/-! ### Jobs that are gone -/

/-- There is no job with the id, and every call that asks for it says so. -/
structure Unknown (s : Store) (r : Rounding) (id : JobId) : Prop where
  unlisted : ∀ j ∈ s.jobs, j.id ≠ id
  get : s.get id = .error (.notFound id)
  transition : ∀ state error stage now,
    s.transition r id state error stage now = (.error (.notFound id), s)
  setStage : ∀ stage, s.setStage id stage = s
  openOutput : s.openOutput id = .error (.notFound id)
  delete : s.delete id = (.error (.notFound id), s)
  expired : ∀ lifetime now, id ∉ s.expired r lifetime now

theorem unknown_of_find?_eq_none (h : s.find? id = none) : s.Unknown r id := by
  have hunlisted : ∀ j ∈ s.jobs, j.id ≠ id := fun j hj => by
    simpa using List.find?_eq_none.mp h j hj
  refine ⟨hunlisted, ?_, fun state error stage now => ?_, fun stage => ?_, ?_, ?_,
    fun lifetime now hid => ?_⟩
  · rw [Store.get, h]
  · rw [Store.transition, h]
  · have hsame : (s.jobs.map fun j => if j.id == id then j.note stage else j) = s.jobs := by
      rw [List.map_congr_left fun j hj => if_neg (by simpa using hunlisted j hj)]
      exact List.map_id s.jobs
    rw [Store.setStage, modify, hsame]
  · rw [Store.openOutput, h]
  · rw [Store.delete, detach, h]
  · obtain ⟨j, hj, heq⟩ := List.mem_map.mp hid
    exact hunlisted j (List.mem_filter.mp hj).1 heq

end Store

/-! ### The store and its directories -/

section Runs
variable {r : Rounding} {root place : Path} {files : FileTree} {calls : List StoreCall} {s : Store}

/-- **What a store promises about its jobs and their directories**, over calls of any number and in any
order. -/
theorem store_directories (rooted : files.HasPlace root place)
    (clean : ∀ q, Inside place q → files.node? q ≠ some .directory)
    (smooth : (Store.begin root files).Smooth r calls)
    (reached : (Store.begin root files).run r calls = s) :
    -- below the root there are the directories of the jobs, and nothing is left of a removal
    ((∀ name, s.files.node? (place ++ [name]) = some .directory ↔ ∃ j ∈ s.jobs, j.id = name) ∧
      (∀ q, Inside place q → s.files.node? q = some .directory →
        ∃ j ∈ s.jobs, place ++ [j.id] <+: q) ∧
      (∀ j ∈ s.jobs, s.files.locate j.directory = .ok (place ++ [j.id])) ∧
      ∀ id, s.files.node? (place ++ [trashName id]) ≠ some .directory) ∧
    -- jobs are listed in the order of their creation
    ((s.perform r .jobs).1 = .ok s.jobs ∧
      (∀ id j, s.find? id = some j ↔ j ∈ s.jobs ∧ j.id = id) ∧
      (s.jobs.map Job.id).Sublist ((Store.begin root files).created r calls) ∧
      ((Store.begin root files).created r calls).Nodup) ∧
    -- whatever removes a job, and whatever comes then
    (∀ c id, (s.find? id).isSome = true → (s.perform r c).2.find? id = none →
      ∀ more, ((s.perform r c).2.run r more).Unknown r id) ∧
    -- a removal removes what it has to, and leaves the rest
    (∀ id, (s.find? id).isSome = true → (∀ f, (s.delete id).1 ≠ .error (.files f)) →
      (s.delete id).1 = .ok () ∧ s.Removes place [id] (s.delete id).2) ∧
    ∀ lifetime now, (∀ f, (s.expire r lifetime now).1 ≠ .error (.files f)) →
      (s.expire r lifetime now).1 = .ok (s.expired r lifetime now) ∧
        s.Removes place (s.expired r lifetime now) (s.expire r lifetime now).2 := by
  have hkept : s.Kept place := reached ▸ (Store.Kept.begin rooted clean).run smooth
  refine ⟨⟨fun name => ⟨fun hd => ?_, ?_⟩, hkept.only, fun j hj => hkept.locate hj, fun id =>
      hkept.not_trash (List.prefix_refl _)⟩,
    ⟨rfl, fun id j => hkept.numbered.find?_eq_some_iff, ?_, Store.nodup_created _ r calls⟩,
    fun c id hthere hgone more => ?_, fun id hthere hsmooth => ?_, fun lifetime now hsmooth => ?_⟩
  · obtain ⟨j, hj, hbelow⟩ := hkept.only _ (inside_concat place name) hd
    exact ⟨j, hj, prefix_entry_iff.mp hbelow⟩
  · rintro ⟨j, hj, rfl⟩
    exact (hkept.homes j hj).2.2
  · rw [← reached]
    exact Store.ids_sublist_created (Store.begin root files) r calls
  · obtain ⟨j, hj⟩ := Option.isSome_iff_exists.mp hthere
    obtain ⟨hmem, rfl⟩ := Store.find?_eq_some hj
    refine Store.unknown_of_find?_eq_none ?_
    exact (hkept.numbered.perform c).find?_run_eq_none
      ((hkept.issued hmem).mono (Store.issued_le_run (s := s) (r := r) [c])) hgone more
  · rcases hkept.delete hsmooth with ⟨hnone, -⟩ | ⟨hanswer, -, hremoves⟩
    · rw [hnone] at hthere
      cases hthere
    · exact ⟨hanswer, hremoves⟩
  · obtain ⟨hanswer, -, hremoves⟩ := hkept.expire hsmooth
    exact ⟨hanswer, hremoves⟩

end Runs

namespace Sample

def creations : List StoreCall :=
  [.create (.finite 0) (.finite 0), .create (.finite 5) (.finite 5)]

/-- Files after the first of two jobs has written one. -/
def written : FileTree :=
  { (store.run .exact creations).files.put ["work", jobId 1, "clip.mp4"] (.file 0) with
    contents := [.media 9] }

def busyStore : Store := store.run .exact (creations ++ [.disk written])

end Sample

theorem store_directories_sample :
    Sample.busyStore.files.node? ["work", jobId 1, "clip.mp4"] = some (.file 0) ∧
      Sample.busyStore.files.node? ["work", jobId 2] = some .directory ∧
      (Sample.busyStore.delete (jobId 1)).2.files.node? ["work", jobId 1, "clip.mp4"] = none ∧
      (Sample.busyStore.delete (jobId 1)).2.files.node? ["work", jobId 2] = some .directory ∧
      (Sample.busyStore.delete (jobId 1)).2.Unknown .exact (jobId 1) ∧
      (Sample.busyStore.expire .exact (.finite 60) (.finite 62)).2.jobs.map Job.id =
        [jobId 2] := by
  have hrooted : Sample.store.files.HasPlace ["work"] ["work"] := Or.inr ⟨by decide, rfl⟩
  have hclean : ∀ q, Inside ["work"] q → Sample.store.files.node? q ≠ some .directory := by
    intro q hq hd
    obtain ⟨e, he, -⟩ := Option.map_eq_some_iff.mp hd
    obtain rfl := List.mem_singleton.mp (List.mem_of_find?_eq_some he)
    have hroot : ["work"] = q := by simpa using List.find?_some he
    exact hq.2 hroot.symm
  have hinside : (Sample.store.run .exact Sample.creations).WritesInside Sample.written := by
    intro q hq
    have hne : q ≠ ["work", jobId 1, "clip.mp4"] := by
      rintro rfl
      refine hq ⟨jobId 1, ["work", jobId 1], .queued, none, none, none, .finite 0, none, none,
        .finite 0⟩ (by decide +kernel) ["work", jobId 1] (by decide +kernel) ?_
      exact inside_concat ["work", jobId 1] "clip.mp4"
    show (FileTree.put _ _ _).node? q = _
    rw [node?_put, if_neg hne]
  have hsmooth : Sample.store.Smooth .exact (Sample.creations ++ [.disk Sample.written]) :=
    ⟨Store.allows_of_isOk nofun (by decide +kernel), Store.allows_of_isOk nofun (by decide +kernel),
      hinside, trivial⟩
  have hreached : (Store.begin ["work"] Sample.store.files).run .exact
      (Sample.creations ++ [.disk Sample.written]) = Sample.busyStore := rfl
  obtain ⟨⟨hnames, -⟩, -, hgone, hdelete, hexpire⟩ :=
    store_directories hrooted hclean hsmooth hreached
  obtain ⟨-, hremoves⟩ := hdelete (jobId 1) (by decide +kernel) fun f hf => by
    have hok : (Sample.busyStore.delete (jobId 1)).1.isOk = true := by decide +kernel
    rw [hf] at hok
    cases hok
  obtain ⟨-, hexpired⟩ := hexpire (.finite 60) (.finite 62) fun f hf => by
    have hok : (Sample.busyStore.expire .exact (.finite 60) (.finite 62)).1.isOk = true := by
      decide +kernel
    rw [hf] at hok
    cases hok
  have hother := (hnames (jobId 2)).mpr (by decide +kernel)
  refine ⟨by decide +kernel, hother, ?_, ?_, ?_, ?_⟩
  · exact hremoves.files.gone (jobId 1) (List.mem_singleton.mpr rfl) _ (by decide +kernel)
  · exact (hremoves.files.kept _ (by decide +kernel)).trans hother
  · exact hgone (.delete (jobId 1)) (jobId 1) (by decide +kernel) (by decide +kernel) []
  · rw [hexpired.jobs]
    decide +kernel

end Montage
