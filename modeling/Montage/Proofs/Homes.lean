import Montage.Proofs.SetAside

/-! # Homes of jobs

The **home** of a job is its directory below the root.  A job in a store is at home
(`Store.Homed`) unless somebody else takes the directory away; others may do what they like elsewhere
(`Store.LeavesHomes`).

A call may make a job or remove some.  Of the jobs that stay it changes at most the records:
`Store.Tends` compares the stores before and after a part of a call, and says of each job that stays that
nothing has happened in its home.  Whether the part succeeds or fails makes no difference.
-/
namespace Montage

open FileTree Path

namespace Store
variable {s s' s'' : Store} {r : Rounding} {place : Path} {id : JobId} {ids : List JobId}
  {files : FileTree}

/-! ### Records of one job -/

/-- A record with an id that was given out before comes from the record with that id. -/
theorem Issued.exists_step {c : StoreCall} {j' : Job} (issued : s.Issued id)
    (hj' : j' ∈ (s.perform r c).2.jobs) (hid : j'.id = id) :
    ∃ j ∈ s.jobs, j.id = id ∧ Job.Step r c j j' := by
  rcases mem_jobs_perform hj' with ⟨now, steady, -, -, rfl⟩ | ⟨j, hj, hstep⟩
  · obtain ⟨n, hn, rfl⟩ := issued
    have := jobId_injective (hid : jobId (s.issued + 1) = jobId n)
    omega
  · exact ⟨j, hj, hstep.id_eq.symm.trans hid, hstep⟩

/-- **What is gone is gone for good**: an id is not given out twice. -/
theorem Numbered.find?_run_eq_none (h : s.Numbered) (issued : s.Issued id)
    (gone : s.find? id = none) (calls : List StoreCall) : (s.run r calls).find? id = none := by
  induction calls generalizing s with
  | nil => exact gone
  | cons c rest ih =>
    refine ih (h.perform c) (issued.mono (issued_le_run (s := s) (r := r) [c])) ?_
    rw [find?, List.find?_eq_none]
    intro j' hj' heq
    obtain ⟨j, hj, hid, -⟩ := issued.exists_step hj' (by simpa using heq)
    exact absurd (beq_iff_eq.mpr hid) (List.find?_eq_none.mp gone j hj)

theorem isSome_find?_iff : (s.find? id).isSome = true ↔ ∃ j ∈ s.jobs, j.id = id := by
  simp [find?]

/-! ### Jobs at home -/

/-- Each job in the store has a directory below the root. -/
structure Homed (place : Path) (s : Store) : Prop extends s.Sited place where
  homes : ∀ j ∈ s.jobs, (s.files.outside place).Stands s.root place ∧ CanStand j.id ∧
    s.files.node? (place ++ [j.id]) = some .directory

/-- Somebody else takes no directory away, but perhaps some below the root that are no homes. -/
def LeavesHomes (place : Path) (s : Store) (files : FileTree) : Prop :=
  ∀ q, s.files.node? q = some .directory → (Inside place q → ∃ j ∈ s.jobs, q = place ++ [j.id]) →
    files.node? q = some .directory

/-- Jobs may come and go, and nothing happens in the homes of those that stay. -/
structure Tends (place : Path) (s s' : Store) : Prop where
  homed : s'.Homed place
  issued : s.issued ≤ s'.issued
  stays : ∀ id, s.Issued id → (s'.find? id).isSome = true → (s.find? id).isSome = true ∧
    ∀ q, place ++ [id] <+: q → s'.files.node? q = s.files.node? q

theorem Tends.trans (h : Tends place s s') (h' : Tends place s' s'') : Tends place s s'' where
  homed := h'.homed
  issued := h.issued.trans h'.issued
  stays := fun id issued there => by
    obtain ⟨hthere, hnodes⟩ := h'.stays id (issued.mono h.issued) there
    obtain ⟨hthere', hnodes'⟩ := h.stays id issued hthere
    exact ⟨hthere', fun q hq => (hnodes q hq).trans (hnodes' q hq)⟩

namespace Homed

theorem begin {root : Path} (rooted : files.HasPlace root place) :
    (Store.begin root files).Homed place where
  numbered := numbered_begin root files
  directories := fun _ h => absurd h List.not_mem_nil
  rooted := rooted
  homes := fun _ h => absurd h List.not_mem_nil

theorem issued (h : s.Homed place) {j : Job} (hj : j ∈ s.jobs) : s.Issued j.id :=
  h.numbered.issued j hj

theorem stands (h : s.Homed place) {j : Job} (hj : j ∈ s.jobs) :
    s.files.Stands j.directory (place ++ [j.id]) := by
  obtain ⟨hstands, hname, hd⟩ := h.homes j hj
  rw [h.directories j hj, directory]
  exact hstands.of_outside.entry hname hd

theorem locate (h : s.Homed place) {j : Job} (hj : j ∈ s.jobs) :
    s.files.locate j.directory = .ok (place ++ [j.id]) := by
  obtain ⟨hstands, hname, -⟩ := h.homes j hj
  rw [h.directories j hj, directory]
  exact hstands.of_outside.locate_of_canStand hname

/-- The output of a job has its place in the home of the job. -/
theorem locate_output (h : s.Homed place) {j : Job} (hj : j ∈ s.jobs) :
    s.files.locate j.outputPath = .ok (place ++ [j.id, Job.outputName]) := by
  rw [Job.outputPath, (h.stands hj).locate_of_canStand ⟨by decide, by decide, by decide⟩,
    List.append_assoc]
  rfl

/-- Records may say other things of the same jobs. -/
theorem congr (h : s.Homed place) (numbered : s'.Numbered) (files : s'.files = s.files)
    (root : s'.root = s.root)
    (records : ∀ j' ∈ s'.jobs, ∃ j ∈ s.jobs, j'.id = j.id ∧ j'.directory = j.directory) :
    s'.Homed place where
  numbered := numbered
  directories := fun j' hj' => by
    obtain ⟨j, hj, hid, hdirectory⟩ := records j' hj'
    rw [hdirectory, h.directories j hj, hid, directory, directory, root]
  rooted := by
    rw [files, root]
    exact h.rooted
  homes := fun j' hj' => by
    obtain ⟨j, hj, hid, -⟩ := records j' hj'
    rw [files, root, hid]
    exact h.homes j hj

/-- Whatever leaves the homes where they are leaves the jobs at home. -/
theorem disk (h : s.Homed place) (leaves : s.LeavesHomes place files) :
    { s with files := files }.Homed place := by
  have hkeeps : ∀ q, ¬ Inside place q → s.files.node? q = some .directory →
      files.node? q = some .directory := fun q hq hd => leaves q hd fun hin => absurd hin hq
  refine ⟨⟨⟨h.numbered.issued, h.numbered.unique⟩, h.directories, h.rooted.mono hkeeps⟩,
    fun j hj => ?_⟩
  obtain ⟨hstands, hname, hd⟩ := h.homes j hj
  exact ⟨hstands.outside_mono hkeeps, hname, leaves _ hd fun _ => ⟨j, hj, rfl⟩⟩

theorem tends_refl (h : s.Homed place) : Tends place s s :=
  ⟨h, Nat.le_refl _, fun _ _ there => ⟨there, fun _ _ => rfl⟩⟩

/-- A call that is about records alone. -/
theorem tends_perform (h : s.Homed place) {c : StoreCall}
    (other : ∀ now steady, c ≠ .create now steady)
    (files : (s.perform r c).2.files = s.files) : Tends place s (s.perform r c).2 where
  homed := h.congr (h.numbered.perform c) files (root_perform s r c) fun j' hj' => by
    rcases mem_jobs_perform hj' with ⟨now, steady, hc, -⟩ | ⟨j, hj, hstep⟩
    · exact absurd hc (other now steady)
    · exact ⟨j, hj, hstep.id_eq, hstep.directory_eq⟩
  issued := issued_le_run (s := s) (r := r) [c]
  stays := fun id issued there => by
    obtain ⟨j', hj', hid⟩ := isSome_find?_iff.mp there
    obtain ⟨j, hj, hid, -⟩ := issued.exists_step hj' hid
    exact ⟨isSome_find?_iff.mpr ⟨j, hj, hid⟩, fun q _ => by rw [files]⟩

/-! ### A new home -/

/-- A directory is made for the next job, and perhaps the job is written down. -/
theorem tends_made (h : s.Homed place) {jobs : List Job}
    (made : s.files.makeDirectory (s.directory (jobId (s.issued + 1))) = .ok files)
    (numbered : Numbered { s with issued := s.issued + 1, files, jobs })
    (records : ∀ j ∈ jobs, j ∈ s.jobs ∨
      j.id = jobId (s.issued + 1) ∧ j.directory = s.directory (jobId (s.issued + 1))) :
    Tends place s { s with issued := s.issued + 1, files, jobs } := by
  obtain ⟨hstands, hname, -, hnew, hinside, -⟩ :=
    h.rooted.makeDirectory (jobId_ne_dots (s.issued + 1)) made
  refine ⟨⟨⟨numbered, fun j hj => ?_, Or.inl hstands⟩, fun j hj => ?_⟩, Nat.le_succ _,
    fun id issued there => ?_⟩
  · rcases records j hj with hj | ⟨hid, hdirectory⟩
    · exact h.directories j hj
    · rw [hdirectory, hid]
      rfl
  · rcases records j hj with hj | ⟨hid, -⟩
    · obtain ⟨-, hname', hd⟩ := h.homes j hj
      refine ⟨hstands, hname', (hinside _ (inside_concat place j.id) fun heq => ?_).trans hd⟩
      exact h.numbered.fresh j hj (by simpa using heq)
    · rw [hid]
      exact ⟨hstands, hname, hnew⟩
  · obtain ⟨j, hj, rfl⟩ := isSome_find?_iff.mp there
    have hold : j.id ≠ jobId (s.issued + 1) := by
      obtain ⟨n, hn, heq⟩ := issued
      intro hid
      have := jobId_injective (hid.symm.trans heq)
      omega
    refine ⟨isSome_find?_iff.mpr ⟨j, (records j hj).resolve_right fun hnew => hold hnew.1, rfl⟩,
      fun q hq => hinside q ((inside_concat place j.id).extend hq) ?_⟩
    rintro rfl
    exact hold (prefix_entry_iff.mp hq)

theorem tends_create (h : s.Homed place) (now steady : Number) :
    Tends place s (s.create r now steady).2 := by
  have hnumbered : (s.create r now steady).2.Numbered := h.numbered.perform (.create now steady)
  simp only [Store.create] at hnumbered ⊢
  split
  · rename_i f hfailed
    rw [hfailed] at hnumbered
    exact { h.tends_refl with
      homed := h.congr hnumbered rfl rfl fun j hj => ⟨j, hj, rfl, rfl⟩
      issued := Nat.le_succ _ }
  · rename_i files hmade
    rw [hmade] at hnumbered
    dsimp only at hnumbered
    split
    · rename_i f hdate
      rw [hdate] at hnumbered
      exact h.tends_made hmade hnumbered fun j hj => Or.inl hj
    · rename_i hdate
      rw [hdate] at hnumbered
      refine h.tends_made hmade hnumbered fun j hj => (List.mem_append.mp hj).imp_right fun hj => ?_
      rw [List.mem_singleton.mp hj]
      exact ⟨rfl, rfl⟩

/-! ### Jobs that go -/

/-- A job goes, and its directory is set aside or stays where it is. -/
theorem tends_detach (h : s.Homed place) (id : JobId) : Tends place s (s.detach id).2 := by
  by_cases there : (s.find? id).isSome = true
  swap
  · rw [detach, Option.not_isSome_iff_eq_none.mp there]
    exact h.tends_refl
  have hroot := root_detach (s := s) id
  have hissued := issued_detach (s := s) id
  -- of the other jobs nothing is moved, nor is anything outside of the root
  have hfiles : (∀ i, s.Issued i → i ≠ id → ∀ q, place ++ [i] <+: q →
        (s.detach id).2.files.node? q = s.files.node? q) ∧
      ∀ q, ¬ Inside place q → s.files.node? q = some .directory →
        (s.detach id).2.files.node? q = some .directory := by
    rcases h.detach there with ⟨-, -, hsame⟩ | ⟨-, ⟨f, -, hsame⟩ | ⟨-, -, -, -, haside⟩⟩
    · rw [hsame]
      exact ⟨fun _ _ _ _ _ => rfl, fun _ _ hd => hd⟩
    · rw [hsame]
      exact ⟨fun _ _ _ _ _ => rfl, fun _ _ hd => hd⟩
    · exact ⟨fun i hi hother q hq =>
        haside.below (fun hmem => hother (List.mem_singleton.mp hmem)) hi.ne_trashName hq,
        haside.keeps⟩
  obtain ⟨hnodes, hkeeps⟩ := hfiles
  refine ⟨⟨h.detach_snd there, fun j hj => ?_⟩, hissued.ge, fun i hi there' => ?_⟩
  · rw [jobs_detach] at hj
    obtain ⟨hmem, hother⟩ := List.mem_filter.mp hj
    obtain ⟨hstands, hname, hd⟩ := h.homes j hmem
    rw [hroot]
    exact ⟨hstands.outside_mono hkeeps, hname, (hnodes j.id (h.issued hmem) (by simpa using hother) _
      (List.prefix_refl _)).trans hd⟩
  · rw [find?_detach] at there'
    by_cases hother : i = id
    · simp [hother] at there'
    · rw [if_neg hother] at there'
      exact ⟨there', hnodes i hi hother⟩

theorem tends_detachAll (h : s.Homed place) (ids : List JobId) :
    Tends place s (s.detachAll ids).2 :=
  detachAll_preserves (P := Tends place s) ids
    (fun _ id _ ht => ht.trans (ht.homed.tends_detach id)) h.tends_refl

end Homed
end Store
end Montage
