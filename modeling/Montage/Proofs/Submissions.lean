import Montage.Proofs.OpenJobs
import Montage.Proofs.StoreDirectories
import Mathlib.Data.List.Induction

/-! # Taken whole or not at all

A submission is read, checked, given a record and a directory, and written down twice, and it may fail
at each of these points.  What was done up to there is undone: the record is taken out again, and the
directory is moved aside and removed.  So a submission that is refused leaves the service as it was
(`Service.Traceless`), and one that is taken has its record, its directory with both files, and its task
(`Service.Registered`).

In a directory that has just been made each name is free, so a file can be written there whatever else
there is in the tree (`FileTree.Stands.write`), and writing fails only if the disk says so.  This needs
that nothing stands below a place where nothing stands, as in every tree of files that is one
(`FileTree.Nested`).

One failure undoes nothing.  Half of a pair is noticed when the stored form is written, which is no
failure of the disk; the job is registered then and has no task.
-/
namespace Montage

open FileTree Path

/-! ### New files -/

namespace FileTree

variable {t u : FileTree} {directory place p q : Path} {name : String} {c d : Content}

/-- Whatever stands in something stands in a directory. -/
def Nested (t : FileTree) : Prop :=
  ∀ p name, p ≠ [] → (t.node? (p ++ [name])).isSome = true → t.node? p = some .directory

theorem nested_of_entries
    (h : ∀ e ∈ t.entries, e.1.dropLast = [] ∨ t.node? e.1.dropLast = some .directory) : t.Nested := by
  intro p name given there
  obtain ⟨n, hn⟩ := Option.isSome_iff_exists.mp there
  have hparent := h _ (mem_of_node? hn)
  rw [List.dropLast_concat] at hparent
  exact hparent.resolve_left given

theorem Nested.none_below (h : t.Nested) (given : p ≠ []) (bare : t.node? p = none)
    (below : p <+: q) : t.node? q = none := by
  obtain ⟨rest, rfl⟩ := below
  induction rest using List.reverseRecOn with
  | nil => rwa [List.append_nil]
  | append_singleton rest name ih =>
    by_contra hnode
    rw [← List.append_assoc] at hnode
    have hparent := h (p ++ rest) name (by simp [given]) (Option.isSome_iff_ne_none.mpr hnode)
    cases ih.symm.trans hparent

/-- The tree with a new file. -/
def withFile (t : FileTree) (p : Path) (c : Content) : FileTree :=
  { t.put p (.file t.contents.length) with contents := t.contents ++ [c] }

theorem node?_withFile (t : FileTree) (p : Path) (c : Content) (q : Path) :
    (t.withFile p c).node? q = if q = p then some (.file t.contents.length) else t.node? q :=
  node?_put t p _ q

theorem withFile_keeps (free : t.node? p = none) :
    ∀ q, t.node? q = some .directory → (t.withFile p c).node? q = some .directory := by
  intro q hd
  have hother : q ≠ p := by
    rintro rfl
    cases free.symm.trans hd
  rwa [node?_withFile, if_neg hother]

/-- **In a directory each free name can be written to.** -/
theorem Stands.write (h : t.Stands directory place) (stand : CanStand name)
    (free : t.node? (place ++ [name]) = none) (c : Content) :
    t.write (directory ++ [name]) c = .ok (t.withFile (place ++ [name]) c) := by
  rw [FileTree.write, openNew, h.locate_of_canStand stand]
  simp [free, fill, withFile, put]

/-- What was written can be read. -/
theorem Stands.read?_withFile (h : t.Stands directory place) (stand : CanStand name)
    (free : t.node? (place ++ [name]) = none) (c : Content) :
    (t.withFile (place ++ [name]) c).read? (directory ++ [name]) = some c := by
  have hlocate := (h.mono (withFile_keeps (c := c) free)).locate_of_canStand stand
  have hnode := (node?_withFile t (place ++ [name]) c _).trans (if_pos rfl)
  simp only [read?, handle?, nodeAt?, hlocate, hnode]
  simp [content?, withFile]

/-- What could be read can be read. -/
theorem read?_withFile_of_read? (free : t.node? p = none) (h : t.read? q = some d) :
    (t.withFile p c).read? q = some d := by
  obtain ⟨k, hk, hcontent⟩ := Option.bind_eq_some_iff.mp h
  rw [handle?] at hk
  split at hk
  · rename_i k' hfile
    cases hk
    rw [nodeAt?] at hfile
    split at hfile
    · cases hfile
    · rename_i r hlocate
      have hother : r ≠ p := by
        rintro rfl
        cases free.symm.trans hfile
      have hlt : k < t.contents.length := (List.getElem?_eq_some_iff.mp hcontent).1
      have hcontent' : (t.withFile p c).content? k = some d :=
        (List.getElem?_append_left hlt).trans hcontent
      simp [read?, handle?, nodeAt?, locate_mono (withFile_keeps free) hlocate, node?_withFile, hother,
        hfile, hcontent']
  · cases hk

theorem write_of_writeRequest {submission : Submission} {disk : Option DiskRefusal}
    (h : t.writeRequest directory submission disk = .ok u) :
    t.write (directory ++ ["request.json"]) (.text submission.text) = .ok u := by
  unfold writeRequest at h
  split at h
  · cases h
  · exact h

theorem write_of_storeTimeline {timeline : Timeline} {disk : Option DiskRefusal}
    (h : t.storeTimeline directory timeline disk = .ok u) :
    t.write (directory ++ ["timeline.json"]) (.text (timeline.toJson.write .stored)) = .ok u := by
  unfold storeTimeline at h
  split at h
  · cases h
  · exact h

/-- A move that fails says so. -/
theorem rename_eq_error {source target : Path} {f : FileFault}
    (h : t.rename source target = .error f) : ∃ c, f = .moving c source target := by
  simp only [rename] at h
  repeat' split at h
  all_goals first
    | cases h; exact ⟨_, rfl⟩
    | cases h

/-! ### A directory for a new job -/

/-- A directory has been made for a job, and what is new is in it. -/
structure Housed (root place : Path) (id : JobId) (t u : FileTree) : Prop where
  stands : (u.outside place).Stands root place
  stand : CanStand id
  home : u.node? (place ++ [id]) = some .directory
  bare : ∀ q, place ++ [id] <+: q → t.node? q = none
  places : ∀ q, Inside place q → ¬ place ++ [id] <+: q → u.node? q = t.node? q
  contents : t.contents <+: u.contents

/-- A new directory is empty. -/
theorem Housed.made {root : Path} {id : JobId} (rooted : t.HasPlace root place) (nested : t.Nested)
    (other : id ≠ "..") (made : t.makeDirectory (root ++ [id]) = .ok u) :
    Housed root place id t u ∧ ∀ q, Inside (place ++ [id]) q → u.node? q = none := by
  obtain ⟨hstands, hname, hnone, hnew, hinside, -⟩ := rooted.makeDirectory other made
  have hbare (q : Path) (hq : place ++ [id] <+: q) : t.node? q = none :=
    nested.none_below (by simp) hnone hq
  have hcontents : u.contents = t.contents := contents_makeFrom made
  refine ⟨⟨hstands, hname, hnew, hbare, fun q hq hout => ?_, hcontents ▸ List.prefix_refl _⟩,
    fun q hq => ?_⟩
  · exact hinside q hq fun heq => hout (heq ▸ List.prefix_refl _)
  · rw [hinside q ((inside_concat place id).extend hq.1) hq.2]
    exact hbare q hq.1

/-- A new file in the directory. -/
theorem Housed.withFile {root : Path} {id : JobId} (h : Housed root place id t u)
    (free : u.node? (place ++ [id] ++ [name]) = none) (c : Content) :
    Housed root place id t (u.withFile (place ++ [id] ++ [name]) c) where
  stands := h.stands.outside_mono fun q _ hd => withFile_keeps free q hd
  stand := h.stand
  home := withFile_keeps free _ h.home
  bare := h.bare
  places := fun q hq hout => by
    have hother : q ≠ place ++ [id] ++ [name] := by
      rintro rfl
      exact hout (List.prefix_append _ _)
    rw [node?_withFile, if_neg hother]
    exact h.places q hq hout
  contents := h.contents.trans (List.prefix_append _ _)

end FileTree

/-! ### Undoing -/

/-- **A job is deleted with its directory**, unless the directory cannot be moved aside. -/
theorem Store.Sited.delete {s : Store} {place : Path} {id : JobId} (h : s.Sited place)
    (there : (s.find? id).isSome = true) (stands : (s.files.outside place).Stands s.root place)
    (stand : CanStand id) (home : s.files.node? (place ++ [id]) = some .directory) :
    (∃ c p q, (s.delete id).1 = .error (.files (.moving c p q))) ∨
      ∃ files, s.delete id =
          (.ok (), { s with jobs := s.jobs.filter fun j => j.id != id, files }) ∧
        files.contents = s.files.contents ∧
        ∀ q, files.node? q = if place ++ [id] <+: q ∨ place ++ [trashName id] <+: q then none
          else s.files.node? q := by
  obtain ⟨j, hj⟩ := Option.isSome_iff_exists.mp there
  obtain ⟨hmem, rfl⟩ := find?_eq_some hj
  have hmoved := h.detach there
  have hexists : s.files.exists? (s.directory j.id) = true := by
    rw [exists?, nodeAt?, directory, stands.of_outside.locate_of_canStand stand]
    exact Option.isSome_iff_exists.mpr ⟨_, home⟩
  rw [Store.delete]
  rcases detach_cases s j.id with
    ⟨hnone, -⟩ | ⟨k, hk, ⟨hgone, -⟩ | ⟨-, ⟨f, hmove, heq⟩ | ⟨files, hmove, heq⟩⟩⟩
  · cases hnone.symm.trans hj
  · cases hj.symm.trans hk
    rw [h.directories j hmem] at hgone
    cases hgone.symm.trans hexists
  · obtain ⟨c, rfl⟩ := rename_eq_error hmove
    rw [heq]
    exact Or.inl ⟨c, _, _, rfl⟩
  · cases hj.symm.trans hk
    rw [h.directories j hmem, Store.trashOf_directory] at heq
    rw [heq] at hmoved ⊢
    rcases hmoved with ⟨-, hnone, -⟩ | ⟨-, ⟨f, hf, -⟩ | ⟨-, -, -, htrash, haside⟩⟩
    · cases hnone
    · cases hf
    -- what was moved aside stands under the hidden name, and is removed there
    have hstands : files.Stands s.root place := (stands.outside_mono haside.keeps).of_outside
    have hhidden : files.node? (place ++ [trashName j.id]) = some .directory :=
      (haside.aside j.id (List.mem_singleton.mpr rfl)).trans home
    refine Or.inr ⟨_, rfl, (contents_remove ..).trans haside.contents, fun q => ?_⟩
    refine (node?_remove (hstands.locate_of_canStand htrash) hhidden q).trans ?_
    by_cases htrash' : place ++ [trashName j.id] <+: q
    · rw [if_pos htrash', if_pos (Or.inr htrash')]
    · rw [if_neg htrash']
      by_cases hhome : place ++ [j.id] <+: q
      · rw [if_pos (Or.inl hhome)]
        exact haside.gone j.id (List.mem_singleton.mpr rfl) q hhome
      · rw [if_neg (by simp [hhome, htrash'])]
        exact haside.kept q fun i hi => List.mem_singleton.mp hi ▸ ⟨hhome, htrash'⟩

/-! ### What a submission comes to -/

namespace Service

/-- No mark is left of a submission, but that an id is used up.  Below the root each place is as it was;
only where the new directory was moved aside, something that was there may be gone. -/
structure Traceless (place : Path) (s s' : Service) : Prop where
  jobs : s'.store.jobs = s.store.jobs
  tasks : s'.tasks = s.tasks
  rest : s' = { s with store := { s.store with
    issued := s'.store.issued, files := s'.store.files } }
  places : ∀ q, Inside place q → s'.store.files.node? q = s.store.files.node? q ∨
    place ++ [trashName (jobId (s.store.issued + 1))] <+: q ∧ s'.store.files.node? q = none
  contents : s.store.files.contents <+: s'.store.files.contents

/-- A new job is registered, and the submission is written down in its directory. -/
structure Registered (place : Path) (submission : Submission) (s s' : Service) (id : JobId) : Prop where
  id_eq : id = jobId (s.store.issued + 1)
  new : s.store.find? id = none
  jobs : s'.store.jobs = s.store.jobs ++ [s.store.newJob s.now s.now]
  rest : s' = { s with tasks := s'.tasks, store := { s.store with
    issued := s'.store.issued, files := s'.store.files, jobs := s'.store.jobs } }
  home : s'.store.files.node? (place ++ [id]) = some .directory
  request : s'.store.files.read? (s.store.directory id ++ ["request.json"]) =
    some (.text submission.text)
  places : ∀ q, Inside place q → ¬ place ++ [id] <+: q →
    s'.store.files.node? q = s.store.files.node? q
  contents : s.store.files.contents <+: s'.store.files.contents

/-- How a submission can end. -/
inductive Outcome (place : Path) (submission : Submission) (s : Service) :
    Except SubmitFault JobId → Service → Prop where
  | refused (f : SubmitFault) (s' : Service) (whole : ∀ run, f ≠ .torn run)
      (traceless : s.Traceless place s') :
      Outcome place submission s (.error f) s'
  /-- The new directory could not be moved aside. -/
  | stuck (c : FileCause) (source target : Path) (s' : Service) :
      Outcome place submission s (.error (.store (.files (.moving c source target)))) s'
  | torn (run : HalvedRun) (id : JobId) (s' : Service)
      (registered : s.Registered place submission s' id) (tasks : s'.tasks = s.tasks) :
      Outcome place submission s (.error (.torn run)) s'
  | taken (t : Timeline) (id : JobId) (s' : Service) (read : submission.read = .ok t)
      (registered : s.Registered place submission s' id)
      (tasks : s'.tasks = s.tasks ++ [⟨id, t, .created, false⟩])
      (stored : s'.store.files.read? (s.store.directory id ++ ["timeline.json"]) =
        some (.text (t.toJson.write .stored))) :
      Outcome place submission s (.ok id) s'

variable {place : Path} {s : Service} {submission : Submission}

/-- Nothing happens but that ids are used up. -/
theorem traceless_issued (place : Path) (s : Service) (issued : Nat) :
    s.Traceless place (s.setStore { s.store with issued }) where
  jobs := rfl
  tasks := rfl
  rest := rfl
  places := fun _ _ => Or.inl rfl
  contents := List.prefix_refl _

/-- A job that is given up leaves no mark. -/
theorem giveUp_outcome (sited : s.store.Sited place) {files : FileTree}
    (housed : Housed s.store.root place (jobId (s.store.issued + 1)) s.store.files files)
    (f : FileFault) :
    Outcome place submission s
      ((s.setStore (s.store.register s.now files)).giveUp (jobId (s.store.issued + 1)) f).1
      ((s.setStore (s.store.register s.now files)).giveUp (jobId (s.store.issued + 1)) f).2 := by
  have hnumbered := sited.numbered
  have hsited : (s.store.register s.now files).Sited place := by
    refine ⟨hnumbered.register s.now files, fun j hj => ?_, Or.inl housed.stands⟩
    rcases List.mem_append.mp hj with hj | hj
    · exact sited.directories j hj
    · rw [List.mem_singleton.mp hj]
      rfl
  have hfound : ((s.store.register s.now files).find? (jobId (s.store.issued + 1))).isSome = true := by
    rw [Store.find?_register, hnumbered.find?_next]
    simp
  have hjobs : (s.store.register s.now files).jobs.filter
      (fun j => j.id != jobId (s.store.issued + 1)) = s.store.jobs := by
    rw [Store.register, List.filter_append, List.filter_eq_self.mpr fun j hj => by
      simpa using hnumbered.fresh j hj]
    simp [Store.newJob, Job.fresh]
  rw [giveUp]
  rcases hsited.delete hfound housed.stands housed.stand housed.home with
    ⟨c, p, q, herror⟩ | ⟨files', heq, hcontents, hplaces⟩
  · rcases hdelete : (s.store.register s.now files).delete (jobId (s.store.issued + 1)) with
      ⟨answer, store⟩
    rw [hdelete] at herror
    cases herror
    simp only [store_setStore, hdelete]
    exact .stuck c p q _
  · simp only [store_setStore, heq, hjobs]
    refine .refused _ _ (fun _ => SubmitFault.noConfusion)
      ⟨rfl, rfl, rfl, fun q hq => ?_, hcontents ▸ housed.contents⟩
    show files'.node? q = s.store.files.node? q ∨ _ ∧ files'.node? q = none
    rw [hplaces]
    by_cases hhome : place ++ [jobId (s.store.issued + 1)] <+: q
    · rw [if_pos (Or.inl hhome)]
      exact Or.inl (housed.bare q hhome).symm
    · by_cases htrash : place ++ [trashName (jobId (s.store.issued + 1))] <+: q
      · rw [if_pos (Or.inr htrash)]
        exact Or.inr ⟨htrash, rfl⟩
      · rw [if_neg (by simp [hhome, htrash])]
        exact Or.inl (housed.places q hq hhome)

theorem requestName_stands : CanStand "request.json" := ⟨by decide, by decide, by decide⟩

theorem timelineName_stands : CanStand "timeline.json" := ⟨by decide, by decide, by decide⟩

/-- A job with a directory in which the submission is written down is registered. -/
theorem Registered.of_housed (sited : s.store.Sited place) {files : FileTree} {tasks : List Task}
    (housed : Housed s.store.root place (jobId (s.store.issued + 1)) s.store.files files)
    (request : files.read? (s.store.directory (jobId (s.store.issued + 1)) ++ ["request.json"]) =
      some (.text submission.text)) :
    s.Registered place submission { s with store := s.store.register s.now files, tasks }
      (jobId (s.store.issued + 1)) where
  id_eq := rfl
  new := sited.numbered.find?_next
  jobs := rfl
  rest := rfl
  home := housed.home
  request := request
  places := housed.places
  contents := housed.contents

/-- A submission is written down in the directory that was made for it. -/
theorem accept_outcome_of_made (sited : s.store.Sited place) {made : FileTree}
    (housed : Housed s.store.root place (jobId (s.store.issued + 1)) s.store.files made)
    (empty : ∀ q, Inside (place ++ [jobId (s.store.issued + 1)]) q → made.node? q = none)
    (created : s.store.create s.rounding s.now =
      (.ok (s.store.newJob s.now s.now), s.store.register s.now made))
    {t : Timeline} (read : submission.read = .ok t) (disk : Option DiskRefusal) :
    Outcome place submission s (s.accept submission t disk).1 (s.accept submission t disk).2 := by
  have hstands : made.Stands (s.store.directory (jobId (s.store.issued + 1)))
      (place ++ [jobId (s.store.issued + 1)]) :=
    housed.stands.of_outside.entry housed.stand housed.home
  have hfree (name : String) :
      made.node? (place ++ [jobId (s.store.issued + 1)] ++ [name]) = none :=
    empty _ (inside_concat _ name)
  have hrequest := hstands.write requestName_stands (hfree _) (.text submission.text)
  have hread := hstands.read?_withFile requestName_stands (hfree _) (.text submission.text)
  have hhoused := housed.withFile (hfree "request.json") (.text submission.text)
  set files := made.withFile (place ++ [jobId (s.store.issued + 1)] ++ ["request.json"])
    (.text submission.text) with hfiles
  -- the stored form has a name of its own
  have hfree' : files.node? (place ++ [jobId (s.store.issued + 1)] ++ ["timeline.json"]) = none := by
    rw [hfiles, node?_withFile, if_neg (by simp)]
    exact hfree _
  have hstands' : files.Stands (s.store.directory (jobId (s.store.issued + 1)))
      (place ++ [jobId (s.store.issued + 1)]) := hstands.mono (withFile_keeps (hfree _))
  have hstored := hstands'.write timelineName_stands hfree' (.text (t.toJson.write .stored))
  have hreads := hstands'.read?_withFile timelineName_stands hfree' (.text (t.toJson.write .stored))
  have hhoused' := hhoused.withFile hfree' (.text (t.toJson.write .stored))
  have hread' := read?_withFile_of_read? (c := .text (t.toJson.write .stored)) hfree' hread
  rw [accept, created]
  dsimp only
  split
  · rename_i f _
    exact giveUp_outcome sited housed f
  · rename_i files' hwritten
    obtain rfl : files' = files := Except.ok.inj ((write_of_writeRequest hwritten).symm.trans hrequest)
    split
    · rename_i run _
      exact .torn run _ _ (Registered.of_housed sited hhoused hread) rfl
    · split
      · rename_i f _
        exact giveUp_outcome sited hhoused f
      · rename_i more hmore
        obtain rfl := Except.ok.inj ((write_of_storeTimeline hmore).symm.trans hstored)
        exact .taken t _ _ read (Registered.of_housed sited hhoused' hread') rfl hreads

/-- What becomes of a timeline that has been checked. -/
theorem accept_outcome (sited : s.store.Sited place) (nested : s.store.files.Nested)
    (date : Timestamp.check s.rounding s.now = .ok ()) {t : Timeline}
    (read : submission.read = .ok t) (disk : Option DiskRefusal) :
    Outcome place submission s (s.accept submission t disk).1 (s.accept submission t disk).2 := by
  cases hmade : s.store.files.makeDirectory (s.store.directory (jobId (s.store.issued + 1))) with
  | error f =>
    have hcreate : s.store.create s.rounding s.now =
        (.error (.files f), { s.store with issued := s.store.issued + 1 }) := by
      simp only [Store.create, Store.directory] at hmade ⊢
      rw [hmade]
    rw [accept, hcreate]
    exact .refused _ _ (fun _ => SubmitFault.noConfusion) (traceless_issued place s _)
  | ok made =>
    obtain ⟨hhoused, hempty⟩ :=
      Housed.made sited.rooted nested (jobId_ne_dots (s.store.issued + 1)) hmade
    have hcreate : s.store.create s.rounding s.now =
        (.ok (s.store.newJob s.now s.now), s.store.register s.now made) := by
      simp only [Store.create, Store.directory] at hmade ⊢
      rw [hmade]
      simp only [date]
      rfl
    exact accept_outcome_of_made sited hhoused hempty hcreate read disk

/-- **A submission is taken whole or leaves no mark**, unless it is torn. -/
theorem submit_outcome (sited : s.store.Sited place) (nested : s.store.files.Nested)
    (date : Timestamp.check s.rounding s.now = .ok ()) (submission : Submission)
    (disk : Option DiskRefusal) :
    Outcome place submission s (s.submit submission disk).1 (s.submit submission disk).2 := by
  have hsame : s.Traceless place s := traceless_issued place s s.store.issued
  rw [submit]
  split
  · cases hread : submission.read with
    | error f => exact .refused _ _ (fun _ => SubmitFault.noConfusion) hsame
    | ok t =>
      dsimp only
      split
      · exact .refused _ _ (fun _ => SubmitFault.noConfusion) hsame
      · exact accept_outcome sited nested date hread disk
  · exact .refused _ _ (fun _ => SubmitFault.noConfusion) hsame

end Service

open Service

end Montage
