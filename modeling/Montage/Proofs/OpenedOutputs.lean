import Montage.Proofs.JobHistory
import Montage.Proofs.SharedStore

/-! # Opened outputs

Whoever opens the output of a job gets a handle or is told why not, and opening changes nothing.  After a
job has completed nobody may write to its output any more; then a handle leads to what the output held at
that moment, and goes on leading there while the job is deleted or expires and its directory is set aside
and removed (`SharedStore.Shelved`).  The read that follows may take any time, and any number of
handles may be open.

Completing is an event of a run (`SharedStore.Completes`), and a job that is found completed has completed
before (`exists_completes`).
-/
namespace Montage

open FileTree Path

/-- Nobody writes to a file: the place leads to it or is empty, and the file holds what it held. -/
def FileTree.Unwritten (p : Path) (t u : FileTree) : Prop :=
  (u.node? p = t.node? p ∨ u.node? p = none) ∧
    ∀ k, t.node? p = some (.file k) → u.content? k = t.content? k

namespace SharedStore
variable {s d : SharedStore} {r : Rounding} {root place : Path} {files : FileTree} {id : JobId}
  {e : StoreEvent} {events past : List StoreEvent} {j j' : Job}

/-- A job completes with an event. -/
structure Completes (r : Rounding) (id : JobId) (s : SharedStore) (e : StoreEvent) : Prop where
  before : ∃ j, s.store.find? id = some j ∧ j.state ≠ .completed
  after : ∃ j, (s.step r e).store.find? id = some j ∧ j.state = .completed

/-- What the output of a job holds. -/
def output? (s : SharedStore) (id : JobId) : Option Content :=
  (s.store.find? id).bind fun j => s.store.files.read? j.outputPath

/-- Nobody writes to the output of a job: others leave in it what was there at some moment. -/
def Unwritten (place : Path) (id : JobId) (d : SharedStore) (events : List StoreEvent) : Prop :=
  ∀ files, .called (.disk files) ∈ events →
    d.store.files.Unwritten (place ++ [id, Job.outputName]) files

/-- Why the output of a job that has completed cannot be opened. -/
inductive NoOutput (place : Path) (id : JobId) (d : SharedStore) (past : List StoreEvent) :
    FileCause → Prop where
  /-- The job has made none. -/
  | notMade (h : d.store.files.node? (place ++ [id, Job.outputName]) = none) :
    NoOutput place id d past .missing
  /-- Somebody else has taken it away. -/
  | taken {files : FileTree} (write : .called (.disk files) ∈ past)
      (h : files.node? (place ++ [id, Job.outputName]) = none) : NoOutput place id d past .missing
  /-- What the job has made is no file. -/
  | noFile (h : d.store.files.node? (place ++ [id, Job.outputName]) = some .directory) :
    NoOutput place id d past .isDirectory

/-- A job that is found completed has completed in the run. -/
theorem exists_completes (h : s.Sound place) (bare : s.store.find? id = none)
    (respected : s.Respected r place events) (there : (s.run r events).store.find? id = some j)
    (completed : j.state = .completed) :
    ∃ before e after, events = before ++ e :: after ∧ Completes r id (s.run r before) e := by
  induction events using List.reverseRecOn generalizing j with
  | nil => cases bare.symm.trans there
  | append_singleton events e ih =>
    have hsound := h.run respected.append.1
    rw [run_append] at there
    replace there : ((s.run r events).step r e).store.find? id = some j := there
    cases hfind : (s.run r events).store.find? id with
    | none =>
      -- a new job has not completed
      obtain ⟨hmem, hid⟩ := Store.find?_eq_some there
      rcases mem_jobs_step hmem with ⟨now, steady, rfl⟩ | ⟨k, hk, c, hstep⟩
      · cases completed
      · have := List.find?_eq_none.mp hfind k hk
        simp [hstep.id_eq.symm.trans hid] at this
    | some k =>
      by_cases hk : k.state = .completed
      · obtain ⟨before, e', after, rfl, hcompletes⟩ := ih respected.append.1 hfind hk
        exact ⟨before, e', after ++ [e], by simp, hcompletes⟩
      · exact ⟨events, e, [], rfl, ⟨k, hfind, hk⟩, ⟨j, there, completed⟩⟩

/-- What a job has made since it completed: as long as the job is there its output is the same or has been
taken away, and what was written stays in any case. -/
structure Shelved (place : Path) (j : Job) (past : List StoreEvent) (d s : SharedStore) : Prop where
  sound : s.Sound place
  issued : s.store.Issued j.id
  record : ∀ j', s.store.find? j.id = some j' → j' = j
  name : (s.store.find? j.id).isSome = true →
    s.store.files.node? (place ++ [j.id, Job.outputName]) =
        d.store.files.node? (place ++ [j.id, Job.outputName]) ∨
      s.store.files.node? (place ++ [j.id, Job.outputName]) = none ∧
        ∃ files, .called (.disk files) ∈ past ∧
          files.node? (place ++ [j.id, Job.outputName]) = none
  content : ∀ k, d.store.files.node? (place ++ [j.id, Job.outputName]) = some (.file k) →
    s.store.files.content? k = d.store.files.content? k

/-- What is written elsewhere stays what it is, by whomever. -/
theorem content?_step {p : Path} {k : Handle} (node : d.store.files.node? p = some (.file k))
    (content : s.store.files.content? k = d.store.files.content? k)
    (unwritten : ∀ files, e = .called (.disk files) → d.store.files.Unwritten p files) :
    (s.step r e).store.files.content? k = d.store.files.content? k := by
  by_cases hdisk : ∃ files, e = .called (.disk files)
  · obtain ⟨files, rfl⟩ := hdisk
    exact (unwritten files rfl).2 k node
  · have hsame := (shuffles_step (s := s) (r := r) fun files he => hdisk ⟨files, he⟩).contents
    rw [content?, hsame]
    exact content

theorem content?_run {k : Handle}
    (node : d.store.files.node? (place ++ [id, Job.outputName]) = some (.file k))
    (content : s.store.files.content? k = d.store.files.content? k)
    (unwritten : d.Unwritten place id events) :
    (s.run r events).store.files.content? k = d.store.files.content? k := by
  induction events generalizing s with
  | nil => exact content
  | cons e rest ih =>
    refine ih (content?_step node content fun files he => ?_) fun files hmem =>
      unwritten files (List.mem_cons_of_mem e hmem)
    exact unwritten files (he ▸ List.mem_cons_self)

namespace Shelved

theorem refl (h : d.Sound place) (there : d.store.find? j.id = some j) :
    Shelved place j [] d d where
  sound := h
  issued := h.homed.issued (Store.find?_eq_some there).1
  record := fun _ hj' => Option.some.inj (hj'.symm.trans there)
  name := fun _ => Or.inl rfl
  content := fun _ _ => rfl

/-- **One step leaves what a job has made.** -/
theorem step (h : Shelved place j past d s) (completed : j.state = .completed)
    (writes : ∀ files, e = .called (.disk files) → s.store.LeavesHomes place files ∧ files.Filled)
    (unwritten : ∀ files, e = .called (.disk files) →
      d.store.files.Unwritten (place ++ [j.id, Job.outputName]) files) :
    Shelved place j (past ++ [e]) d (s.step r e) := by
  by_cases hdisk : ∃ files, e = .called (.disk files)
  · obtain ⟨files, rfl⟩ := hdisk
    refine ⟨h.sound.step writes, h.issued, h.record, fun _ => ?_,
      fun k hk => content?_step hk (h.content k hk) unwritten⟩
    rcases (unwritten files rfl).1 with hsame | hnone
    · exact Or.inl hsame
    · exact Or.inr ⟨hnone, files, List.mem_append_right _ List.mem_cons_self, hnone⟩
  · have htends := h.sound.tends (r := r) fun files he => hdisk ⟨files, he⟩
    refine ⟨h.sound.step writes, h.issued.mono htends.issued, fun j' hj' => ?_, fun there => ?_,
      fun k hk => content?_step hk (h.content k hk) unwritten⟩
    · obtain ⟨hthere, -⟩ := htends.stays j.id h.issued (by rw [hj']; rfl)
      obtain ⟨k, hk⟩ := Option.isSome_iff_exists.mp hthere
      obtain rfl := h.record k hk
      exact h.sound.find?_step hk (by rw [completed]; rfl) hj'
    · obtain ⟨hthere, hnodes⟩ := htends.stays j.id h.issued there
      rw [hnodes _ ⟨[Job.outputName], by simp⟩]
      refine (h.name hthere).imp_right fun ⟨hnone, files, hmem, hgone⟩ => ?_
      exact ⟨hnone, files, List.mem_append_left _ hmem, hgone⟩

theorem run (h : Shelved place j past d s) (completed : j.state = .completed)
    (respected : s.Respected r place events) (unwritten : d.Unwritten place j.id events) :
    Shelved place j (past ++ events) d (s.run r events) := by
  induction events generalizing s past with
  | nil => rwa [List.append_nil]
  | cons e rest ih =>
    have hstep := h.step (r := r) completed respected.1 fun files he =>
      unwritten files (he ▸ List.mem_cons_self)
    have hrest := ih hstep respected.2 fun files hmem =>
      unwritten files (List.mem_cons_of_mem e hmem)
    rwa [List.append_assoc, List.singleton_append] at hrest

/-- **What opening the output of a job that has completed answers.** -/
theorem openOutput (h : Shelved place j past d s) (completed : j.state = .completed)
    (sound : d.Sound place) (there : d.store.find? j.id = some j) :
    s.store.find? j.id = none ∧ s.store.openOutput j.id = .error (.notFound j.id) ∨
      (∃ k content, s.store.openOutput j.id = .ok k ∧ d.output? j.id = some content ∧
        d.store.files.node? (place ++ [j.id, Job.outputName]) = some (.file k) ∧
        d.store.files.content? k = some content) ∨
      ∃ cause, s.store.openOutput j.id = .error (.files (.at cause j.outputPath)) ∧
        d.NoOutput place j.id past cause := by
  cases hfind : s.store.find? j.id with
  | none => exact Or.inl ⟨rfl, by rw [Store.openOutput, hfind]⟩
  | some k =>
    obtain rfl := h.record k hfind
    have hname := h.name (by rw [hfind]; rfl)
    have hlocate := h.sound.homed.locate_output (Store.find?_eq_some hfind).1
    have hanswer : s.store.openOutput k.id =
        (s.store.files.openFile k.outputPath).mapError .files := by
      rw [Store.openOutput, hfind]
      exact if_pos completed
    rw [hanswer]
    cases hnode : s.store.files.node? (place ++ [k.id, Job.outputName]) with
    | none =>
      have hfile : s.store.files.openFile k.outputPath = .error (.at .missing k.outputPath) := by
        simp only [openFile, hlocate, hnode]
      refine Or.inr (Or.inr ⟨.missing, by rw [hfile]; rfl, ?_⟩)
      rcases hname with hsame | ⟨-, files, hmem, hgone⟩
      · exact .notMade (hsame.symm.trans hnode)
      · exact .taken hmem hgone
    | some n =>
      have hsame : d.store.files.node? (place ++ [k.id, Job.outputName]) = some n := by
        rcases hname with hsame | ⟨hnone, -⟩
        · exact hsame.symm.trans hnode
        · cases hnone.symm.trans hnode
      cases n with
      | directory =>
        have hfile : s.store.files.openFile k.outputPath =
            .error (.at .isDirectory k.outputPath) := by
          simp only [openFile, hlocate, hnode]
        exact Or.inr (Or.inr ⟨.isDirectory, by rw [hfile]; rfl, .noFile hsame⟩)
      | file handle =>
        have hfile : s.store.files.openFile k.outputPath = .ok handle := by
          simp only [openFile, hlocate, hnode]
        have hlt : handle < d.store.files.contents.length := sound.filled _ _ (mem_of_node? hsame)
        have hcontent : d.store.files.content? handle = some d.store.files.contents[handle] :=
          List.getElem?_eq_getElem hlt
        refine Or.inr (Or.inl ⟨handle, _, by rw [hfile]; rfl, ?_, hsame, hcontent⟩)
        have hlocate' := sound.homed.locate_output (Store.find?_eq_some there).1
        rw [output?, there, Option.bind_some, read?, handle?, nodeAt?, hlocate']
        simp only [hsame]
        exact hcontent

end Shelved
end SharedStore

/-- **Opening an output gives all of it, or nothing**, whoever deletes jobs or lets them expire meanwhile.
The content behind a handle is that of the completion at every later moment, so it makes no difference how
long a read takes. -/
theorem opened_outputs {r : Rounding} {root place : Path} {files : FileTree}
    {events : List StoreEvent} {s : SharedStore} (rooted : files.HasPlace root place)
    (filled : files.Filled) (respected : (SharedStore.begin root files).Respected r place events)
    (reached : (SharedStore.begin root files).run r events = s) :
    -- whatever the answer is, nothing changes
    (∀ id, s.step r (.called (.openOutput id)) = s) ∧
    -- before a job has completed there is no handle
    (∀ id, (∀ before e after, events = before ++ e :: after →
        ¬ SharedStore.Completes r id ((SharedStore.begin root files).run r before) e) →
      s.store.find? id = none ∧ s.store.openOutput id = .error (.notFound id) ∨
        ∃ j, s.store.find? id = some j ∧ j.state ≠ .completed ∧
          s.store.openOutput id = .error (.notReady id j.state)) ∧
    -- after that a handle leads to what the job has made, as long as anybody likes to read
    ∀ id before e after d, events = before ++ e :: after →
      SharedStore.Completes r id ((SharedStore.begin root files).run r before) e →
      ((SharedStore.begin root files).run r before).step r e = d →
      d.Unwritten place id after →
      s.store.find? id = none ∧ s.store.openOutput id = .error (.notFound id) ∨
        (∃ k content, s.store.openOutput id = .ok k ∧ d.output? id = some content ∧
          ∀ more, d.Unwritten place id more →
            (s.run r more).store.files.content? k = some content) ∨
        -- or else there is no file
        ∃ cause, s.store.openOutput id =
            .error (.files (.at cause (root ++ [id, Job.outputName]))) ∧
          d.NoOutput place id after cause := by
  have hbegin : (SharedStore.begin root files).Sound place := .begin rooted filled
  have hsound : s.Sound place := reached ▸ hbegin.run respected
  refine ⟨fun id => ?_, fun id hnever => ?_, ?_⟩
  · simp [SharedStore.step, Store.hold, Store.perform]
  · cases hfind : s.store.find? id with
    | none => exact Or.inl ⟨rfl, by rw [Store.openOutput, hfind]⟩
    | some j =>
      have hstate : j.state ≠ .completed := fun hcompleted => by
        rw [← reached] at hfind
        obtain ⟨before, e, after, heq, hcompletes⟩ :=
          SharedStore.exists_completes hbegin rfl respected hfind hcompleted
        exact hnever before e after heq hcompletes
      refine Or.inr ⟨j, rfl, hstate, ?_⟩
      rw [Store.openOutput, hfind]
      exact if_neg hstate
  · rintro id before e after d rfl ⟨-, j, hj, hcompleted⟩ rfl hunwritten
    obtain ⟨hbefore, hwrites, hafter⟩ := respected.append
    have hd := (hbegin.run hbefore).step (r := r) hwrites
    obtain ⟨hmem, rfl⟩ := Store.find?_eq_some hj
    have hshelved := (SharedStore.Shelved.refl hd hj).run hcompleted hafter hunwritten
    have hpath : j.outputPath = root ++ [j.id, Job.outputName] := by
      rw [Job.outputPath, hd.homed.directories j hmem, Store.directory, SharedStore.root_step,
        SharedStore.root_run, List.append_assoc]
      rfl
    have hreached : (((SharedStore.begin root files).run r before).step r e).run r after = s := by
      rw [← reached, SharedStore.run_append]
      rfl
    rw [hreached, List.nil_append] at hshelved
    rcases hshelved.openOutput hcompleted hd hj with
      hgone | ⟨k, content, hopened, houtput, hnode, hcontent⟩ | ⟨cause, hmissing, hwhy⟩
    · exact Or.inl hgone
    · refine Or.inr (Or.inl ⟨k, content, hopened, houtput, fun more hmore => ?_⟩)
      exact (SharedStore.content?_run hnode (hshelved.content k hnode) hmore).trans hcontent
    · exact Or.inr (Or.inr ⟨cause, hpath ▸ hmissing, hwhy⟩)

namespace Sample

def sharedStore : SharedStore :=
  (SharedStore.begin ["work"] store.files).run .exact [.called (.create (.finite 0) (.finite 0))]

/-- Files after the job has made its output. -/
def outputFiles : FileTree :=
  { sharedStore.store.files.put ["work", jobId 1, Job.outputName] (.file 0) with
    contents := [.media 9] }

def rendering : List StoreEvent :=
  [.called (.create (.finite 0) (.finite 0)), .called (.disk outputFiles)]

def completion : StoreEvent :=
  .called (.transition (jobId 1) .completed none none (.finite 3))

/-- The output is opened, and the job is deleted; its directory is removed in two pieces. -/
def removal : List StoreEvent :=
  [.called (.openOutput (jobId 1)), .called (.delete (jobId 1)),
    .cleared ["work", trashName (jobId 1)] [["work", trashName (jobId 1), Job.outputName]],
    .cleared ["work", trashName (jobId 1)] [["work", trashName (jobId 1)]]]

/-- The store when the job has completed. -/
def completedStore : SharedStore :=
  (SharedStore.begin ["work"] store.files).run .exact (rendering ++ [completion])

end Sample

theorem opened_outputs_sample :
    (∃ k, Sample.completedStore.store.openOutput (jobId 1) = .ok k ∧
      (Sample.completedStore.run .exact Sample.removal).store.files.content? k =
        some (.media 9)) ∧
      (Sample.completedStore.run .exact Sample.removal).store.files.entries =
        [(["work"], .directory)] := by
  have hrooted : Sample.store.files.HasPlace ["work"] ["work"] := Or.inr ⟨by decide, rfl⟩
  have hfilled : Sample.store.files.Filled := by
    intro q k hq
    cases List.mem_singleton.mp hq
  have hleaves : Sample.sharedStore.store.LeavesHomes ["work"] Sample.outputFiles := by
    intro q hd _
    have hne : q ≠ ["work", jobId 1, Job.outputName] := by
      rintro rfl
      exact absurd hd (by decide +kernel)
    show (FileTree.put _ _ _).node? q = _
    rw [node?_put, if_neg hne]
    exact hd
  have hentries : Sample.outputFiles.entries = [(["work"], .directory),
      (["work", jobId 1], .directory), (["work", jobId 1, Job.outputName], .file 0)] := by
    decide +kernel
  have hfilled' : Sample.outputFiles.Filled := by
    intro q k hq
    rw [hentries] at hq
    simp only [List.mem_cons, Prod.mk.injEq, reduceCtorEq, and_false, FileNode.file.injEq,
      List.not_mem_nil, or_false, false_or] at hq
    obtain ⟨-, rfl⟩ := hq
    decide
  have hrespected : (SharedStore.begin ["work"] Sample.store.files).Respected .exact ["work"]
      (Sample.rendering ++ [Sample.completion]) := by
    refine ⟨nofun, fun files he => ?_, nofun, trivial⟩
    cases he
    exact ⟨hleaves, hfilled'⟩
  have hcompletes : SharedStore.Completes .exact (jobId 1)
      ((SharedStore.begin ["work"] Sample.store.files).run .exact Sample.rendering)
      Sample.completion :=
    ⟨⟨⟨jobId 1, ["work", jobId 1], .queued, none, none, none, .finite 0, none, none, .finite 0⟩,
      by decide +kernel, by decide⟩,
    ⟨⟨jobId 1, ["work", jobId 1], .completed, none, none, some 9, .finite 0, none,
      some (.finite 3), .finite 0⟩, by decide +kernel, rfl⟩⟩
  have hok : (Sample.completedStore.store.openOutput (jobId 1)).isOk = true := by decide +kernel
  have houtput : Sample.completedStore.output? (jobId 1) = some (.media 9) := by decide +kernel
  obtain ⟨-, -, hanswer⟩ := opened_outputs hrooted hfilled hrespected rfl
  refine ⟨?_, by decide +kernel⟩
  rcases hanswer (jobId 1) Sample.rendering Sample.completion [] Sample.completedStore rfl hcompletes
    rfl nofun with ⟨-, hgone⟩ | ⟨k, content, hopened, hheld, hread⟩ | ⟨cause, hmissing, -⟩
  · rw [show Sample.completedStore.store.openOutput (jobId 1) = _ from hgone] at hok
    cases hok
  · cases houtput.symm.trans hheld
    refine ⟨k, hopened, hread Sample.removal fun files hmem => ?_⟩
    simp [Sample.removal] at hmem
  · rw [show Sample.completedStore.store.openOutput (jobId 1) = _ from hmissing] at hok
    cases hok

end Montage
