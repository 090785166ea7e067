import Montage.Proofs.JobPlaces

/-! # Watching a place

What the service does to a place that belongs to a job: the directory of the job, or the output in
it.  Every event is about some jobs, and it spares the places of all other jobs (`Watched`).  Even
the task of the job itself does not write to its output; this is left to the process of the engine.
-/
namespace Montage

open FileTree Service

/-! ### Places that no task writes to -/

/-- The directory that has a name below the root, or the output in it. -/
def Store.Reserved (s : Store) (name : String) (p : Path) : Prop :=
  p = s.directory name ∨ p = s.directory name ++ [Job.outputName]

/-- A place in the directory that has a name below the root, or that directory. -/
def Store.Below (s : Store) (name : String) (p : Path) : Prop := s.directory name <+: p

/-- No task of a job writes to a place. -/
def Store.OutOfReach (s : Store) (id : JobId) (p : Path) : Prop :=
  ¬ s.directory id ++ [Job.assetsName] <+: p ∧
    ∀ entry ≠ Job.outputName, p ≠ s.directory id ++ [entry]

namespace Store.Reserved
variable {s : Store} {name other : String} {p : Path}

theorem not_assets (h : s.Reserved name p) (id : JobId) :
    ¬ s.directory id ++ [Job.assetsName] <+: p := by
  rintro hpre
  rcases h with rfl | rfl
  · have := hpre.length_le
    simp [directory] at this
  · have hlength : (s.directory id ++ [Job.assetsName]).length =
        (s.directory name ++ [Job.outputName]).length := by simp [directory]
    have := List.append_inj_right' (hpre.eq_of_length hlength) rfl
    exact absurd (List.singleton_inj.mp this) (by decide)

theorem ne_entry (h : s.Reserved name p) (id : JobId) {entry : String}
    (hentry : entry ≠ Job.outputName) : p ≠ s.directory id ++ [entry] := by
  rintro rfl
  rcases h with h | h
  · have := congrArg List.length h
    simp [directory] at this
  · exact hentry (List.singleton_inj.mp (List.append_inj_right' h rfl))

/-- Above the directory of another name it does not stand. -/
theorem not_above (h : s.Reserved name p) (hne : p ≠ s.directory other) :
    ¬ p <+: s.directory other := by
  intro hpre
  rcases h with rfl | rfl
  · exact hne (hpre.eq_of_length (by simp [directory]))
  · have := hpre.length_le
    simp [directory] at this

theorem below (h : s.Reserved name p) : s.Below name p := by
  rcases h with rfl | rfl
  · exact List.prefix_refl _
  · exact List.prefix_append _ _

theorem outOfReach (h : s.Reserved name p) (id : JobId) : s.OutOfReach id p :=
  ⟨h.not_assets id, fun _ => h.ne_entry id⟩

end Store.Reserved

namespace Store.Below
variable {s : Store} {name other : String} {p : Path}

/-- A place is below the directory of one name. -/
theorem not_below (h : s.Below name p) (hother : name ≠ other) : ¬ s.directory other <+: p := by
  intro hpre
  have hlength : (s.directory other).length = (s.directory name).length := by simp [directory]
  have hdirectory := (List.prefix_of_prefix_length_le hpre h (Nat.le_of_eq hlength)).eq_of_length
    hlength
  exact hother (List.singleton_inj.mp (List.append_inj_right' hdirectory rfl)).symm

theorem not_above (h : s.Below name p) (hother : name ≠ other) : ¬ p <+: s.directory other :=
  fun hpre => (Below.not_below (s := s) (List.prefix_refl _) hother.symm) (h.trans hpre)

/-- What is below the directory of one name is out of reach for a job of another name. -/
theorem outOfReach (h : s.Below name p) (hother : name ≠ other) : s.OutOfReach other p := by
  refine ⟨fun hpre => ?_, fun entry _ heq => ?_⟩
  · exact h.not_below hother ((List.prefix_append _ _).trans hpre)
  · exact h.not_below hother (heq ▸ List.prefix_append _ _)

end Store.Below

theorem Store.plain_directory {s : Store} (plain : ".." ∉ s.root) {name : String}
    (hname : name ≠ "..") : ".." ∉ s.directory name :=
  Path.plain_concat plain hname

theorem Store.directory_ne_nil {s : Store} {name : String} : s.directory name ≠ [] :=
  Path.concat_ne_nil

/-- No file that one of some jobs has open stands at a place, and a file that stands there stands
nowhere else. -/
structure WatchedFor (jobs : JobId → Prop) (p : Path) (s : Service) : Prop where
  sane : s.store.files.Sane p
  within : ∀ id, jobs id → ∀ t ds, s.task? id = some t → t.phase = .fetching ds →
    ds.Within p (s.store.directory id ++ [Job.assetsName]) s.store.files

/-- No file that is open stands at a place, and a file that stands there stands nowhere else. -/
abbrev Watched (p : Path) (s : Service) : Prop := WatchedFor (fun _ => True) p s

/-- A place is spared by what is written on the way of a job, unless it is the output of the job and
the engine writes it. -/
inductive Touched (p : Path) (id : JobId) (s : Service) (u : FileTree) : Prop where
  | spared (spares : Spares p s.store.files u)
  | output (size : Nat) (place : p = s.store.directory id ++ [Job.outputName])
      (running : s.process? id = some .running)
      (made : s.store.files.write p (.media size) = .ok u)

/-- Others who change the files leave a place alone. -/
def Avoids (p : Path) (s : Service) : Event → Prop
  | .disk files => Spares p s.store.files files
  | _ => True

namespace WatchedFor
variable {jobs : JobId → Prop} {p : Path} {s s' : Service} {id : JobId} {name : String}

theorem of_spares (h : WatchedFor jobs p s) (root : s'.store.root = s.store.root)
    (spares : Spares p s.store.files s'.store.files)
    (tasks : ∀ id t' ds, s'.task? id = some t' → t'.phase = .fetching ds →
      (∃ t, s.task? id = some t ∧ t.phase = .fetching ds) ∨
        ds.Within p (s.store.directory id ++ [Job.assetsName]) s'.store.files) :
    WatchedFor jobs p s' where
  sane := spares.sane h.sane
  within := fun id hid t' ds ht' phase => by
    have hdirectory : s'.store.directory id = s.store.directory id := by
      rw [Store.directory, root, Store.directory]
    rw [hdirectory]
    rcases tasks id t' ds ht' phase with ⟨t, ht, phase⟩ | hwithin
    · exact (h.within id hid t ds ht phase).mono spares
    · exact hwithin

/-- A task that stands somewhere else may have begun to fetch. -/
theorem fetching_setPhase {phase : TaskPhase} {other : JobId} {t' : Task} {ds : Downloads}
    (ht' : (s.setPhase id phase).task? other = some t') (hphase : t'.phase = .fetching ds) :
    (∃ t, s.task? other = some t ∧ t.phase = .fetching ds) ∨ other = id ∧ phase = .fetching ds := by
  rw [task?_setPhase] at ht'
  obtain ⟨t, ht, rfl⟩ := Option.map_eq_some_iff.mp ht'
  by_cases hother : other = id
  · subst hother
    exact Or.inr ⟨rfl, by simpa using hphase⟩
  · exact Or.inl ⟨t, ht, by simpa [hother] using hphase⟩

theorem fetching_endTask {other : JobId} {t' : Task} {ds : Downloads}
    (ht' : (s.endTask id).task? other = some t') (hphase : t'.phase = .fetching ds) :
    ∃ t, s.task? other = some t ∧ t.phase = .fetching ds := by
  rw [task?_endTask] at ht'
  split at ht'
  · cases ht'
  · exact ⟨t', ht', hphase⟩

section Moves
variable (plain : ".." ∉ s.store.root) (placed : Placed s) (h : WatchedFor jobs p s)
  (acting : jobs id) (reach : s.store.OutOfReach id p)

include plain placed h acting reach in
theorem writing {u : FileTree} (written : Writing id s u) : Touched p id s u := by
  have hassets : Job.assetsName ≠ Job.outputName := by decide
  have hassets' : Job.assetsName ≠ ".." := by decide
  have hplain (hid : s.store.Issued id) {entry : String} (hentry : entry ≠ "..") :
      ".." ∉ s.store.directory id ++ [entry] :=
    Path.plain_concat (Store.plain_directory plain hid.ne_dots) hentry
  cases written with
  | assets j u found made =>
    rw [Job.assets, placed.directories id j found] at made
    exact .spared (Spares.settleMade (hplain (placed.issued_of_find? found) hassets')
      Path.concat_ne_nil (reach.2 _ hassets) made).1
  | plan t j c u task found made =>
    rw [placed.directories id j found] at made
    exact .spared (.write (hplain (placed.issued_of_find? found) (by decide)) Path.concat_ne_nil
      (reach.2 _ (by decide)) h.sane made)
  | output size u running made =>
    by_cases hp : p = s.store.directory id ++ [Job.outputName]
    · exact .output size hp running (hp ▸ made)
    · exact .spared (.write (hplain (placed.issued_of_process? running) (by decide))
        Path.concat_ne_nil hp h.sane made)
  | stray entry c u issued made =>
    have hissued := Store.issued_of_hasIssued issued
    have hpath : s.store.directory id ++ [Job.assetsName, entry] =
        (s.store.directory id ++ [Job.assetsName]) ++ [entry] := by simp
    rw [hpath] at made
    by_cases hentry : entry = ".."
    · subst hentry
      exact absurd made (write_up_ne_ok (hplain hissued hassets') Store.directory_ne_nil)
    · refine .spared (.write (Path.plain_concat (hplain hissued hassets') hentry)
        Path.concat_ne_nil (fun hp => ?_) h.sane made)
      exact reach.1 (hp ▸ List.prefix_append _ _)
  | abandoned t ds task phase =>
    exact .spared (Downloads.spares_abandon (hplain (placed.issued_of_task? task) hassets')
      reach.1 h.sane (h.within id acting t ds task phase) _)

include plain placed h acting reach in
/-- **A move of a task keeps a place watched.** -/
theorem quiet (move : Quiet id s s') : WatchedFor jobs p s' ∧ Touched p id s s'.store.files := by
  have hsame (root : s'.store.root = s.store.root) (files : s'.store.files = s.store.files)
      (tasks : ∀ id t' ds, s'.task? id = some t' → t'.phase = .fetching ds →
        ∃ t, s.task? id = some t ∧ t.phase = .fetching ds) :
      WatchedFor jobs p s' ∧ Touched p id s s'.store.files := by
    have hspares : Spares p s.store.files s'.store.files := files ▸ .refl p _
    exact ⟨h.of_spares root hspares fun i t' ds ht' hphase => Or.inl (tasks i t' ds ht' hphase),
      .spared hspares⟩
  have hstand {phase : TaskPhase} (hphase : ∀ ds, phase ≠ .fetching ds) (i : JobId) (t' : Task)
      (ds : Downloads) (ht' : (s.setPhase id phase).task? i = some t')
      (hfetching : t'.phase = .fetching ds) :
      ∃ t, s.task? i = some t ∧ t.phase = .fetching ds :=
    (fetching_setPhase ht' hfetching).resolve_right fun h => hphase ds h.2
  cases move with
  | note stage => exact hsame rfl rfl fun i t' ds ht' hphase => ⟨t', ht', hphase⟩
  | write u written =>
    have htouched := writing plain placed h acting reach written
    refine ⟨?_, htouched⟩
    cases htouched with
    | spared spares =>
      exact h.of_spares rfl spares fun i t' ds ht' hphase => Or.inl ⟨t', ht', hphase⟩
    | output size place running made =>
      subst place
      have hplain := Path.plain_concat (Store.plain_directory plain
        (placed.issued_of_process? running).ne_dots) (by decide : Job.outputName ≠ "..")
      obtain ⟨hsane, hgrows, -, k, hnode, -, hk⟩ :=
        write_eq_ok hplain Path.concat_ne_nil h.sane made
      refine ⟨hsane, fun i hi t ds ht hphase d hd => ?_⟩
      obtain ⟨htarget, hapart⟩ := h.within i hi t ds ht hphase d hd
      refine ⟨htarget, fun k' n hreceiving => ?_⟩
      obtain ⟨hlt, hne⟩ := hapart k' n hreceiving
      refine ⟨Nat.lt_of_lt_of_le hlt hgrows, fun hk' => ?_⟩
      -- the output is in its old file or in a new one, and neither of them is open
      cases hnode.symm.trans hk'
      rcases hk with hold | rfl
      · exact hne hold
      · exact absurd hlt (Nat.lt_irrefl _)
  | download t ds index e task phase =>
    have hplain := Path.plain_concat (Store.plain_directory plain
      (placed.issued_of_task? task).ne_dots) (by decide : Job.assetsName ≠ "..")
    obtain ⟨hspares, hwithin⟩ := Downloads.spares_step hplain reach.1 h.sane
      (h.within id acting t ds task phase) s.setup.fetcher index e
    refine ⟨h.of_spares rfl hspares fun i t' ds' ht' hphase => ?_, .spared hspares⟩
    rcases fetching_setPhase ht' hphase with hold | ⟨rfl, hnew⟩
    · exact Or.inl hold
    · cases hnew
      exact Or.inr hwithin
  | fetch t j items task phase found targets =>
    have hspares : Spares p s.store.files s.store.files := .refl p _
    refine ⟨h.of_spares rfl hspares fun i t' ds' ht' hphase => ?_, .spared hspares⟩
    rcases fetching_setPhase ht' hphase with hold | ⟨rfl, hnew⟩
    · exact Or.inl hold
    · cases hnew
      rw [Job.assets, placed.directories _ j found] at targets
      exact Or.inr (Downloads.within_begin targets)
  | probe t done left task phase => exact hsame rfl rfl (hstand (by simp))
  | spawn t plan watch task phase => exact hsame rfl rfl (hstand (by simp))
  | watch t plan before after task phase => exact hsame rfl rfl (hstand (by simp))
  | exit code running => exact hsame rfl rfl fun i t' ds ht' hphase => ⟨t', ht', hphase⟩
  | kill running => exact hsame rfl rfl fun i t' ds ht' hphase => ⟨t', ht', hphase⟩
  | wait t task phase awake => exact hsame rfl rfl (hstand (by simp))
  | vanish t task phase told => exact hsame rfl rfl fun i t' ds => fetching_endTask
  | resign t task phase told =>
    exact hsame Store.transition_frame.1 Store.transition_frame.2.2 fun i t' ds => fetching_endTask
  | leave t failure task holds gone killed =>
    rw [leave_eq] at hsame ⊢
    exact hsame root_leftStore files_leftStore fun i t' ds => fetching_endTask

include h in
theorem advance (move : Advance id s s') : WatchedFor jobs p s' ∧
    Spares p s.store.files s'.store.files := by
  have hsame (root : s'.store.root = s.store.root) (files : s'.store.files = s.store.files)
      (tasks : ∀ id t' ds, s'.task? id = some t' → t'.phase = .fetching ds →
        (∃ t, s.task? id = some t ∧ t.phase = .fetching ds) ∨ ds = []) :
      WatchedFor jobs p s' ∧ Spares p s.store.files s'.store.files := by
    have hspares : Spares p s.store.files s'.store.files := files ▸ .refl p _
    refine ⟨h.of_spares root hspares fun i t' ds ht' hphase => ?_, hspares⟩
    rcases tasks i t' ds ht' hphase with hold | rfl
    · exact Or.inl hold
    · exact Or.inr fun _ hmem => absurd hmem List.not_mem_nil
  cases move with
  | begin t slots task awake slot =>
    refine hsame Store.transition_frame.1 Store.transition_frame.2.2 fun i t' ds ht' hphase => ?_
    rcases fetching_setPhase ht' hphase with hold | ⟨-, hnew⟩
    · exact Or.inl hold
    · exact Or.inr (TaskPhase.fetching.inj hnew).symm
  | render t plan task phase =>
    refine hsame Store.transition_frame.1 Store.transition_frame.2.2 fun i t' ds ht' hphase => ?_
    rcases fetching_setPhase ht' hphase with hold | ⟨-, hnew⟩
    · exact Or.inl hold
    · cases hnew
  | complete t plan watch failure task phase exited size =>
    rw [leave_eq] at hsame ⊢
    exact hsame (root_leftStore.trans Store.transition_frame.1)
      (files_leftStore.trans Store.transition_frame.2.2)
      fun i t' ds ht' hphase => Or.inl (fetching_endTask ht' hphase)

include plain placed h acting reach in
/-- **The moves with which a task answers an event keep a place watched**, and they spare it if it is
not the output of the job. -/
theorem moves {b : Bool} (moves : Moves id s b s') : WatchedFor jobs p s' ∧
    (p ≠ s.store.directory id ++ [Job.outputName] → Spares p s.store.files s'.store.files) := by
  have hchain : (SameFrame s s' ∧ Placed s') ∧ WatchedFor jobs p s' ∧
      (p ≠ s.store.directory id ++ [Job.outputName] → Spares p s.store.files s'.store.files) := by
    refine moves.preserves (P := fun t => (SameFrame s t ∧ Placed t) ∧ WatchedFor jobs p t ∧
      (p ≠ s.store.directory id ++ [Job.outputName] → Spares p s.store.files t.store.files)) ?_ ?_
      ⟨⟨⟨rfl, rfl, rfl, rfl, rfl, rfl⟩, placed⟩, h, fun _ => .refl p _⟩
    · rintro t u ⟨⟨hframe, hplaced⟩, hwatched, hspares⟩ move
      have hdirectory (a : JobId) : t.store.directory a = s.store.directory a := by
        rw [Store.directory, hframe.root, Store.directory]
      have hreach : t.store.OutOfReach id p := by rwa [Store.OutOfReach, hdirectory]
      obtain ⟨hwatched', htouched⟩ :=
        hwatched.quiet (hframe.root ▸ plain) hplaced acting hreach move
      refine ⟨⟨hframe.trans move.sameFrame, hplaced.quiet move⟩, hwatched', fun other => ?_⟩
      refine (hspares other).trans ?_
      cases htouched with
      | spared spares => exact spares
      | output size place running made => exact absurd (hdirectory id ▸ place) other
    · rintro t u ⟨⟨hframe, hplaced⟩, hwatched, hspares⟩ move
      obtain ⟨hwatched', hspares'⟩ := hwatched.advance move
      exact ⟨⟨hframe.trans move.sameFrame, hplaced.advance move⟩, hwatched',
        fun other => (hspares other).trans hspares'⟩
  exact hchain.2

end Moves

/-! ### Submissions -/

theorem spares_writtenIn {directory : Path} {t u : FileTree} (plain : ".." ∉ directory)
    (other : ∀ entry ≠ Job.outputName, p ≠ directory ++ [entry]) (hs : t.Sane p)
    (written : WrittenIn directory t u) : Spares p t u := by
  induction written with
  | nothing => exact .refl p t
  | more entry c u v before hentry hplain made ih =>
    exact ih.trans (.write (Path.plain_concat plain hplain) Path.concat_ne_nil
      (other entry hentry) (ih.sane hs) made)

section Submissions
variable (plain : ".." ∉ s.store.root) (h : WatchedFor jobs p s)
include plain h

section Made
variable (above : ¬ p <+: s.store.directory (jobId (s.store.issued + 1)))
  (reach : s.store.OutOfReach (jobId (s.store.issued + 1)) p)
include above reach

/-- A job is registered with a directory of its own. -/
theorem spares_made {made files : FileTree}
    (directory : s.store.files.makeDirectory
      (s.store.directory (jobId (s.store.issued + 1))) = .ok made)
    (written : WrittenIn (s.store.directory (jobId (s.store.issued + 1))) made files) :
    Spares p s.store.files files := by
  have hplain := Store.plain_directory plain (jobId_ne_dots (s.store.issued + 1))
  have hmade := (Spares.makeDirectory hplain above directory).1
  exact hmade.trans (spares_writtenIn hplain reach.2 (hmade.sane h.sane) written)

theorem register {made files : FileTree} {tasks : List Task}
    (directory : s.store.files.makeDirectory
      (s.store.directory (jobId (s.store.issued + 1))) = .ok made)
    (written : WrittenIn (s.store.directory (jobId (s.store.issued + 1))) made files)
    (new : ∀ t ∈ tasks, t.phase = .created) :
    WatchedFor jobs p
      { s with store := s.store.register s.now files, tasks := s.tasks ++ tasks } := by
  have hspares := spares_made plain h above reach directory written
  refine of_spares h rfl hspares ?_
  intro id t' ds ht' phase
  rw [task?, List.find?_append, Option.or_eq_some_iff] at ht'
  rcases ht' with ht' | ⟨-, ht'⟩
  · exact Or.inl ⟨t', ht', phase⟩
  · cases (new t' (List.mem_of_find?_eq_some ht')).symm.trans phase

end Made

section Below
variable (below : s.store.Below name p)
  (hname : name ≠ jobId (s.store.issued + 1))
  (htrash : name ≠ trashName (jobId (s.store.issued + 1)))
include below hname htrash

/-- What a submission that comes to nothing leaves is the directory of its own job. -/
theorem spares_givenUp {files : FileTree}
    (left : GivenUp (s.store.directory (jobId (s.store.issued + 1))) s.store.files files) :
    Spares p s.store.files files := by
  have habove := below.not_above hname
  have hreach := below.outOfReach hname
  cases left with
  | unmade => exact .refl p _
  | left u v made written => exact spares_made plain h habove hreach made written
  | removed u v w made written aside =>
    have hplain := Store.plain_directory plain (jobId_ne_dots (s.store.issued + 1))
    have hplain' := Store.plain_directory plain
      (trashName_ne_dots (jobId (s.store.issued + 1)))
    rw [Store.trashOf_directory] at aside ⊢
    have hmade := spares_made plain h habove hreach made written
    have haside := Spares.rename hplain Store.directory_ne_nil hplain' Store.directory_ne_nil
      (below.not_below hname) (below.not_below htrash) aside
    exact hmade.trans (haside.trans
      (.remove hplain' Store.directory_ne_nil (below.not_below htrash)))

theorem submitted {submission : Submission} {answer : Except SubmitFault JobId}
    (outcome : Submitted s submission answer s') :
    WatchedFor jobs p s' ∧ Spares p s.store.files s'.store.files := by
  have habove := below.not_above hname
  have hreach := below.outOfReach hname
  cases outcome with
  | refused => exact ⟨h, .refl p _⟩
  | lost f files whole open' left =>
    have hspares := spares_givenUp plain h below hname htrash left
    exact ⟨h.of_spares rfl hspares fun id t ds ht phase => Or.inl ⟨t, ht, phase⟩, hspares⟩
  | torn run made files open' half date directory written =>
    have hspares := spares_made plain h habove hreach directory written
    exact ⟨h.of_spares rfl hspares fun id t ds ht phase => Or.inl ⟨t, ht, phase⟩, hspares⟩
  | accepted t made files open' checked date directory written =>
    exact ⟨register plain h habove hreach directory written (by simp),
      spares_made plain h habove hreach directory written⟩

end Below

end Submissions

/-! ### Calls -/

/-- Detaching jobs spares the places of all that stay. -/
theorem spares_detachAll (plain : ".." ∉ s.store.root) (placed : Placed s)
    (below : s.store.Below name p) (ids : List JobId)
    (others : ∀ id, (s.store.find? id).isSome = true →
      (s.store.detachAll ids).2.find? id = none → name ≠ id ∧ name ≠ trashName id) :
    Spares p s.store.files (s.store.detachAll ids).2.files := by
  have hchain : (∀ id j, (s.store.detachAll ids).2.find? id = some j →
      s.store.find? id = some j) ∧
        (Spares p s.store.files (s.store.detachAll ids).2.files ∨
          ∃ id, (s.store.find? id).isSome = true ∧ (s.store.detachAll ids).2.find? id = none ∧
            (name = id ∨ name = trashName id)) := by
    refine Store.detachAll_preserves (P := fun t =>
      (∀ id j, t.find? id = some j → s.store.find? id = some j) ∧
        (Spares p s.store.files t.files ∨ ∃ id, (s.store.find? id).isSome = true ∧
          t.find? id = none ∧ (name = id ∨ name = trashName id))) ids ?_
      ⟨fun _ _ h => h, Or.inl (.refl p _)⟩
    rintro t id hid ⟨hfound, hspares⟩
    have hgone : (t.detach id).2.find? id = none := by rw [Store.find?_detach, if_pos rfl]
    refine ⟨fun i j hj => ?_, ?_⟩
    · rw [Store.find?_detach] at hj
      split at hj
      · cases hj
      · exact hfound i j hj
    · rcases hspares with hspares | ⟨i, hthere, hnone, hname⟩
      · rcases Store.detach_cases t id with
          ⟨-, heq⟩ | ⟨j, hj, ⟨-, heq⟩ | ⟨-, ⟨f, -, heq⟩ | ⟨files, hmove, heq⟩⟩⟩
        · exact Or.inl (heq ▸ hspares)
        · exact Or.inl (heq ▸ hspares)
        · exact Or.inl (heq ▸ hspares)
        · have hthere := hfound id j hj
          by_cases hname : name = id ∨ name = trashName id
          · exact Or.inr ⟨id, Option.isSome_iff_exists.mpr ⟨j, hthere⟩, hgone, hname⟩
          · obtain ⟨hname, htrash⟩ := not_or.mp hname
            rw [placed.directories id j hthere, Store.trashOf_directory] at hmove
            rw [heq]
            exact Or.inl (hspares.trans (.rename
              (Store.plain_directory plain (placed.issued_of_find? hthere).ne_dots)
              Store.directory_ne_nil (Store.plain_directory plain (trashName_ne_dots id))
              Store.directory_ne_nil (below.not_below hname) (below.not_below htrash)
              hmove))
      · refine Or.inr ⟨i, hthere, ?_, hname⟩
        rw [Store.find?_detach]
        split
        · rfl
        · exact hnone
  refine hchain.2.resolve_right ?_
  rintro ⟨id, hthere, hnone, hname | hname⟩
  · exact (others id hthere hnone).1 hname
  · exact (others id hthere hnone).2 hname

theorem cancel (h : WatchedFor jobs p s) (id : JobId) : WatchedFor jobs p (s.cancel id) :=
  of_spares h rfl (.refl p _) fun i t' ds ht' phase => by
    rw [task?_cancel] at ht'
    obtain ⟨t, ht, rfl⟩ := Option.map_eq_some_iff.mp ht'
    refine Or.inl ⟨t, ht, ?_⟩
    split at phase <;> exact phase

theorem cancelAll (h : WatchedFor jobs p s) (ids : List JobId) : WatchedFor jobs p (ids.foldl Service.cancel s) := by
  induction ids generalizing s with
  | nil => exact h
  | cons id rest ih => exact ih (h.cancel id)

/-- **A call spares the places of all jobs that it does not remove.** -/
theorem callMove (plain : ".." ∉ s.store.root) (placed : Placed s) (h : WatchedFor jobs p s)
    (below : s.store.Below name p) {goal : Goal} {phase phase' : CallPhase}
    (move : CallMove s goal phase s' phase')
    (trashed : ∀ q, phase.trash.head? = some q →
      ∃ id, name ≠ trashName id ∧ q = s.store.directory (trashName id))
    (others : ∀ id, (s.store.find? id).isSome = true → s'.store.find? id = none →
      name ≠ id ∧ name ≠ trashName id) :
    WatchedFor jobs p s' ∧ Spares p s.store.files s'.store.files := by
  have hdetached {answer : Except StoreFault (List Path)} {store : Store}
      (detached : s.store.detachAll (goal.targets s) = (answer, store))
      (others : ∀ id, (s.store.find? id).isSome = true → store.find? id = none →
        name ≠ id ∧ name ≠ trashName id) :
      WatchedFor jobs p (s.setStore store) ∧ Spares p s.store.files store.files := by
    have hspares := spares_detachAll plain placed below (goal.targets s)
    have hroot := Store.root_detachAll (s := s.store) (goal.targets s)
    rw [detached] at hspares hroot
    have hspares := hspares others
    exact ⟨h.of_spares hroot hspares fun id t ds ht phase => Or.inl ⟨t, ht, phase⟩, hspares⟩
  cases move with
  | idle | cleared | drained | astray => exact ⟨h, .refl p _⟩
  | tell finished id rest t ended task => exact ⟨h.cancel id, .refl p _⟩
  | remove finished trash store removing ended detached => exact hdetached detached others
  | refuse finished f store removing ended detached => exact hdetached detached others
  | clear q rest removed =>
    obtain ⟨id, hname, rfl⟩ := trashed q rfl
    have hspares : Spares p s.store.files
        (s.store.clear [s.store.directory (trashName id)]).files :=
      .remove (Store.plain_directory plain (trashName_ne_dots id)) Store.directory_ne_nil
        (below.not_below hname)
    exact ⟨h.of_spares rfl hspares fun id t ds ht phase => Or.inl ⟨t, ht, phase⟩, hspares⟩
  | lose jobs live left settled =>
    exact ⟨h.cancelAll live, store_cancelAll live s ▸ .refl p _⟩

/-- Calls, the clock and others leave a place watched. -/
theorem congr (h : WatchedFor jobs p s) (store : s'.store = s.store) (tasks : s'.tasks = s.tasks) :
    WatchedFor jobs p s' := by
  refine h.of_spares (congrArg Store.root store) (congrArg Store.files store ▸ .refl p _) ?_
  intro id t ds ht phase
  rw [task?, tasks] at ht
  exact Or.inl ⟨t, ht, phase⟩

/-! ### Events -/

/-- **An event spares the places of all jobs that it does not remove**, but for the output of the
job that it is about. -/
theorem step (plain : ".." ∉ s.store.root) (placed : Placed s) (h : WatchedFor jobs p s)
    (below : s.store.Below name p) (e : Event)
    (acting : ∀ id, e.job? = some id → jobs id ∧ s.store.OutOfReach id p)
    (output : ∀ id, e.job? = some id → p ≠ s.store.directory id ++ [Job.outputName])
    (avoids : Avoids p s e)
    (new : ∀ submission answer, e = .submitted submission answer →
      name ≠ jobId (s.store.issued + 1) ∧ name ≠ trashName (jobId (s.store.issued + 1)))
    (trashed : ∀ i c q, e = .advanced i ∨ e = .outOfPatience i → s.calls[i]? = some c →
      c.phase.trash.head? = some q → ∃ id, name ≠ trashName id ∧ q = s.store.directory (trashName id))
    (others : ∀ id, (s.store.find? id).isSome = true → (s.step e).store.find? id = none →
      name ≠ id ∧ name ≠ trashName id) :
    WatchedFor jobs p (s.step e) ∧ Spares p s.store.files (s.step e).store.files := by
  generalize hs' : s.step e = s' at others
  have hcases := step_cases placed.tabled.numbered e
  rw [hs'] at hcases
  cases hcases with
  | job id e b s' about moves =>
    obtain ⟨hwatched, hspares⟩ := WatchedFor.moves plain placed h (acting id about).1 (acting id about).2 moves
    exact ⟨hwatched, hspares (output id about)⟩
  | submit submission answer s' outcome =>
    obtain ⟨hname, htrash⟩ := new submission answer rfl
    exact submitted plain h below hname htrash outcome
  | ask goal s' phase removing move started =>
    obtain ⟨hwatched, hspares⟩ := callMove plain placed h below move nofun others
    exact ⟨hwatched.congr rfl rfl, hspares⟩
  | drain | tick => exact ⟨h.congr rfl rfl, .refl p _⟩
  | call e index c s' phase about call move =>
    obtain ⟨hwatched, hspares⟩ := callMove plain placed h below move
      (fun q => trashed index c q about call) others
    exact ⟨hwatched.congr rfl rfl, hspares⟩
  | noCall => exact ⟨h, .refl p _⟩
  | disk files =>
    exact ⟨h.of_spares rfl avoids fun id t ds ht phase => Or.inl ⟨t, ht, phase⟩, avoids⟩

/-- **An event about others spares all that is below the directory of a job**, unless it makes the job
or removes it. -/
theorem step_of_other {n : Nat} (plain : ".." ∉ s.store.root) (placed : Placed s)
    (h : WatchedFor jobs p s) (below : s.store.Below (jobId n) p)
    (acting : ∀ id, id ≠ jobId n → jobs id) {e : Event} (other : e.job? ≠ some (jobId n))
    (avoids : Avoids p s e)
    (new : ∀ submission disk, e = .submitted submission disk → n ≠ s.store.issued + 1)
    (stays : (s.store.find? (jobId n)).isSome = true → (s.step e).store.find? (jobId n) ≠ none) :
    WatchedFor jobs p (s.step e) ∧ Spares p s.store.files (s.step e).store.files := by
  have hother {id : JobId} (about : e.job? = some id) : id ≠ jobId n := fun h => other (h ▸ about)
  refine h.step plain placed below e
    (fun id about => ⟨acting id (hother about), below.outOfReach (hother about).symm⟩)
    (fun id about hplace => below.not_below (hother about).symm (hplace ▸ List.prefix_append _ _))
    avoids (fun submission disk he => ⟨fun hname => new submission disk he (jobId_injective hname),
      jobId_ne_trashName n _⟩) (fun i c q _ hc hq => ?_)
    fun id there gone => ⟨fun hname => stays (hname ▸ there) (hname ▸ gone), jobId_ne_trashName n id⟩
  obtain ⟨id, -, -, hplace⟩ := placed.trashed c (List.mem_of_getElem? hc) q (List.mem_of_head? hq)
  exact ⟨id, jobId_ne_trashName n id, hplace⟩

end WatchedFor
end Montage
