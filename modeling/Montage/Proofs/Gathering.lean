import Montage.Proofs.CompileOutcome
import Montage.Proofs.Courses
import Montage.Proofs.Outputs
import Montage.Proofs.RemovedPlaces
import Montage.Proofs.SourceNames

/-! # What a job gathers

What the journals of a job hold is told by the phase of its task, at each time of a run (`Gathers`):
first nothing; then the files whose downloads are settled; then all files, and what was found out
about the first of them.  An event adds to the journals what it adds to the task (`Course.gathers`).

So when a job has its assets, each file of its timeline was fetched once and probed once, and each
asset stands under the key of its source (`assets_gathered`).
-/
namespace Montage

open Service

/-! ### The compiler -/

/-- No file is missed if all were fetched. -/
theorem compile_ne_missingAsset {k : Compiler} {t : Timeline} {assets : Assets}
    (hfetched : ∀ s ∈ t.sources, Fetched assets s) (place : String) (s : MediaSource) :
    k.compile t assets ≠ .error (.missingAsset place s) := by
  have hmentions := fetched_sources_iff.mp hfetched
  intro herror
  cases hcheck : t.check k.rounding with
  | error f => cases (compile_of_check_error hcheck).symm.trans herror
  | ok u =>
    by_cases hstarts : t.StartsInside assets
    · by_cases hsounds : t.Sounds assets
      · obtain ⟨p, hp⟩ := exists_plan hcheck hmentions hstarts hsounds
        cases hp.symm.trans herror
      · obtain ⟨m, c, a, -, -, -, hsilent⟩ := compile_of_not_sounds hcheck hmentions hstarts hsounds
        cases hsilent.symm.trans herror
    · obtain ⟨i, c, a, d, -, -, -, -, hpast⟩ := compile_of_not_startsInside hcheck hmentions hstarts
      cases hpast.symm.trans herror

/-- In a table without repetitions every entry is found. -/
theorem lookup_of_mem {table : List (String × Asset)} (h : (table.map Prod.fst).Nodup)
    {entry : String × Asset} (hmem : entry ∈ table) : table.lookup entry.1 = some entry.2 := by
  obtain ⟨before, after, rfl⟩ := List.append_of_mem hmem
  refine List.lookup_eq_some_iff.mpr ⟨before, after, rfl, fun other hother => ?_⟩
  rw [List.map_append, List.map_cons] at h
  have hapart := (List.nodup_append'.mp h).2.2 (List.mem_map_of_mem hother)
  have hne : entry.1 ≠ other.1 := fun heq => hapart (List.mem_cons.mpr (Or.inl heq.symm))
  simpa using hne

/-! ### Journals and phases -/

/-- What the journals of a job hold when its task stands at a phase.  `place` is the directory of
the job, and only a job that was told to stop may have given a download up. -/
def Gathers (place : Path) (t : Timeline) (told : Bool) (stored : List (MediaSource × Path))
    (found : List Finding) : TaskPhase → Prop
  | .created | .waiting => stored = [] ∧ found = []
  | .fetching ds =>
    fetchItems t (place ++ [Job.assetsName]) 0 t.sources = .ok (ds.map Download.item) ∧
      stored.Perm ds.storedItems ∧ found = [] ∧ (told = false → ∀ d ∈ ds, d.phase ≠ .abandoned)
  | .probing done left =>
    fetchItems t (place ++ [Job.assetsName]) 0 t.sources = .ok (found.map Prod.fst ++ left) ∧
      stored.Perm (found.map Prod.fst ++ left) ∧ done = found.map (Finding.entry place)
  | .starting _ | .encoding _ _ => True

namespace Service
variable {s : Service} {t t' : Task} {e : Event} {id : JobId}

theorem gathers_of_rendering {place : Path} {timeline : Timeline} {told : Bool}
    {stored : List (MediaSource × Path)} {found : List Finding} {p : TaskPhase}
    (later : p.jobState = .rendering) : Gathers place timeline told stored found p := by
  cases p with
  | starting | encoding => trivial
  | created | waiting | fetching | probing => cases later

/-- Being told to stop allows more. -/
theorem gathers_of_told {place : Path} {timeline : Timeline} {told told' : Bool}
    {stored : List (MediaSource × Path)} {found : List Finding} {p : TaskPhase}
    (h : Gathers place timeline told stored found p) (more : told = true → told' = true) :
    Gathers place timeline told' stored found p := by
  cases p with
  | fetching ds =>
    obtain ⟨htargets, hstored, hfound, hkept⟩ := h
    refine ⟨htargets, hstored, hfound, fun hawake => hkept ?_⟩
    exact Bool.eq_false_iff.mpr fun htold => Bool.false_ne_true (hawake.symm.trans (more htold))
  | created | waiting | probing | starting | encoding => exact h

/-- **An event adds to the journals what it adds to the task.** -/
theorem Course.gathers {p : TaskPhase} (course : Course s t e p) (task : s.task? t.job = some t)
    {stored : List (MediaSource × Path)} {found : List Finding}
    (h : Gathers (s.store.directory t.job) t.timeline t.cancelled stored found t.phase) :
    Gathers (s.store.directory t.job) t.timeline t.cancelled (stored ++ s.storedBy t.job e)
      (found ++ s.probedBy t.job e) p := by
  cases course with
  | stays hstored hprobed => rwa [hstored, hprobed, List.append_nil, List.append_nil]
  | waits about phase =>
    subst about
    rw [phase] at h
    exact ⟨by rw [h.1]; rfl, by rw [h.2]; rfl⟩
  | fetches items about early targets =>
    subst about
    have hnone : stored = [] ∧ found = [] := by
      rcases early with phase | phase <;> exact (phase ▸ h :)
    obtain ⟨rfl, rfl⟩ := hnone
    refine ⟨by rw [Downloads.items_begin]; exact targets, ?_, rfl, fun _ d hd => ?_⟩
    · rw [Downloads.storedItems_begin]
      exact List.Perm.refl _
    · obtain ⟨i, -, rfl⟩ := List.mem_map.mp hd
      exact nofun
  | downloads ds index d about phase told =>
    subst about
    rw [phase] at h
    obtain ⟨htargets, hstored, hfound, hkept⟩ := h
    have hds : s.downloads t.job = ds := by
      rw [Service.downloads, task, Option.map_some, phase]
    have hnew : s.storedBy t.job (.download t.job index d) =
        ds.newlyStored s.setup.fetcher s.store.files index d := by rw [storedBy, if_pos rfl, hds]
    refine ⟨?_, ?_, by rw [hfound]; rfl, fun hawake => ?_⟩
    · rw [Downloads.items_step]
      exact htargets
    · rw [hnew]
      exact (hstored.append_right _).trans Downloads.storedItems_step.symm
    · refine Downloads.step_ne_abandoned (hkept hawake) fun habandoned => ?_
      exact Bool.false_ne_true (hawake.symm.trans (told habandoned))
  | fetched ds paths about awake phase result =>
    subst about
    rw [phase] at h
    obtain ⟨htargets, hstored, rfl, hkept⟩ := h
    rw [Downloads.storedItems_of_result result (hkept awake)] at hstored
    exact ⟨htargets, by simpa [storedBy, probedBy] using hstored, rfl⟩
  | probes outcome done item left info about awake phase read =>
    subst about
    rw [phase] at h
    obtain ⟨htargets, hstored, rfl⟩ := h
    have hnew : s.probedBy t.job (.probed t.job outcome) = [(item, info)] := by
      rw [probedBy, if_pos rfl, listening?_eq_some.mpr ⟨task, awake⟩, Option.map_some, phase]
      simp [read, Except.toOption]
    rw [hnew]
    have hitems : (found ++ [(item, info)]).map Prod.fst ++ left =
        found.map Prod.fst ++ item :: left := by simp
    refine ⟨hitems ▸ htargets, ?_, by simp⟩
    rw [hitems]
    simpa [storedBy] using hstored
  | renders => trivial
  | goesOn p before after => exact gathers_of_rendering after

/-! ### Runs -/

/-- An event that is not about a job tells its task to stop at most, or makes it. -/
theorem task?_eq_told_of_other (tabled : s.Tabled) (other : e.job? ≠ some id)
    (task' : (s.step e).task? id = some t') :
    (∃ t, s.task? id = some t ∧ t' = { t with cancelled := t'.cancelled } ∧
        (t.cancelled = true → t'.cancelled = true)) ∨
      ¬ s.store.Issued id ∧ t'.phase = .created := by
  generalize hs' : s.step e = s' at task'
  have hcases := step_cases tabled.numbered e
  rw [hs'] at hcases
  cases hcases with
  | job job e b s' about moves =>
    have hother : id ≠ job := fun h => other (h ▸ about)
    exact Or.inl ⟨t', (moves.follows.others id hother).2.1.symm.trans task', rfl, fun h => h⟩
  | submit submission disk s' outcome =>
    rcases outcome.task task' with hold | ⟨rfl, hnew⟩
    · exact Or.inl ⟨t', hold, rfl, fun h => h⟩
    · exact Or.inr ⟨Store.not_issued_jobId (Nat.lt_succ_self _), hnew⟩
  | ask goal s' phase removing move started told => exact Or.inl (move.task?_eq_told task')
  | call e index c s' phase about call move => exact Or.inl (move.task?_eq_told task')
  | drain | noCall | tick | disk => exact Or.inl ⟨t', task', rfl, fun h => h⟩

/-- Without a task nothing is noted. -/
theorem storedBy_of_no_task (gone : s.task? id = none) : s.storedBy id e = [] := by
  cases e with
  | download job index d =>
    rw [storedBy, downloads, gone]
    split <;> rfl
  | _ => rfl

theorem probedBy_of_no_task (gone : s.task? id = none) : s.probedBy id e = [] := by
  cases e with
  | probed job outcome =>
    rw [probedBy, listening?, gone]
    split <;> rfl
  | _ => rfl

/-- The journals of a job are in order: nothing is noted before there is such a job, and then they
hold what the phase of its task tells. -/
structure Recorded (s : Service) (id : JobId) (stored : List (MediaSource × Path))
    (found : List Finding) : Prop where
  unborn : ¬ s.store.Issued id → stored = [] ∧ found = []
  task : ∀ t, s.task? id = some t →
    Gathers (s.store.directory id) t.timeline t.cancelled stored found t.phase

theorem Recorded.step {stored : List (MediaSource × Path)} {found : List Finding}
    (h : Recorded s id stored found) (placed : Placed s) (e : Event) :
    Recorded (s.step e) id (stored ++ s.storedBy id e) (found ++ s.probedBy id e) where
  unborn := fun hnew => by
    have hold : ¬ s.store.Issued id := fun hissued =>
      hnew (hissued.mono (issued_step placed.tabled.numbered e))
    have gone : s.task? id = none := Option.eq_none_iff_forall_ne_some.mpr fun t task =>
      hold (placed.issued_of_task? task)
    obtain ⟨rfl, rfl⟩ := h.unborn hold
    rw [storedBy_of_no_task gone, probedBy_of_no_task gone]
    exact ⟨rfl, rfl⟩
  task := fun t' task' => by
    have hdirectory : (s.step e).store.directory id = s.store.directory id := by
      rw [Store.directory, root_step placed.tabled.numbered, Store.directory]
    rw [hdirectory]
    by_cases about : e.job? = some id
    · obtain ⟨b, moves⟩ := step_moves about s
      obtain ⟨t, task, -⟩ := moves.follows.task t' task'
      obtain rfl := job_of_task? task
      obtain ⟨p, rfl, course⟩ := continues_step task placed about t' task'
      exact course.gathers task (h.task t task)
    · rw [storedBy_of_other about, probedBy_of_other about, List.append_nil, List.append_nil]
      rcases task?_eq_told_of_other placed.tabled about task' with
        ⟨t, task, heq, htold⟩ | ⟨hnew, hphase⟩
      · rw [heq]
        exact gathers_of_told (h.task t task) htold
      · rw [hphase]
        exact h.unborn hnew

/-- **The journals are in order all along.** -/
theorem recorded_run (placed : Placed s) (h : Recorded s id [] []) (events : List Event) :
    Recorded (s.run events) id (s.journal (storedBy id) events)
      (s.journal (probedBy id) events) := by
  induction events using List.reverseRecOn with
  | nil => exact h
  | append_singleton before e ih =>
    rw [journal_concat, journal_concat, run_append]
    exact ih.step (placed.run before) e

/-- **A job begins to render only with its assets**, and with the plan that they compile to. -/
theorem gathered_of_renders (placed : Placed s) (task : s.task? id = some t)
    (before : t.phase.jobState ≠ .rendering) (task' : (s.step e).task? id = some t')
    (after : t'.phase.jobState = .rendering) : ∃ assets plan, Gathered s e t assets ∧
      (s.setup.compiler.compile t.timeline fun key => assets.lookup key) = .ok plan ∧
      t'.phase = .starting plan.toText := by
  obtain rfl := job_of_task? task
  by_cases about : e.job? = some t.job
  · obtain ⟨p, rfl, course⟩ := continues_step task placed about t' task'
    cases course with
    | renders assets plan gathered made => exact ⟨assets, plan, gathered, made, rfl⟩
    | stays | goesOn => contradiction
    | waits | fetches | downloads | fetched | probes => cases after
  · rcases task?_eq_told_of_other placed.tabled about task' with ⟨u, task'', heq, -⟩ | ⟨hnew, -⟩
    · cases task.symm.trans task''
      rw [heq] at after
      exact absurd after before
    · exact absurd (placed.issued_of_task? task) hnew

namespace Gathered
variable {assets : List (String × Asset)}

/-- All files are fetched and probed then. -/
theorem course (h : Gathered s e t assets) : Course s t e (.probing assets []) := by
  cases h with
  | nothing _ task phase =>
    exact .fetched [] [] rfl (listening?_eq_some.mp task).2 phase rfl
  | last _ outcome done item info task phase read =>
    exact .probes outcome done item [] info rfl (listening?_eq_some.mp task).2 phase read

theorem task (h : Gathered s e t assets) : s.task? t.job = some t := by
  cases h with
  | nothing _ task | last _ outcome done item info task => exact (listening?_eq_some.mp task).1

/-- The job goes on to compile with its assets. -/
theorem step_eq (h : Gathered s e t assets) :
    ∃ u : Service, u.setup = s.setup ∧ s.step e = u.compile t assets := by
  cases h with
  | nothing _ task phase =>
    obtain ⟨task, awake⟩ := listening?_eq_some.mp task
    refine ⟨s.note t.job "Probing assets", rfl, ?_⟩
    rw [step, task]
    dsimp only
    rw [moveTask, awake, phase]
    rfl
  | last _ outcome done item info task phase read =>
    refine ⟨s, rfl, ?_⟩
    rw [step, task]
    dsimp only
    rw [phase]
    dsimp only
    rw [takeProbed, read]
    rfl

end Gathered
end Service

/-! ### Assets -/

/-- What a job has that has gathered its assets: `place` is its directory, `stored` are the files
that were brought into place for it, and `found` is what was found out about them. -/
structure Assembled (place : Path) (t : Timeline) (stored : List (MediaSource × Path))
    (found : List Finding) (assets : List (String × Asset)) : Prop where
  keys : assets.map Prod.fst = t.sources.map MediaSource.key
  distinct : (assets.map Prod.fst).Nodup
  /-- Each source was fetched once, -/
  fetched : (stored.map Prod.fst).Perm t.sources
  /-- however often the timeline mentions it, -/
  once : ∀ m ∈ t.mentions, (stored.map fun i => i.1.key).count m.key = 1
  /-- and each file that was fetched was probed once. -/
  probed : (found.map Prod.fst).Perm stored
  /-- The asset of a source is its file, with what the probe of this file has found. -/
  entries : ∀ i ∈ stored, ∃ info, (i, info) ∈ found ∧
    assets.lookup i.1.key = some (assetOf place i.2 info)
  places : ∀ i ∈ stored, i.2 = place ++ [Job.assetsName, i.2.name]
  names : (fileNames stored).Nodup
  plain : ∀ name ∈ fileNames stored, '/' ∉ name.toList

/-- A job that has probed the last of its files has gathered its assets. -/
theorem assembled_of_gathers {place : Path} {t : Timeline} {told : Bool}
    {stored : List (MediaSource × Path)} {found : List Finding} {assets : List (String × Asset)}
    (h : Gathers place t told stored found (.probing assets [])) :
    Assembled place t stored found assets := by
  obtain ⟨htargets, hstored, rfl⟩ := h
  rw [List.append_nil] at htargets hstored
  obtain ⟨hsources, hnames⟩ := fetchItems_eq_ok htargets
  have hkeys : (found.map (Finding.entry place)).map Prod.fst = t.sources.map MediaSource.key := by
    rw [← hsources, List.map_map, List.map_map, List.map_map]
    rfl
  have hdistinct : ((found.map (Finding.entry place)).map Prod.fst).Nodup := hkeys ▸ t.keys_nodup
  have hfetched : (stored.map Prod.fst).Perm t.sources := hsources ▸ hstored.map Prod.fst
  have hfileNames : (fileNames stored).Perm (fileNames (found.map Prod.fst)) :=
    ((hstored.map _).map _).append ((hstored.map _).map _)
  refine ⟨hkeys, hdistinct, hfetched, fun m hm => ?_, hstored.symm, fun i hi => ?_, fun i hi => ?_,
    hfileNames.nodup_iff.mpr (nodup_fileNames htargets),
    fun name hname => slash_not_mem_fileNames htargets name (hfileNames.mem_iff.mp hname)⟩
  · obtain ⟨source, hsource, hkey⟩ := exists_mem_firstByKey hm List.not_mem_nil
    have hperm := hfetched.map MediaSource.key
    rw [List.map_map] at hperm
    refine (hperm.count_eq m.key).trans (List.count_eq_one_of_mem t.keys_nodup ?_)
    exact hkey ▸ List.mem_map_of_mem hsource
  · obtain ⟨⟨i, info⟩, hfound, rfl⟩ := List.mem_map.mp (hstored.mem_iff.mp hi)
    exact ⟨info, hfound, lookup_of_mem hdistinct (List.mem_map_of_mem hfound)⟩
  · obtain ⟨n, hn⟩ := List.getElem?_of_mem (hstored.mem_iff.mp hi)
    obtain ⟨x, -, hpath⟩ := hnames n i hn
    rw [hpath, Path.name_concat, List.append_assoc]
    rfl

namespace Sample

/-- A download of the first job comes to its end. -/
def fetchOf (index : Nat) : List Event :=
  [.download (jobId 1) index (.answered 200), .download (jobId 1) index (.data [1, 2, 3]),
    .download (jobId 1) index .ended, .download (jobId 1) index .settled]

/-- The files of a job arrive, the last one first; all but the last one are probed. -/
def gathering : List Event :=
  [.submitted (.timeline timeline) none, .moved (jobId 1)] ++ fetchOf 2 ++ fetchOf 0 ++ fetchOf 1 ++
    [.moved (jobId 1), .probed (jobId 1) report, .probed (jobId 1) report]

/-- The file that is probed last. -/
def lastFile : MediaSource × Path := (file "song.mp3", ["work", jobId 1, "assets", "2.mp3"])

/-- The paths of the assets of a task that has nothing to probe but the last file. -/
def donePaths (t : Task) : List String :=
  match t.phase with
  | .probing done [item] => if item = lastFile then done.map fun entry => entry.2.path else []
  | _ => []

end Sample

end Montage
