import Montage.Proofs.StoreDirectories

/-! # Removals that fail

A job is forgotten before its directory is set aside.  When the directory cannot be moved, because
something has the hidden name already, the call ends there: the job is not known any more, and its
directory stays where it is.  A sweep that ends so has set aside the directories of the jobs before, and
does not come to removing them (`failed_removals`).

Nothing finds these directories again.  The ids are not given out twice, so no call can name them, and
when the obstacle is gone the next sweep looks at the jobs that it did not come to before.
-/
namespace Montage

open FileTree Path

namespace Store
variable {s s' : Store} {r : Rounding} {place : Path} {id : JobId} {ids : List JobId}

/-- A list of jobs is detached up to the first that fails. -/
theorem detachAll_error {f : StoreFault} (h : s.detachAll ids = (.error f, s')) :
    ∃ done id rest trash s₁, ids = done ++ id :: rest ∧ s.detachAll done = (.ok trash, s₁) ∧
      s₁.detach id = (.error f, s') := by
  induction ids generalizing s with
  | nil => cases h
  | cons first rest ih =>
    rw [detachAll] at h
    rcases hfirst : s.detach first with ⟨answer, s₁⟩
    rw [hfirst] at h
    cases answer with
    | error g =>
      cases h
      exact ⟨[], first, rest, [], s, rfl, rfl, hfirst⟩
    | ok moved =>
      dsimp only at h
      rcases hrest : s₁.detachAll rest with ⟨answer, s₂⟩
      rw [hrest] at h
      cases answer with
      | ok more => cases h
      | error g =>
        cases h
        obtain ⟨done, id, left, trash, s₃, rfl, hdone, hid⟩ := ih hrest
        refine ⟨first :: done, id, left, moved.toList ++ trash, s₃, rfl, ?_, hid⟩
        simp only [detachAll, hfirst, hdone]

/-- A detaching that fails has forgotten the job, and done nothing else. -/
theorem detach_error {f : FileFault} (h : s.detach id = (.error (.files f), s')) :
    ∃ j, s.find? id = some j ∧ s.files.exists? j.directory = true ∧
      s' = { s with jobs := s.jobs.filter fun k => k.id != id } := by
  rcases detach_cases s id with
    ⟨-, heq⟩ | ⟨j, hj, ⟨-, heq⟩ | ⟨hthere, ⟨g, -, heq⟩ | ⟨files, -, heq⟩⟩⟩ <;>
    cases h.symm.trans heq
  exact ⟨j, hj, hthere, rfl⟩

theorem delete_error {f : FileFault} (h : s.delete id = (.error (.files f), s')) :
    s.detach id = (.error (.files f), s') := by
  rw [delete] at h
  rcases hdetach : s.detach id with ⟨answer, s''⟩
  rw [hdetach] at h
  cases answer with
  | ok moved => cases h
  | error g =>
    cases h
    rfl

/-! ### Records and their directories -/

/-- A record speaks of the directory that its job was given. -/
theorem directories_run {root : Path} {files : FileTree} (calls : List StoreCall) :
    ∀ j ∈ ((Store.begin root files).run r calls).jobs,
      j.directory = ((Store.begin root files).run r calls).directory j.id := by
  induction calls using List.reverseRecOn with
  | nil => exact fun j hj => absurd hj List.not_mem_nil
  | append_singleton calls c ih =>
    rw [run_concat]
    intro j' hj'
    rw [directory, root_perform]
    rcases mem_jobs_perform hj' with ⟨now, steady, -, -, rfl⟩ | ⟨j, hj, hstep⟩
    · rfl
    · rw [hstep.directory_eq, ih j hj, hstep.id_eq, directory]

/-! ### Sweeping again -/

theorem expired_filter {p : JobId → Bool} (jobs : s'.jobs = s.jobs.filter fun j => p j.id)
    (lifetime now : Number) :
    s'.expired r lifetime now = (s.expired r lifetime now).filter p := by
  rw [expired, expired, jobs, List.filter_map, List.filter_filter, List.filter_filter]
  congr 1
  refine List.filter_congr fun j _ => ?_
  rw [Bool.and_comm]
  rfl

/-- Removing directories of the root changes nothing elsewhere. -/
theorem node?_clear {names : List String} {q : Path}
    (rooted : s.files.HasPlace s.root place) (plain : ∀ name ∈ names, name ≠ "..")
    (elsewhere : ∀ name ∈ names, ¬ place ++ [name] <+: q) :
    (s.clear (names.map fun name => s.root ++ [name])).files.node? q = s.files.node? q := by
  show ((names.map fun name => s.root ++ [name]).foldl FileTree.remove s.files).node? q = _
  generalize s.files = t at rooted ⊢
  induction names generalizing t with
  | nil => rfl
  | cons first rest ih =>
    have hfirst := plain first List.mem_cons_self
    have hone (q : Path) (hq : ¬ place ++ [first] <+: q) :
        (t.remove (s.root ++ [first])).node? q = t.node? q := by
      rw [remove]
      split
      · rfl
      · rename_i p hp
        obtain ⟨-, rfl, -⟩ := rooted.stands hfirst hp
        split
        · rw [node?_filter_below, if_neg hq]
        · rfl
    have hrooted : (t.remove (s.root ++ [first])).HasPlace s.root place :=
      rooted.mono fun q hq hd => by
        rwa [hone q (not_prefix_of_inside (inside_concat place first) hq)]
    rw [List.map_cons, List.foldl_cons,
      ih (fun name hname => plain name (List.mem_cons_of_mem first hname))
        (fun name hname => elsewhere name (List.mem_cons_of_mem first hname)) _ hrooted]
    exact hone q (elsewhere first List.mem_cons_self)

/-- **A sweep does nothing to other directories**, whatever it finds of those that it removes. -/
theorem Sited.expire_elsewhere (h : s.Sited place) {lifetime now : Number}
    (swept : (s.expire r lifetime now).1 = .ok ids) :
    ids = s.expired r lifetime now ∧ ∀ q, (∀ i ∈ ids,
      ¬ place ++ [i] <+: q ∧ ¬ place ++ [trashName i] <+: q) →
        (s.expire r lifetime now).2.files.node? q = s.files.node? q := by
  obtain ⟨hnodup, hthere⟩ := h.numbered.expired_there r lifetime now
  rcases hdetach : s.detachAll (s.expired r lifetime now) with ⟨answer, s'⟩
  cases answer with
  | error f =>
    rw [expire_of_error hdetach] at swept
    cases swept
  | ok trash =>
    rw [expire_of_ok hdetach] at swept ⊢
    cases swept
    obtain ⟨hsited, rfl, haside, -⟩ := h.detachAll hnodup hthere hdetach
    have hsub : ∀ i ∈ s.housed (s.expired r lifetime now), i ∈ s.expired r lifetime now :=
      fun i hi => (List.mem_filter.mp hi).1
    have hroot : s'.root = s.root := by
      simpa only [hdetach] using root_detachAll (s := s) (s.expired r lifetime now)
    have hpaths : (s.housed (s.expired r lifetime now)).map (fun id => s.directory (trashName id)) =
        ((s.housed (s.expired r lifetime now)).map trashName).map fun name => s'.root ++ [name] := by
      rw [List.map_map, hroot]
      rfl
    refine ⟨rfl, fun q elsewhere => ?_⟩
    show (s'.clear _).files.node? q = _
    rw [hpaths, node?_clear hsited.rooted (fun name hname => ?_) fun name hname => ?_]
    · exact haside.kept q fun i hi => elsewhere i (hsub i hi)
    · obtain ⟨i, -, rfl⟩ := List.mem_map.mp hname
      exact trashName_ne_dots i
    · obtain ⟨i, hi, rfl⟩ := List.mem_map.mp hname
      exact (elsewhere i (hsub i hi)).2

/-- **What a sweep leaves behind that fails.** -/
theorem Sited.expire_error (h : s.Sited place) {lifetime now : Number} {f : FileFault}
    (failed : s.expire r lifetime now = (.error (.files f), s')) :
    ∃ done id rest, s.expired r lifetime now = done ++ id :: rest ∧ s'.Sited place ∧
      s'.issued = s.issued ∧ (s'.jobs = s.jobs.filter fun j => j.id ∉ done ++ [id]) ∧
      s'.expired r lifetime now = rest ∧ s'.files.exists? (s.directory id) = true ∧
      SetAside place (s.housed done) s.files s'.files := by
  obtain ⟨hnodup, hthere⟩ := h.numbered.expired_there r lifetime now
  rcases hdetach : s.detachAll (s.expired r lifetime now) with ⟨answer, s''⟩
  cases answer with
  | ok trash =>
    rw [expire_of_ok hdetach] at failed
    cases failed
  | error g =>
    rw [expire_of_error hdetach] at failed
    cases failed
    obtain ⟨done, id, rest, trash, s₁, hids, hdone, hid⟩ := detachAll_error hdetach
    rw [hids] at hnodup hthere
    obtain ⟨hdistinct, hrest, happart⟩ := List.nodup_append'.mp hnodup
    obtain ⟨hsited, -, haside, -⟩ :=
      h.detachAll hdistinct (fun i hi => hthere i (List.mem_append_left _ hi)) hdone
    have hjobs := jobs_detachAll hdone
    obtain ⟨j, hj, hplace, rfl⟩ := detach_error hid
    have hroot : s₁.root = s.root := by simpa only [hdone] using root_detachAll (s := s) done
    have hissued : s₁.issued = s.issued := by
      simpa only [hdone] using (detachAll_sublist (s := s) done).2
    obtain ⟨hmem, rfl⟩ := find?_eq_some hj
    have hjobs' : (s₁.jobs.filter fun k => k.id != j.id) =
        s.jobs.filter fun k => k.id ∉ done ++ [j.id] := by
      rw [hjobs, List.filter_filter]
      refine List.filter_congr fun k _ => ?_
      by_cases hk : k.id = j.id
      · simp [hk]
      · simp [hk]
    refine ⟨done, j.id, rest, hids, ?_, hissued, hjobs', ?_, ?_, haside⟩
    · exact hsited.of_sublist rfl rfl List.filter_sublist hsited.rooted
    · -- those that the sweep came to are not there any more
      have hnew : j.id ∉ rest := (List.nodup_cons.mp hrest).1
      have hleft : s.expired r lifetime now = (done ++ [j.id]) ++ rest := by simp [hids]
      rw [expired_filter (p := fun i => i ∉ done ++ [j.id]) hjobs', hleft, List.filter_append,
        List.filter_eq_nil_iff.mpr fun i hi => by simp [hi], List.nil_append,
        List.filter_eq_self]
      intro i hi
      have hdone : i ∉ done := fun hmem => happart hmem (List.mem_cons_of_mem _ hi)
      have hid : i ≠ j.id := fun heq => hnew (heq ▸ hi)
      simp [hdone, hid]
    · rw [hsited.directories j hmem, directory, hroot] at hplace
      exact hplace

end Store

/-- **What is left behind by removals that fail.**  The record is gone and the directory is not, and no
later call brings them together again. -/
theorem failed_removals {r : Rounding} {root place : Path} {files : FileTree}
    {calls : List StoreCall} {s : Store} (reached : (Store.begin root files).run r calls = s)
    (rooted : s.files.HasPlace s.root place) :
    (∀ id f, (s.delete id).1 = .error (.files f) →
      s.files.exists? (s.directory id) = true ∧
      (s.delete id).2 = { s with jobs := s.jobs.filter fun j => j.id != id } ∧
      ∀ more, ((s.delete id).2.run r more).Unknown r id) ∧
    ∀ lifetime now f, (s.expire r lifetime now).1 = .error (.files f) →
      ∃ done id rest, s.expired r lifetime now = done ++ id :: rest ∧
        ((s.expire r lifetime now).2.jobs = s.jobs.filter fun j => j.id ∉ done ++ [id]) ∧
        (∀ i ∈ done ++ [id], ∀ more, ((s.expire r lifetime now).2.run r more).Unknown r i) ∧
        -- one directory stays where it is, and those before it are left under their hidden names
        (s.expire r lifetime now).2.files.exists? (s.directory id) = true ∧
        SetAside place (s.housed done) s.files (s.expire r lifetime now).2.files ∧
        -- whatever becomes of the obstacle, the next sweep removes the others only
        ∀ files ids, files.HasPlace s.root place →
          ({ (s.expire r lifetime now).2 with files }.expire r lifetime now).1 = .ok ids →
          ids = rest ∧ ∀ q, place ++ [id] <+: q ∨ (∃ i ∈ done, place ++ [trashName i] <+: q) →
            ({ (s.expire r lifetime now).2 with files }.expire r lifetime now).2.files.node? q =
              files.node? q := by
  have hnumbered : s.Numbered := reached ▸ numbered_run calls
  have hsited : s.Sited place := ⟨hnumbered, reached ▸ Store.directories_run calls, rooted⟩
  have hunknown {t : Store} (ht : t.Numbered) (hissued : t.issued = s.issued) {i : JobId}
      (hthere : (s.find? i).isSome = true) (hgone : ∀ j ∈ t.jobs, j.id ≠ i) (more : List StoreCall) :
      (t.run r more).Unknown r i := by
    obtain ⟨j, hj⟩ := Option.isSome_iff_exists.mp hthere
    obtain ⟨hmem, rfl⟩ := Store.find?_eq_some hj
    have hid : t.Issued j.id :=
      Store.Issued.mono (hnumbered.issued j hmem) (Nat.le_of_eq hissued.symm)
    refine Store.unknown_of_find?_eq_none (ht.find?_run_eq_none hid ?_ more)
    simpa [Store.find?] using hgone
  refine ⟨fun id f hfailed => ?_, fun lifetime now f hfailed => ?_⟩
  · rcases hdelete : s.delete id with ⟨answer, s'⟩
    rw [hdelete] at hfailed
    cases hfailed
    obtain ⟨j, hj, hplace, rfl⟩ := Store.detach_error (Store.delete_error hdelete)
    obtain ⟨hmem, rfl⟩ := Store.find?_eq_some hj
    rw [hsited.directories j hmem] at hplace
    have hnumbered' := hnumbered.perform (r := r) (.delete j.id)
    rw [Store.perform, hdelete] at hnumbered'
    refine ⟨hplace, rfl, hunknown hnumbered' rfl (by rw [hj]; rfl) fun k hk => ?_⟩
    simpa using (List.mem_filter.mp hk).2
  · obtain ⟨done, id, rest, hids, hsited', hissued, hjobs, hleft, hplace, haside⟩ :=
      hsited.expire_error (Prod.ext hfailed rfl)
    obtain ⟨hnodup, hthere⟩ := hnumbered.expired_there r lifetime now
    rw [hids] at hnodup hthere
    have hsub : ∀ i ∈ done ++ [id], i ∈ done ++ id :: rest := by simp; tauto
    refine ⟨done, id, rest, hids, hjobs, fun i hi more => ?_, hplace, haside,
      fun files ids hrooted hswept => ?_⟩
    · refine hunknown hsited'.numbered hissued (hthere i (hsub i hi)) (fun j hj heq => ?_) more
      rw [hjobs] at hj
      have := (List.mem_filter.mp hj).2
      simp [heq, hi] at this
    · -- the jobs that are left have other names than those that were lost
      have hroot : (s.expire r lifetime now).2.root = s.root :=
        Store.root_perform s r (.expire lifetime now)
      have hagain : Store.Sited place { (s.expire r lifetime now).2 with files } :=
        ⟨⟨hsited'.numbered.issued, hsited'.numbered.unique⟩, hsited'.directories, by rwa [hroot]⟩
      have hplain (i : JobId) (hi : i ∈ done ++ id :: rest) : ∀ k, i ≠ trashName k := by
        obtain ⟨j, hj⟩ := Option.isSome_iff_exists.mp (hthere i hi)
        obtain ⟨hmem, rfl⟩ := Store.find?_eq_some hj
        exact Store.Issued.ne_trashName (hnumbered.issued j hmem)
      have hleft : ({ (s.expire r lifetime now).2 with files } : Store).expired r lifetime now =
        rest := hleft
      obtain ⟨-, hrest, happart⟩ := List.nodup_append'.mp hnodup
      have hnew : id ∉ rest := (List.nodup_cons.mp hrest).1
      obtain ⟨hids', helsewhere⟩ := hagain.expire_elsewhere hswept
      obtain rfl : ids = rest := hids'.trans hleft
      refine ⟨rfl, fun q hq => helsewhere q fun i hi => ?_⟩
      have hi' : i ∈ done ++ id :: ids := by simp [hi]
      rcases hq with hq | ⟨k, hk, hq⟩
      · refine ⟨fun hpre => hnew (entry_unique hpre hq ▸ hi), fun hpre => ?_⟩
        exact hplain id (by simp) i (entry_unique hq hpre)
      · refine ⟨fun hpre => hplain i hi' k (entry_unique hpre hq), fun hpre => ?_⟩
        have heq : i = k := trashName_injective (entry_unique hpre hq)
        exact happart hk (heq ▸ List.mem_cons_of_mem _ hi)

namespace Sample

/-- Something is in the way of the second of two jobs. -/
def obstacle : FileTree :=
  ((store.run .exact creations).files.put ["work", trashName (jobId 2)] .directory).put
    ["work", trashName (jobId 2), "left"] .directory

def blockedStore : Store := store.run .exact (creations ++ [.disk obstacle])

end Sample

theorem failed_removals_sample :
    (Sample.blockedStore.delete (jobId 2)).2.Unknown .exact (jobId 2) ∧
      ∃ done id rest,
        Sample.blockedStore.expired .exact (.finite 60) (.finite 65) = done ++ id :: rest ∧
        (Sample.blockedStore.expire .exact (.finite 60) (.finite 65)).2.files.exists?
          (Sample.blockedStore.directory id) = true := by
  have hreached : (Store.begin ["work"] Sample.store.files).run .exact
      (Sample.creations ++ [.disk Sample.obstacle]) = Sample.blockedStore := rfl
  have hrooted : Sample.blockedStore.files.HasPlace Sample.blockedStore.root ["work"] :=
    Or.inr ⟨by decide +kernel, by decide +kernel⟩
  obtain ⟨hdelete, hexpire⟩ := failed_removals hreached hrooted
  obtain ⟨-, -, hgone⟩ := hdelete (jobId 2)
    (.moving .notEmpty ["work", jobId 2] ["work", trashName (jobId 2)]) (by decide +kernel)
  obtain ⟨done, id, rest, hids, -, -, hplace, -⟩ := hexpire (.finite 60) (.finite 65)
    (.moving .notEmpty ["work", jobId 2] ["work", trashName (jobId 2)]) (by decide +kernel)
  exact ⟨hgone [], done, id, rest, hids, hplace⟩

/-- **A record goes alone**: the second job is forgotten and its directory stays, and what is left of the
first job is its directory under the hidden name. -/
theorem removal_stops_halfway :
    (Sample.blockedStore.delete (jobId 2)).1.isOk = false ∧
      (Sample.blockedStore.delete (jobId 2)).2.find? (jobId 2) = none ∧
      (Sample.blockedStore.delete (jobId 2)).2.files.isDirectory ["work", jobId 2] = true ∧
      (Sample.blockedStore.expire .exact (.finite 60) (.finite 65)).1.isOk = false ∧
      (Sample.blockedStore.expire .exact (.finite 60) (.finite 65)).2.jobs = [] ∧
      (Sample.blockedStore.expire .exact (.finite 60) (.finite 65)).2.files.isDirectory
        ["work", jobId 2] = true ∧
      (Sample.blockedStore.expire .exact (.finite 60) (.finite 65)).2.files.isDirectory
        ["work", trashName (jobId 1)] = true := by
  decide +kernel

end Montage
