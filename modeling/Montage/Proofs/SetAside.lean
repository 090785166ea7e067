import Montage.Proofs.JobPlaces
import Montage.Proofs.Standing

/-! # Directories set aside

To remove a job its record is forgotten and its directory is set aside, under a hidden name in the same
root (`trashName`); what was set aside is removed after that.  `SetAside` compares the trees before and
after the first part, for any number of jobs, and `Cleared` those before and after both parts.  Nothing
is assumed about what others have done to the files: a directory may be gone, and the hidden name may be
taken (`Sited.detach`, `Sited.detachAll`).
-/
namespace Montage

open FileTree Path

/-- The directories of some jobs have been set aside, with all that is in them. -/
structure SetAside (place : Path) (ids : List JobId) (t u : FileTree) : Prop where
  contents : u.contents = t.contents
  gone : ∀ id ∈ ids, ∀ q, place ++ [id] <+: q → u.node? q = none
  aside : ∀ id ∈ ids, u.node? (place ++ [trashName id]) = t.node? (place ++ [id])
  whole : ∀ id ∈ ids, t.node? (place ++ [id]) = some .directory → ∀ rest,
    u.node? (place ++ [trashName id] ++ rest) = t.node? (place ++ [id] ++ rest)
  /-- At most an empty directory had the hidden name. -/
  free : ∀ id ∈ ids, t.node? (place ++ [id]) = some .directory → ∀ q,
    place ++ [trashName id] <+: q → t.node? q = none ∨ t.node? q = some .directory
  kept : ∀ q, (∀ id ∈ ids, ¬ place ++ [id] <+: q ∧ ¬ place ++ [trashName id] <+: q) →
    u.node? q = t.node? q

/-- The directories of some jobs have been removed. -/
structure Cleared (place : Path) (ids : List JobId) (t u : FileTree) : Prop where
  contents : u.contents = t.contents
  gone : ∀ id ∈ ids, ∀ q, place ++ [id] <+: q → u.node? q = none
  kept : ∀ q, (∀ id ∈ ids, ¬ place ++ [id] <+: q) → u.node? q = t.node? q

namespace SetAside
variable {place q root : Path} {ids more : List JobId} {id : JobId} {t u v : FileTree}

theorem nil (place : Path) (t : FileTree) : SetAside place [] t t :=
  ⟨rfl, nofun, nofun, nofun, nofun, fun _ _ => rfl⟩

/-- What is in the directory of another job stays. -/
theorem below (h : SetAside place ids t u) (other : id ∉ ids) (plain : ∀ i, id ≠ trashName i)
    (hq : place ++ [id] <+: q) : u.node? q = t.node? q := by
  refine h.kept q fun i hi => ⟨fun hi' => ?_, fun hi' => ?_⟩
  · exact other (entry_unique hq hi' ▸ hi)
  · exact plain i (entry_unique hq hi')

/-- What is below the hidden name of another job stays. -/
theorem below_trash (h : SetAside place ids t u) (other : id ∉ ids)
    (plain : ∀ i ∈ ids, ∀ j, i ≠ trashName j) (hq : place ++ [trashName id] <+: q) :
    u.node? q = t.node? q := by
  refine h.kept q fun i hi => ⟨fun hi' => ?_, fun hi' => ?_⟩
  · exact plain i hi id (entry_unique hi' hq)
  · exact other (trashName_injective (entry_unique hq hi') ▸ hi)

/-- Nothing changes outside of the root. -/
theorem outside (h : SetAside place ids t u) (hq : ¬ Inside place q) : u.node? q = t.node? q :=
  h.kept q fun i _ => ⟨not_prefix_of_inside (inside_concat place i) hq,
    not_prefix_of_inside (inside_concat place (trashName i)) hq⟩

theorem keeps (h : SetAside place ids t u) :
    ∀ q, ¬ Inside place q → t.node? q = some .directory → u.node? q = some .directory :=
  fun q hq hd => by rwa [h.outside hq]

/-- The directory of another job is there if it was there. -/
theorem exists?_entry (h : SetAside place ids t u) (stands : (t.outside place).Stands root place)
    (other : id ∉ ids) (plain : ∀ i, id ≠ trashName i) (dots : id ≠ "..") :
    u.exists? (root ++ [id]) = t.exists? (root ++ [id]) := by
  have hstands := (stands.outside_mono h.keeps).of_outside
  have hlocate : u.locate (root ++ [id]) = t.locate (root ++ [id]) := by
    rw [hstands.locate_entry, stands.of_outside.locate_entry]
  rw [exists?, exists?, nodeAt?, nodeAt?, hlocate]
  cases hp : t.locate (root ++ [id]) with
  | error c => rfl
  | ok p =>
    obtain ⟨rfl, -⟩ := stands.of_outside.locate_eq_ok dots hp
    show (u.node? (place ++ [id])).isSome = (t.node? (place ++ [id])).isSome
    rw [h.below other plain (List.prefix_refl _)]

/-- Directories of different jobs do not get into each other's way. -/
theorem append (h : SetAside place ids t u) (h' : SetAside place more u v)
    (disjoint : ∀ id ∈ ids, id ∉ more) (plain : ∀ id ∈ ids ++ more, ∀ i, id ≠ trashName i) :
    SetAside place (ids ++ more) t v := by
  have hplain (id : JobId) (hid : id ∈ ids) : ∀ i, id ≠ trashName i :=
    plain id (List.mem_append_left _ hid)
  have hplain' (id : JobId) (hid : id ∈ more) : ∀ i, id ≠ trashName i :=
    plain id (List.mem_append_right _ hid)
  have hother (id : JobId) (hid : id ∈ more) : id ∉ ids := fun hmem => disjoint id hmem hid
  -- those of the second part are in the middle what they were at first
  have hmiddle (id : JobId) (hid : id ∈ more) (q : Path) (hq : place ++ [id] <+: q) :
      u.node? q = t.node? q := h.below (hother id hid) (hplain' id hid) hq
  refine ⟨h'.contents.trans h.contents, fun id hid q hq => ?_, fun id hid => ?_,
    fun id hid hd rest => ?_, fun id hid hd q hq => ?_, fun q hq => ?_⟩
  · rcases List.mem_append.mp hid with hid | hid
    · rw [h'.below (disjoint id hid) (hplain id hid) hq]
      exact h.gone id hid q hq
    · exact h'.gone id hid q hq
  · rcases List.mem_append.mp hid with hid | hid
    · rw [h'.below_trash (disjoint id hid) hplain' (List.prefix_refl _)]
      exact h.aside id hid
    · rw [h'.aside id hid]
      exact hmiddle id hid _ (List.prefix_refl _)
  · rcases List.mem_append.mp hid with hid | hid
    · rw [h'.below_trash (disjoint id hid) hplain' (List.prefix_append _ _)]
      exact h.whole id hid hd rest
    · rw [← hmiddle id hid _ (List.prefix_refl _)] at hd
      rw [h'.whole id hid hd rest]
      exact hmiddle id hid _ (List.prefix_append _ _)
  · rcases List.mem_append.mp hid with hid | hid
    · exact h.free id hid hd q hq
    · rw [← hmiddle id hid _ (List.prefix_refl _)] at hd
      rw [← h.below_trash (hother id hid) hplain hq]
      exact h'.free id hid hd q hq
  · rw [h'.kept q fun id hid => hq id (List.mem_append_right _ hid),
      h.kept q fun id hid => hq id (List.mem_append_left _ hid)]

/-- **A move to the hidden name sets a directory aside.** -/
theorem of_move {n : FileNode} (plain : id ≠ trashName id)
    (node : t.node? (place ++ [id]) = some n)
    (free : t.obstacle? n (place ++ [id]) (place ++ [trashName id]) = none) :
    SetAside place [id] t (t.move (place ++ [id]) (place ++ [trashName id])) := by
  have hapart : ¬ place ++ [id] <+: place ++ [trashName id] := fun h => plain (prefix_entry_iff.mp h)
  have hempty (hd : t.node? (place ++ [id]) = some .directory) :
      t.hasEntries (place ++ [trashName id]) = false := by
    cases hd.symm.trans node
    exact hasEntries_of_obstacle? free
  refine ⟨rfl, fun i hi q hq => ?_, fun i hi => ?_, fun i hi hd rest => ?_, fun i hi hd q hq => ?_,
    fun q hq => ?_⟩
  · rw [List.mem_singleton.mp hi] at hq
    exact node?_move_source hq fun h => plain (entry_unique hq h)
  · rw [List.mem_singleton.mp hi]
    exact node?_move_target fun h => hapart (h ▸ List.prefix_refl _)
  · rw [List.mem_singleton.mp hi] at hd ⊢
    exact node?_move_below hapart (hempty hd)
  · rw [List.mem_singleton.mp hi] at hd hq
    cases hnode : t.node? q with
    | none => exact Or.inl rfl
    | some m =>
      -- what is there has the hidden name itself, for nothing is below it
      obtain rfl : q = place ++ [trashName id] := by
        obtain ⟨e, he, rfl⟩ := Option.map_eq_some_iff.mp hnode
        obtain rfl : e.1 = q := by simpa using List.find?_some he
        have := List.any_eq_false.mp (hempty hd) e (List.mem_of_find?_eq_some he)
        simpa [List.isPrefixOf_iff_prefix.mpr hq] using this
      cases hd.symm.trans node
      cases m with
      | directory => exact Or.inr rfl
      | file h => simp [obstacle?, hnode] at free
  · obtain ⟨hsource, htarget⟩ := hq id (List.mem_singleton.mpr rfl)
    exact node?_move hsource htarget

end SetAside

/-! ### Removing what was set aside -/

/-- Directories of one root are removed one after the other. -/
theorem FileTree.node?_foldl_remove {t : FileTree} {root place : Path} {names : List String}
    (stands : (t.outside place).Stands root place) (nodup : names.Nodup)
    (there : ∀ name ∈ names, CanStand name ∧ t.node? (place ++ [name]) = some .directory)
    (q : Path) :
    ((names.map fun name => root ++ [name]).foldl FileTree.remove t).node? q =
      if ∃ name ∈ names, place ++ [name] <+: q then none else t.node? q := by
  induction names generalizing t with
  | nil => simp
  | cons first rest ih =>
    obtain ⟨hnew, hrest⟩ := List.nodup_cons.mp nodup
    obtain ⟨hname, hd⟩ := there first List.mem_cons_self
    have hremove := node?_remove (stands.of_outside.locate_of_canStand hname) hd
    have hstands : ((t.remove (root ++ [first])).outside place).Stands root place := by
      refine stands.outside_mono fun q hq hd => ?_
      rwa [hremove, if_neg (not_prefix_of_inside (inside_concat place first) hq)]
    rw [List.map_cons, List.foldl_cons, ih hstands hrest fun name hmem => ?_]
    · simp only [hremove, List.exists_mem_cons_iff]
      by_cases hq : place ++ [first] <+: q
      · simp [hq]
      · simp [hq]
    · obtain ⟨hname', hd'⟩ := there name (List.mem_cons_of_mem first hmem)
      refine ⟨hname', ?_⟩
      rw [hremove, if_neg fun h => ?_]
      · exact hd'
      · exact hnew (prefix_entry_iff.mp h ▸ hmem)

theorem FileTree.contents_foldl_remove (t : FileTree) (paths : List Path) :
    (paths.foldl FileTree.remove t).contents = t.contents := by
  induction paths generalizing t with
  | nil => rfl
  | cons p rest ih => exact (ih _).trans (contents_remove t p)

/-- **What was set aside is removed**, and then the directories are gone. -/
theorem SetAside.cleared {place root : Path} {ids : List JobId} {t u : FileTree}
    (h : SetAside place ids t u) (nodup : ids.Nodup)
    (stands : ∀ id ∈ ids, (u.outside place).Stands root place ∧ CanStand (trashName id))
    (homes : ∀ id ∈ ids, t.node? (place ++ [id]) = some .directory)
    (bare : ∀ id q, place ++ [trashName id] <+: q → t.node? q ≠ some .directory) :
    Cleared place ids t ((ids.map fun id => root ++ [trashName id]).foldl FileTree.remove u) := by
  have hremoved (q : Path) :
      ((ids.map fun id => root ++ [trashName id]).foldl FileTree.remove u).node? q =
        if ∃ name ∈ ids.map trashName, place ++ [name] <+: q then none else u.node? q := by
    have hpaths : (ids.map fun id => root ++ [trashName id]) =
        (ids.map trashName).map fun name => root ++ [name] := by
      rw [List.map_map]
      rfl
    rw [hpaths]
    cases ids with
    | nil => simp
    | cons first rest =>
      refine node?_foldl_remove (stands first List.mem_cons_self).1
        (nodup.map trashName_injective) (fun name hname => ?_) q
      obtain ⟨id, hid, rfl⟩ := List.mem_map.mp hname
      exact ⟨(stands id hid).2, (h.aside id hid).trans (homes id hid)⟩
  refine ⟨(contents_foldl_remove u _).trans h.contents, fun id hid q hq => ?_, fun q hq => ?_⟩
  · rw [hremoved]
    split
    · rfl
    · exact h.gone id hid q hq
  · rw [hremoved]
    by_cases hbelow : ∃ id ∈ ids, place ++ [trashName id] <+: q
    · -- below a hidden name there was nothing
      obtain ⟨id, hid, hq'⟩ := hbelow
      rw [if_pos ⟨_, List.mem_map_of_mem hid, hq'⟩]
      exact ((h.free id hid (homes id hid) q hq').resolve_right (bare id q hq')).symm
    · rw [if_neg (by simpa using hbelow)]
      exact h.kept q fun id hid => ⟨hq id hid, fun hq' => hbelow ⟨id, hid, hq'⟩⟩

theorem Cleared.keeps {place : Path} {ids : List JobId} {t u : FileTree}
    (h : Cleared place ids t u) :
    ∀ q, ¬ Inside place q → t.node? q = some .directory → u.node? q = some .directory :=
  fun q hq hd => by rwa [h.kept q fun id _ => not_prefix_of_inside (inside_concat place id) hq]

namespace Store

variable {s s' : Store} {place : Path} {id : JobId} {ids : List JobId}

/-- Records speak of directories below the root, and the root has a place. -/
structure Sited (place : Path) (s : Store) : Prop where
  numbered : s.Numbered
  directories : ∀ j ∈ s.jobs, j.directory = s.directory j.id
  rooted : s.files.HasPlace s.root place

/-! ### Detaching -/

/-- A store with fewer records, and with the way to its root, is sited as before. -/
theorem Sited.of_sublist (h : Sited place s) (root : s'.root = s.root)
    (issued : s'.issued = s.issued) (jobs : s'.jobs.Sublist s.jobs)
    (rooted : s'.files.HasPlace s'.root place) : Sited place s' where
  numbered := by
    refine ⟨fun j hj => ?_, h.numbered.unique.sublist (jobs.map Job.id)⟩
    rw [issued]
    exact h.numbered.issued j (jobs.subset hj)
  directories := fun j hj => by
    rw [h.directories j (jobs.subset hj), directory, directory, root]
  rooted := rooted

/-- A job that is there is detached, unless its directory is there and cannot be moved. -/
theorem Sited.detach (h : Sited place s) (there : (s.find? id).isSome = true) :
    s.files.exists? (s.directory id) = false ∧ (s.detach id).1 = .ok none ∧
        (s.detach id).2.files = s.files ∨
      s.files.exists? (s.directory id) = true ∧
        ((∃ f, (s.detach id).1 = .error (.files f) ∧ (s.detach id).2.files = s.files) ∨
          (s.detach id).1 = .ok (some (s.directory (trashName id))) ∧
            (s.files.outside place).Stands s.root place ∧
            CanStand id ∧ CanStand (trashName id) ∧
            SetAside place [id] s.files (s.detach id).2.files) := by
  obtain ⟨j, hj⟩ := Option.isSome_iff_exists.mp there
  obtain ⟨hmem, rfl⟩ := find?_eq_some hj
  have hissued : s.Issued j.id := h.numbered.issued j hmem
  rcases detach_cases s j.id with
    ⟨hnone, -⟩ | ⟨k, hk, ⟨hthere, heq⟩ | ⟨hthere, ⟨f, -, heq⟩ | ⟨files, hmove, heq⟩⟩⟩
  · exact nomatch hnone.symm.trans hj
  all_goals
    cases hj.symm.trans hk
    rw [h.directories j hmem] at hthere
    rw [heq]
  · exact Or.inl ⟨hthere, rfl, rfl⟩
  · exact Or.inr ⟨hthere, Or.inl ⟨f, rfl, rfl⟩⟩
  · rw [h.directories j hmem, trashOf_directory] at hmove ⊢
    obtain ⟨p, q, n, hsource, htarget, hnode, hmoved⟩ := rename_eq_ok hmove
    obtain ⟨hstands, rfl, hname⟩ := h.rooted.stands hissued.ne_dots hsource
    obtain ⟨-, rfl, htrash⟩ := h.rooted.stands (trashName_ne_dots j.id) htarget
    have hplain := hissued.ne_trashName j.id
    refine Or.inr ⟨hthere, Or.inr ⟨rfl, hstands, hname, htrash, ?_⟩⟩
    rcases hmoved with ⟨hsame, -⟩ | ⟨-, hfree, rfl⟩
    · exact absurd (prefix_entry_iff.mp (List.prefix_rfl.trans (by rw [hsame]))) hplain
    · exact .of_move hplain hnode hfree

theorem Sited.detach_snd (h : Sited place s) (there : (s.find? id).isSome = true) :
    Sited place (s.detach id).2 := by
  refine h.of_sublist (root_detach id) (issued_detach id) (jobs_detach id ▸ List.filter_sublist) ?_
  rw [root_detach]
  rcases h.detach there with ⟨-, -, hfiles⟩ | ⟨-, ⟨f, -, hfiles⟩ | ⟨-, hstands, -, -, haside⟩⟩
  · rw [hfiles]
    exact h.rooted
  · rw [hfiles]
    exact h.rooted
  · exact Or.inl (hstands.outside_mono haside.keeps)

theorem shuffles_detach (s : Store) (id : JobId) : Shuffles s.files (s.detach id).2.files := by
  rcases detach_cases s id with
    ⟨-, heq⟩ | ⟨j, -, ⟨-, heq⟩ | ⟨-, ⟨f, -, heq⟩ | ⟨files, hmove, heq⟩⟩⟩ <;> rw [heq]
  · exact .refl _
  · exact .refl _
  · exact .refl _
  · exact .rename hmove

theorem shuffles_detachAll (ids : List JobId) : Shuffles s.files (s.detachAll ids).2.files :=
  detachAll_preserves (P := fun t => Shuffles s.files t.files) ids
    (fun t id _ h => h.trans (shuffles_detach t id)) (.refl _)

/-- Jobs are detached one after the other. -/
theorem detachAll_cons_ok {first : JobId} {trash : List Path}
    (h : s.detachAll (first :: ids) = (.ok trash, s')) :
    ∃ moved s₁ more, s.detach first = (.ok moved, s₁) ∧ s₁.detachAll ids = (.ok more, s') ∧
      trash = moved.toList ++ more := by
  rw [detachAll] at h
  rcases hfirst : s.detach first with ⟨answer, s₁⟩
  rw [hfirst] at h
  cases answer with
  | error f => cases h
  | ok moved =>
    dsimp only at h
    rcases hrest : s₁.detachAll ids with ⟨answer, s₂⟩
    rw [hrest] at h
    cases answer with
    | error f => cases h
    | ok more =>
      cases h
      exact ⟨moved, s₁, more, rfl, hrest, rfl⟩

/-- Records of the jobs that are detached are forgotten, and no others. -/
theorem jobs_detachAll {trash : List Path} (h : s.detachAll ids = (.ok trash, s')) :
    s'.jobs = s.jobs.filter fun j => j.id ∉ ids := by
  induction ids generalizing s trash with
  | nil =>
    cases h
    simp
  | cons first rest ih =>
    obtain ⟨moved, s₁, more, hfirst, hrest, -⟩ := detachAll_cons_ok h
    have hjobs := jobs_detach (s := s) first
    rw [hfirst] at hjobs
    rw [ih hrest, hjobs, List.filter_filter]
    refine List.filter_congr fun j _ => ?_
    by_cases hj : j.id = first
    · simp [hj]
    · simp [hj]

/-- Jobs whose directories are there. -/
def housed (s : Store) (ids : List JobId) : List JobId :=
  ids.filter fun id => s.files.exists? (s.directory id)

/-- **What detaching many jobs does to the files**, if none of them is stopped. -/
theorem Sited.detachAll (h : Sited place s) (nodup : ids.Nodup)
    (there : ∀ id ∈ ids, (s.find? id).isSome = true) {trash : List Path}
    (detached : s.detachAll ids = (.ok trash, s')) :
    Sited place s' ∧ trash = (s.housed ids).map (fun id => s.directory (trashName id)) ∧
      SetAside place (s.housed ids) s.files s'.files ∧
      ∀ id ∈ s.housed ids, (s'.files.outside place).Stands s.root place ∧
        CanStand id ∧ CanStand (trashName id) := by
  induction ids generalizing s trash with
  | nil =>
    cases detached
    exact ⟨h, rfl, .nil place s'.files, nofun⟩
  | cons first rest ih =>
    obtain ⟨hnew, hrest⟩ := List.nodup_cons.mp nodup
    have hfirst := there first List.mem_cons_self
    have hissued (id : JobId) (hid : id ∈ first :: rest) : s.Issued id := by
      obtain ⟨j, hj⟩ := Option.isSome_iff_exists.mp (there id hid)
      obtain ⟨hmem, rfl⟩ := find?_eq_some hj
      exact h.numbered.issued j hmem
    obtain ⟨moved, s₁, more, hdetach, hdetach', rfl⟩ := detachAll_cons_ok detached
    have hroot : s₁.root = s.root := by simpa only [hdetach] using root_detach (s := s) first
    have hsited := h.detach_snd hfirst
    have hmove := h.detach hfirst
    have hfind := find?_detach s first
    rw [hdetach] at hsited hmove hfind
    have hdirectory (id : JobId) : s₁.directory id = s.directory id := by
      rw [directory, hroot, directory]
    have hthere : ∀ id ∈ rest, (s₁.find? id).isSome = true := fun id hid => by
      rw [hfind, if_neg fun heq : id = first => hnew (heq ▸ hid)]
      exact there id (List.mem_cons_of_mem first hid)
    obtain ⟨hsited', hmore, haside, hstands⟩ := ih hsited hrest hthere hdetach'
    simp only [hdirectory, hroot] at hmore hstands
    rcases hmove with ⟨hgone, hmoved, hfiles⟩ | ⟨hhoused, ⟨f, hf, -⟩ | ⟨hmoved, hroots, hname,
      htrash, hone⟩⟩
    · -- the directory is not there, and nothing happens to the files
      cases hmoved
      have hfiles : s₁.files = s.files := hfiles
      have hsame : s.housed (first :: rest) = s₁.housed rest := by
        simp only [housed, hfiles, hdirectory]
        exact List.filter_cons_of_neg (by simp [hgone])
      rw [hsame]
      exact ⟨hsited', hmore, hfiles ▸ haside, hstands⟩
    · cases hf
    · cases hmoved
      have hsame : s.housed (first :: rest) = first :: s₁.housed rest := by
        simp only [housed, hdirectory]
        rw [List.filter_cons_of_pos (by simpa using hhoused)]
        congr 1
        refine List.filter_congr fun id hid => ?_
        have hid' := hissued id (List.mem_cons_of_mem first hid)
        exact (hone.exists?_entry hroots (fun hmem => hnew (List.mem_singleton.mp hmem ▸ hid))
          hid'.ne_trashName hid'.ne_dots).symm
      have hsub : ∀ id ∈ s₁.housed rest, id ∈ rest := fun id hid => (List.mem_filter.mp hid).1
      rw [hsame]
      refine ⟨hsited', by rw [hmore]; rfl, hone.append haside (fun id hid hmem => ?_)
        (fun id hid => ?_), fun id hid => ?_⟩
      · exact hnew (List.mem_singleton.mp hid ▸ hsub id hmem)
      · refine (hissued id ?_).ne_trashName
        rcases List.mem_append.mp hid with hid | hid
        · exact List.mem_singleton.mp hid ▸ List.mem_cons_self
        · exact List.mem_cons_of_mem first (hsub id hid)
      · rcases List.mem_cons.mp hid with rfl | hid
        · exact ⟨(hroots.outside_mono hone.keeps).outside_mono haside.keeps, hname, htrash⟩
        · exact hstands id hid

end Store
end Montage
