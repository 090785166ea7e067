import Montage.Proofs.FailedRemovals
import Montage.Proofs.FiniteNumbers

/-! # Jobs that have been there long enough

A sweep is asked twice which jobs are too old: `expired` lists them, and `expire` goes through the jobs
by itself and removes them while it goes.  Both look at nothing of a job but the time since when it has
been there, and an older job stays older (`hasExpired_mono`), so they agree, and a sweep after a sweep
removes what a later sweep alone would have removed (`expiry_by_age`).

A sweep can only fail at a directory that cannot be set aside.  Removing one job changes nothing of what
the removal of another one looks at (`FileTree.SameAround`), so the sweep comes to its end if and only if
each job on the list could be removed alone (`Store.Sited.isOk_expire_iff`).
-/
namespace Montage

open FileTree Path

/-! ### Ages -/

namespace Number
variable {r : Rounding} {x y z : Number}

/-- The sum of finite numbers is the rounded one, up to the sign of nought. -/
theorem add_cases (r : Rounding) (hx : x.isFinite = true) (hy : y.isFinite = true) :
    x.rat + y.rat = 0 ∧ (add r x y = negativeZero ∨ add r x y = finite 0) ∨
      add r x y = r.fit (x.rat + y.rat) := by
  by_cases hsum : x.rat + y.rat = 0
  · refine Or.inl ⟨hsum, ?_⟩
    cases x <;> cases y <;> simp_all [add, isFinite]
  · refine Or.inr ?_
    cases x <;> cases y <;> simp_all [add, isFinite, rat]

theorem le_negativeZero (w : Number) : le negativeZero w = le (finite 0) w := by
  cases w <;> rfl

theorem negativeZero_le (w : Number) : le w negativeZero = le w (finite 0) := by
  cases w <;> rfl

theorem add_le_eq (orderly : r.Orderly) (hx : x.isFinite = true) (hy : y.isFinite = true) (w : Number) :
    le (add r x y) w = le (r.fit (x.rat + y.rat)) w := by
  rcases add_cases r hx hy with ⟨hsum, hadd | hadd⟩ | hadd <;> rw [hadd]
  · rw [hsum, orderly.zero, le_negativeZero]
  · rw [hsum, orderly.zero]

theorem le_add_eq (orderly : r.Orderly) (hx : x.isFinite = true) (hy : y.isFinite = true) (w : Number) :
    le w (add r x y) = le w (r.fit (x.rat + y.rat)) := by
  rcases add_cases r hx hy with ⟨hsum, hadd | hadd⟩ | hadd <;> rw [hadd]
  · rw [hsum, orderly.zero, negativeZero_le]
  · rw [hsum, orderly.zero]

/-- **Time that passes makes a job older**, or leaves it without an age. -/
theorem le_sub_of_le (orderly : r.Orderly) (hx : x.isFinite = true) (hy : y.isFinite = true)
    (h : le x y = true) {least : Number} (age : le least (sub r x z) = true) :
    le least (sub r y z) = true := by
  cases hz : z.isFinite with
  | true =>
    have hneg : z.neg.isFinite = true := (isFinite_neg z).trans hz
    refine le_trans age ?_
    rw [sub, sub, add_le_eq orderly hx hneg, le_add_eq orderly hy hneg]
    rw [le_of_isFinite hx hy, decide_eq_true_eq] at h
    exact orderly.mono _ _ (add_le_add_left h z.neg.rat)
  | false =>
    have hend {w : Number} (hw : w.isFinite = true) : sub r w z = z.neg := by
      cases w <;> cases z <;> simp_all [sub, add, neg, isFinite]
    rwa [hend hy, ← hend hx]

end Number

theorem Store.hasExpired_mono {r : Rounding} {lifetime shorter now later : Number} (orderly : r.Orderly)
    (present : now.isFinite = true) (future : later.isFinite = true) (after : Number.le now later = true)
    (less : Number.le shorter lifetime = true) {j j' : Job} (since : j'.since = j.since)
    (h : hasExpired r lifetime now j = true) : hasExpired r shorter later j' = true := by
  rw [hasExpired, since]
  exact Number.le_trans less (Number.le_sub_of_le orderly present future after h)

/-! ### What removing a job looks at -/

namespace FileTree
variable {t u v : FileTree} {root place source target : Path} {id : JobId} {name : String}

/-- Something stands in a directory. -/
theorem hasEntries_iff : t.hasEntries place = true ↔ ∃ q, Inside place q ∧ t.node? q ≠ none := by
  rw [hasEntries, List.any_eq_true]
  constructor
  · rintro ⟨e, he, hin⟩
    rw [Bool.and_eq_true, List.isPrefixOf_iff_prefix, bne_iff_ne] at hin
    refine ⟨e.1, hin, fun hnone => ?_⟩
    rw [node?, Option.map_eq_none_iff, List.find?_eq_none] at hnone
    exact hnone e he (beq_self_eq_true e.1)
  · rintro ⟨q, hin, hnode⟩
    obtain ⟨n, hn⟩ := Option.ne_none_iff_exists'.mp hnode
    refine ⟨(q, n), mem_of_node? hn, ?_⟩
    rw [Bool.and_eq_true, List.isPrefixOf_iff_prefix, bne_iff_ne]
    exact hin

/-- Whether something can be moved depends on what stands at the source and below the target. -/
theorem isOk_rename_congr (hsource : u.locate source = t.locate source)
    (htarget : u.locate target = t.locate target)
    (moved : ∀ p, t.locate source = .ok p → u.node? p = t.node? p)
    (taken : ∀ p, t.locate target = .ok p → ∀ q, p <+: q → u.node? q = t.node? q) :
    (u.rename source target).isOk = (t.rename source target).isOk := by
  rw [rename, rename, hsource, htarget]
  cases hp : t.locate source with
  | error c => rfl
  | ok p =>
    cases hq : t.locate target with
    | error c =>
      simp only [moved p hp]
      split <;> [rfl; cases t.node? p <;> rfl]
    | ok q =>
      have hentries : u.hasEntries q = t.hasEntries q := by
        rw [Bool.eq_iff_iff, hasEntries_iff, hasEntries_iff]
        exact exists_congr fun q' => and_congr_right fun hin => by rw [taken q hq q' hin.1]
      have hobstacle (n : FileNode) : u.obstacle? n p q = t.obstacle? n p q := by
        simp only [obstacle?, taken q hq q (List.prefix_refl q), hentries]
      simp only [moved p hp]
      split
      · rfl
      · cases t.node? p with
        | none => rfl
        | some n =>
          simp only [hobstacle]
          split
          · rfl
          · cases t.obstacle? n p q <;> rfl

/-- A way leads to the same place in trees that agree along it. -/
theorem descend_congr {from' : Path} {names : List String} (plain : ".." ∉ names)
    (same : ∀ q, q <+: from' ++ names → u.node? q = t.node? q) :
    u.descend from' names = t.descend from' names := by
  induction names generalizing from' with
  | nil => rfl
  | cons first rest ih =>
    obtain ⟨hfirst, hrest⟩ := not_or.mp (mt List.mem_cons.mpr plain)
    have hway : from' ++ first :: rest = (from' ++ [first]) ++ rest := by simp
    have hnext := ih hrest fun q hq => same q (hway ▸ hq)
    rw [descend, descend, if_neg (Ne.symm hfirst), if_neg (Ne.symm hfirst), hnext,
      same (from' ++ [first]) (hway ▸ List.prefix_append _ _)]

/-- **What leads to the names in a directory does not stand in the directory.** -/
theorem HasPlace.locate_congr (h : t.HasPlace root place)
    (same : ∀ q, ¬ Inside place q → u.node? q = t.node? q) (name : String) :
    u.locate (root ++ [name]) = t.locate (root ++ [name]) := by
  rcases h with hstands | ⟨hplain, rfl⟩
  · have hstands' := hstands.outside_mono fun q hq hd => (same q hq).trans hd
    rw [hstands'.of_outside.locate_entry, hstands.of_outside.locate_entry]
  · have hway : u.descend [] place = t.descend [] place := by
      refine descend_congr hplain fun q hq => same q fun hin => hin.2 ?_
      exact hq.eq_of_length (Nat.le_antisymm hq.length_le hin.1.length_le)
    rw [locate, locate, Path.parent_concat, hway]

/-- Two trees are the same as far as the removal of a job looks at them. -/
structure SameAround (place : Path) (id : JobId) (t u : FileTree) : Prop where
  outside : ∀ q, ¬ Inside place q → u.node? q = t.node? q
  home : ∀ q, place ++ [id] <+: q → u.node? q = t.node? q
  trash : ∀ q, place ++ [trashName id] <+: q → u.node? q = t.node? q

theorem SameAround.refl (place : Path) (id : JobId) (t : FileTree) : SameAround place id t t :=
  ⟨fun _ _ => rfl, fun _ _ => rfl, fun _ _ => rfl⟩

end FileTree

/-- Setting aside the directories of other jobs does not disturb a removal. -/
theorem SetAside.sameAround {place : Path} {id : JobId} {ids : List JobId} {t u : FileTree}
    (h : SetAside place ids t u) (other : id ∉ ids) (plain : ∀ k, id ≠ trashName k)
    (plain' : ∀ i ∈ ids, ∀ k, i ≠ trashName k) : SameAround place id t u where
  outside _ hq := h.outside hq
  home _ hq := h.below other plain hq
  trash _ hq := h.below_trash other plain' hq

namespace Store
variable {s s' : Store} {r : Rounding} {place : Path} {id first : JobId} {ids : List JobId}
  {lifetime now later : Number}

theorem Sited.issued (h : s.Sited place) (there : (s.find? id).isSome = true) : s.Issued id := by
  obtain ⟨j, hj⟩ := Option.isSome_iff_exists.mp there
  obtain ⟨hmem, rfl⟩ := find?_eq_some hj
  exact h.numbered.issued j hmem

/-- A job can be forgotten if its directory is gone or can be set aside. -/
theorem Sited.isOk_detach (h : s.Sited place) (there : (s.find? id).isSome = true) :
    (s.detach id).1.isOk = (!s.files.exists? (s.directory id) ||
      (s.files.rename (s.directory id) (s.directory (trashName id))).isOk) := by
  obtain ⟨j, hj⟩ := Option.isSome_iff_exists.mp there
  obtain ⟨hmem, rfl⟩ := find?_eq_some hj
  rcases detach_cases s j.id with
    ⟨hnone, -⟩ | ⟨k, hk, ⟨hthere, heq⟩ | ⟨hthere, ⟨f, hmove, heq⟩ | ⟨files, hmove, heq⟩⟩⟩
  · exact nomatch hnone.symm.trans hj
  all_goals
    cases hj.symm.trans hk
    rw [h.directories j hmem] at hthere
    rw [heq, hthere]
  · rfl
  all_goals
    rw [h.directories j hmem, trashOf_directory] at hmove
    rw [hmove]
    rfl

theorem isOk_of_eq_ok {x : Except StoreFault α} {a : α} (h : x = .ok a) : x.isOk = true := by
  rw [h]
  rfl

theorem isOk_delete (s : Store) (id : JobId) : (s.delete id).1.isOk = (s.detach id).1.isOk := by
  rw [delete]
  rcases s.detach id with ⟨_ | trash, s'⟩ <;> rfl

/-- **Whether a job can be removed depends on nothing but its own places.** -/
theorem Sited.isOk_detach_congr (h : s.Sited place) (h' : s'.Sited place) (root : s'.root = s.root)
    (there : (s.find? id).isSome = true) (there' : (s'.find? id).isSome = true)
    (same : SameAround place id s.files s'.files) : (s'.detach id).1.isOk = (s.detach id).1.isOk := by
  have hdots := (h.issued there).ne_dots
  have hlocate (name : String) : s'.files.locate (s.directory name) = s.files.locate (s.directory name) :=
    h.rooted.locate_congr same.outside name
  have hnode {p q : Path} (hp : s.files.locate (s.directory id) = .ok p) (hq : p <+: q) :
      s'.files.node? q = s.files.node? q := by
    obtain ⟨-, rfl, -⟩ := h.rooted.stands hdots hp
    exact same.home q hq
  have hexists : s'.files.exists? (s.directory id) = s.files.exists? (s.directory id) := by
    rw [exists?, exists?, nodeAt?, nodeAt?, hlocate]
    cases hp : s.files.locate (s.directory id) with
    | error c => rfl
    | ok p =>
      dsimp only
      rw [hnode hp (List.prefix_refl p)]
  have hrename : (s'.files.rename (s.directory id) (s.directory (trashName id))).isOk =
      (s.files.rename (s.directory id) (s.directory (trashName id))).isOk := by
    refine isOk_rename_congr (hlocate id) (hlocate (trashName id))
      (fun p hp => hnode hp (List.prefix_refl p)) fun p hp q hq => ?_
    obtain ⟨-, rfl, -⟩ := h.rooted.stands (trashName_ne_dots id) hp
    exact same.trash q hq
  have hdirectory (name : String) : s'.directory name = s.directory name := by
    rw [directory, root, directory]
  rw [h.isOk_detach there, h'.isOk_detach there', hdirectory, hdirectory, hexists, hrename]

/-- Forgetting one job does not change whether another one can be forgotten. -/
theorem Sited.isOk_detach_detach (h : s.Sited place) (there : (s.find? first).isSome = true)
    (there' : (s.find? id).isSome = true) (other : id ≠ first) :
    ((s.detach first).2.detach id).1.isOk = (s.detach id).1.isOk := by
  refine h.isOk_detach_congr (h.detach_snd there) (root_detach first) there' ?_ ?_
  · rwa [find?_detach, if_neg other]
  · rcases h.detach there with ⟨-, -, hfiles⟩ | ⟨-, ⟨f, -, hfiles⟩ | ⟨-, -, -, -, haside⟩⟩
    · rw [hfiles]
      exact .refl place id s.files
    · rw [hfiles]
      exact .refl place id s.files
    · refine haside.sameAround (by simpa using other) (h.issued there').ne_trashName fun i hi => ?_
      rw [List.mem_singleton.mp hi]
      exact (h.issued there).ne_trashName

/-- **Jobs can be removed together if and only if each of them could be removed alone.** -/
theorem Sited.isOk_detachAll_iff (h : s.Sited place) (nodup : ids.Nodup)
    (there : ∀ id ∈ ids, (s.find? id).isSome = true) :
    (s.detachAll ids).1.isOk = true ↔ ∀ id ∈ ids, (s.detach id).1.isOk = true := by
  induction ids generalizing s with
  | nil => exact ⟨fun _ => nofun, fun _ => rfl⟩
  | cons first rest ih =>
    obtain ⟨hnew, hrest⟩ := List.nodup_cons.mp nodup
    obtain ⟨hfirst, hthere⟩ := List.forall_mem_cons.mp there
    have hother {id : JobId} (hid : id ∈ rest) : id ≠ first := ne_of_mem_of_not_mem hid hnew
    have hmore := ih (h.detach_snd hfirst) hrest fun id hid => by
      rw [find?_detach, if_neg (hother hid)]
      exact hthere id hid
    have hsame : (∀ id ∈ rest, ((s.detach first).2.detach id).1.isOk = true) ↔
        ∀ id ∈ rest, (s.detach id).1.isOk = true :=
      forall₂_congr fun id hid => by rw [h.isOk_detach_detach hfirst (hthere id hid) (hother hid)]
    rw [List.forall_mem_cons, ← hsame, ← hmore, Store.detachAll]
    rcases s.detach first with ⟨_ | moved, s₁⟩
    · exact ⟨fun h => (Bool.false_ne_true h).elim, fun h => (Bool.false_ne_true h.1).elim⟩
    · dsimp only
      rcases s₁.detachAll rest with ⟨_ | more, s₂⟩
      · exact ⟨fun h => (Bool.false_ne_true h).elim, fun h => (Bool.false_ne_true h.2).elim⟩
      · exact ⟨fun _ => ⟨rfl, rfl⟩, fun _ => rfl⟩

/-! ### Sweeps -/

theorem isOk_expire (s : Store) (r : Rounding) (lifetime now : Number) :
    (s.expire r lifetime now).1.isOk = (s.detachAll (s.expired r lifetime now)).1.isOk := by
  rcases hdetach : s.detachAll (s.expired r lifetime now) with ⟨_ | trash, s'⟩
  · rw [expire_of_error hdetach]
    rfl
  · rw [expire_of_ok hdetach]
    rfl

theorem Sited.isOk_expire_iff (h : s.Sited place) :
    (s.expire r lifetime now).1.isOk = true ↔
      ∀ id ∈ s.expired r lifetime now, (s.delete id).1.isOk = true := by
  obtain ⟨hnodup, hthere⟩ := h.numbered.expired_there r lifetime now
  simp only [isOk_expire, h.isOk_detachAll_iff hnodup hthere, isOk_delete]

/-- **A sweep gives the list if and only if each job on it could be removed alone.** -/
theorem Sited.expire_eq_ok_iff (h : s.Sited place) :
    (s.expire r lifetime now).1 = .ok (s.expired r lifetime now) ↔
      ∀ id ∈ s.expired r lifetime now, (s.delete id).1 = .ok () := by
  have hdelete (id : JobId) : (s.delete id).1.isOk = true ↔ (s.delete id).1 = .ok () := by
    cases (s.delete id).1 with
    | error f => exact ⟨nofun, nofun⟩
    | ok u => exact ⟨fun _ => rfl, fun _ => rfl⟩
  have hexpire : (s.expire r lifetime now).1.isOk = true ↔
      (s.expire r lifetime now).1 = .ok (s.expired r lifetime now) := by
    rcases hdetach : s.detachAll (s.expired r lifetime now) with ⟨f | trash, s'⟩
    · rw [expire_of_error hdetach]
      exact ⟨nofun, nofun⟩
    · rw [expire_of_ok hdetach]
      exact ⟨fun _ => rfl, fun _ => rfl⟩
  rw [← hexpire, h.isOk_expire_iff]
  exact forall₂_congr fun id _ => hdelete id

/-- Only a directory can stop a sweep. -/
theorem Numbered.expire_error (h : s.Numbered) {f : StoreFault}
    (failed : (s.expire r lifetime now).1 = .error f) : ∃ g, f = .files g := by
  obtain ⟨hnodup, hthere⟩ := h.expired_there r lifetime now
  rcases hdetach : s.detachAll (s.expired r lifetime now) with ⟨f | trash, s'⟩
  · rw [expire_of_error hdetach] at failed
    cases failed
    exact exists_files_of_detachAll_error hdetach hnodup hthere
  · rw [expire_of_ok hdetach] at failed
    cases failed

/-- A job is listed for its age. -/
theorem Numbered.mem_expired_iff (h : s.Numbered) {j : Job} (hj : j ∈ s.jobs) :
    j.id ∈ s.expired r lifetime now ↔ hasExpired r lifetime now j = true := by
  constructor
  · intro hid
    obtain ⟨k, hk, hsame⟩ := List.mem_map.mp hid
    obtain ⟨hk, hold⟩ := List.mem_filter.mp hk
    rwa [← List.inj_on_of_nodup_map h.unique hk hj hsame]
  · exact fun hold => List.mem_map.mpr ⟨j, List.mem_filter.mpr ⟨hj, hold⟩, rfl⟩

/-- **A sweep that comes to its end** gives the list, and leaves the jobs that are not on it. -/
theorem Numbered.expire_of_isOk (h : s.Numbered) (swept : (s.expire r lifetime now).1.isOk = true) :
    (s.expire r lifetime now).1 = .ok (s.expired r lifetime now) ∧
      (s.expire r lifetime now).2.jobs = s.jobs.filter fun j => !hasExpired r lifetime now j := by
  rcases hdetach : s.detachAll (s.expired r lifetime now) with ⟨f | trash, s'⟩
  · rw [expire_of_error hdetach] at swept
    cases swept
  · rw [expire_of_ok hdetach]
    refine ⟨rfl, (jobs_detachAll hdetach).trans (List.filter_congr fun j hj => ?_)⟩
    simp [h.mem_expired_iff hj]

section Swept
variable (h : s.Sited place) (swept : (s.expire r lifetime now).1.isOk = true)
include h swept

theorem Sited.node?_expire {q : Path} (outside : ¬ Inside place q) :
    (s.expire r lifetime now).2.files.node? q = s.files.node? q := by
  obtain ⟨-, helsewhere⟩ := h.expire_elsewhere (h.numbered.expire_of_isOk swept).1
  exact helsewhere q fun i _ => ⟨not_prefix_of_inside (inside_concat place i) outside,
    not_prefix_of_inside (inside_concat place (trashName i)) outside⟩

theorem Sited.expire : (s.expire r lifetime now).2.Sited place := by
  have hroot : (s.expire r lifetime now).2.root = s.root := root_perform s r (.expire lifetime now)
  refine h.of_sublist hroot (expire_sublist lifetime now).2 (expire_sublist lifetime now).1 ?_
  rw [hroot]
  exact h.rooted.mono fun q hq hd => (h.node?_expire swept hq).trans hd

/-- A sweep does not disturb the removal of a job that it leaves. -/
theorem Sited.sameAround_expire (there : (s.find? id).isSome = true) (young : id ∉ s.expired r lifetime now) :
    SameAround place id s.files (s.expire r lifetime now).2.files := by
  obtain ⟨-, helsewhere⟩ := h.expire_elsewhere (h.numbered.expire_of_isOk swept).1
  obtain ⟨-, hthere⟩ := h.numbered.expired_there r lifetime now
  have hplain := (h.issued there).ne_trashName
  have hother : ∀ i ∈ s.expired r lifetime now, i ≠ id := fun i hi heq => young (heq ▸ hi)
  refine ⟨fun q => h.node?_expire swept, fun q hq => ?_, fun q hq => ?_⟩
  · refine helsewhere q fun i hi => ⟨fun hq' => hother i hi (entry_unique hq' hq), fun hq' => ?_⟩
    exact hplain i (entry_unique hq hq')
  · refine helsewhere q fun i hi => ⟨fun hq' => ?_, fun hq' => ?_⟩
    · exact (h.issued (hthere i hi)).ne_trashName id (entry_unique hq' hq)
    · exact hother i hi (trashName_injective (entry_unique hq' hq))

/-- **A sweep that comes to its end does not change whether another job can be removed.** -/
theorem Sited.isOk_delete_expire (left : ((s.expire r lifetime now).2.find? id).isSome = true) :
    ((s.expire r lifetime now).2.delete id).1.isOk = (s.delete id).1.isOk := by
  obtain ⟨j, hj⟩ := Option.isSome_iff_exists.mp left
  obtain ⟨hmem, rfl⟩ := find?_eq_some hj
  rw [(h.numbered.expire_of_isOk swept).2, List.mem_filter] at hmem
  obtain ⟨hmem, hyoung⟩ := hmem
  have hthere : (s.find? j.id).isSome = true := by
    rw [h.numbered.find?_eq_some_iff.mpr ⟨hmem, rfl⟩]
    rfl
  have hnot : j.id ∉ s.expired r lifetime now := by
    rw [h.numbered.mem_expired_iff hmem]
    simpa using hyoung
  rw [isOk_delete, isOk_delete]
  exact h.isOk_detach_congr (h.expire swept) (root_perform s r (.expire lifetime now)) hthere left
    (h.sameAround_expire swept hthere hnot)

end Swept

/-- After a sweep nothing is left for it. -/
theorem expired_of_jobs (jobs : s'.jobs = s.jobs.filter fun j => !hasExpired r lifetime now j) :
    s'.expired r lifetime now = [] := by
  rw [expired, jobs, List.filter_filter, List.map_eq_nil_iff, List.filter_eq_nil_iff]
  intro j _
  simp

theorem expire_of_expired_nil (none : s.expired r lifetime now = []) :
    s.expire r lifetime now = (.ok [], s) := by
  have hdetach : s.detachAll (s.expired r lifetime now) = (.ok [], s) := by rw [none, detachAll]
  rw [expire_of_ok hdetach, none]
  rfl

section Twice
variable (older : ∀ j, hasExpired r lifetime now j = true → hasExpired r lifetime later j = true)
include older

/-- **A sweep after a sweep finds what it would have found besides.** -/
theorem expired_expired (jobs : s'.jobs = s.jobs.filter fun j => !hasExpired r lifetime now j) :
    (s.expired r lifetime now ++ s'.expired r lifetime later).Perm (s.expired r lifetime later) ∧
      (s'.jobs.filter fun j => !hasExpired r lifetime later j) =
        s.jobs.filter fun j => !hasExpired r lifetime later j := by
  have hfirst : s.jobs.filter (hasExpired r lifetime now) =
      (s.jobs.filter (hasExpired r lifetime later)).filter (hasExpired r lifetime now) := by
    rw [List.filter_filter]
    refine List.filter_congr fun j _ => ?_
    cases hold : hasExpired r lifetime now j with
    | false => rfl
    | true => rw [older j hold, Bool.and_self]
  have hsecond : s'.jobs.filter (hasExpired r lifetime later) =
      (s.jobs.filter (hasExpired r lifetime later)).filter fun j => !hasExpired r lifetime now j := by
    rw [jobs, List.filter_filter, List.filter_filter]
    exact List.filter_congr fun j _ => Bool.and_comm _ _
  constructor
  · rw [expired, expired, expired, hfirst, hsecond, ← List.map_append]
    exact (List.filter_append_perm _ _).map Job.id
  · rw [jobs, List.filter_filter]
    refine List.filter_congr fun j _ => ?_
    cases hold : hasExpired r lifetime now j with
    | false => simp
    | true => simp [older j hold]

/-- **Two sweeps come to their end if and only if the later one would have done so alone.** -/
theorem Sited.isOk_expire_expire (h : s.Sited place) :
    (s.expire r lifetime later).1.isOk = true ↔ (s.expire r lifetime now).1.isOk = true ∧
      ((s.expire r lifetime now).2.expire r lifetime later).1.isOk = true := by
  have hlisted : ∀ i ∈ s.expired r lifetime now, i ∈ s.expired r lifetime later := by
    exact fun i hi => ((s.jobs.monotone_filter_right older).map Job.id).subset hi
  constructor
  · intro hall
    have hdelete := h.isOk_expire_iff.mp hall
    have hfirst := h.isOk_expire_iff.mpr fun i hi => hdelete i (hlisted i hi)
    have hsited := h.expire hfirst
    have hperm := (expired_expired older (h.numbered.expire_of_isOk hfirst).2).1
    refine ⟨hfirst, hsited.isOk_expire_iff.mpr fun i hi => ?_⟩
    rw [h.isOk_delete_expire hfirst ((hsited.numbered.expired_there r lifetime later).2 i hi)]
    exact hdelete i (hperm.subset (List.mem_append_right _ hi))
  · rintro ⟨hfirst, hsecond⟩
    have hsited := h.expire hfirst
    have hperm := (expired_expired older (h.numbered.expire_of_isOk hfirst).2).1
    refine h.isOk_expire_iff.mpr fun i hi => ?_
    rcases List.mem_append.mp (hperm.symm.subset hi) with hi | hi
    · exact h.isOk_expire_iff.mp hfirst i hi
    · rw [← h.isOk_delete_expire hfirst ((hsited.numbered.expired_there r lifetime later).2 i hi)]
      exact hsited.isOk_expire_iff.mp hsecond i hi

/-- Two sweeps remove what the later one would have removed alone, and leave what it would have left. -/
theorem Sited.expire_expire (h : s.Sited place) {first second all : List JobId}
    (swept : (s.expire r lifetime now).1 = .ok first)
    (again : ((s.expire r lifetime now).2.expire r lifetime later).1 = .ok second)
    (alone : (s.expire r lifetime later).1 = .ok all) :
    (first ++ second).Perm all ∧ ((s.expire r lifetime now).2.expire r lifetime later).2.jobs =
      (s.expire r lifetime later).2.jobs := by
  have hfirst := isOk_of_eq_ok swept
  obtain ⟨hanswer, hjobs⟩ := h.numbered.expire_of_isOk hfirst
  obtain ⟨hanswer', hjobs'⟩ := (h.expire hfirst).numbered.expire_of_isOk (isOk_of_eq_ok again)
  obtain ⟨hanswerAlone, hjobsAlone⟩ := h.numbered.expire_of_isOk (isOk_of_eq_ok alone)
  obtain ⟨hperm, hleft⟩ := expired_expired older hjobs
  cases swept.symm.trans hanswer
  cases again.symm.trans hanswer'
  cases alone.symm.trans hanswerAlone
  exact ⟨hperm, hjobs'.trans (hleft.trans hjobsAlone.symm)⟩

end Twice

/-- **A job that is too old stays too old**, whatever is done to it, as long as it is there. -/
theorem expired_run {root : Path} {files : FileTree} {calls more : List StoreCall} {shorter : Number}
    (older : ∀ a b : Job, b.since = a.since → hasExpired r lifetime now a = true →
      hasExpired r shorter later b = true)
    (old : id ∈ ((Store.begin root files).run r calls).expired r lifetime now)
    (there : ((((Store.begin root files).run r calls).run r more).find? id).isSome = true) :
    id ∈ (((Store.begin root files).run r calls).run r more).expired r shorter later := by
  obtain ⟨a, ha, rfl⟩ := List.mem_map.mp old
  obtain ⟨ha, hold⟩ := List.mem_filter.mp ha
  obtain ⟨b, hb⟩ := Option.isSome_iff_exists.mp there
  obtain ⟨hb, hsame⟩ := find?_eq_some hb
  rw [← run_append] at hb ⊢
  rw [← hsame, (numbered_run (calls ++ more)).mem_expired_iff hb]
  exact older a b (extends_run calls more ha hb hsame).since hold

end Store

end Montage
