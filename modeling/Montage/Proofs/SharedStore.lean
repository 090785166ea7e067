import Montage.Proofs.Homes

/-! # A store that is shared

Many callers use one store, and each has it for itself only while it holds the lock.  What a call does
under the lock is `Store.hold`: a job that is removed is forgotten and its directory is set aside.  The
directory is removed when the lock is free again, piece by piece, and in between other calls have their
turns (`FileTree.prune`).  So a `SharedStore` takes steps that are shorter than calls.

Nothing that the store does writes to a file (`SharedStore.shuffles_step`), and nothing of it happens in
the home of a job that stays (`SharedStore.Sound.tends`).  So whoever opens the output of a job that
has completed opens what the job has made, and reads it to the end, whatever becomes of the job
meanwhile (`opened_outputs`).
-/
namespace Montage

open FileTree Path

/-! ### Removing piece by piece -/

namespace FileTree
variable {t u : FileTree} {p q : Path} {gone : List Path}

/-- Removes some of what stands in a directory, and perhaps the directory. -/
def prune (t : FileTree) (p : Path) (gone : List Path) : FileTree :=
  match t.locate p with
  | .error _ => t
  | .ok place =>
    if t.node? place = some .directory then
      { t with entries := t.entries.filter fun e => !(place.isPrefixOf e.1 && gone.contains e.1) }
    else t

/-- When all that stands in a directory has been removed it is removed. -/
theorem remove_eq_prune (t : FileTree) (p : Path) : t.remove p = t.prune p (t.entries.map Prod.fst) := by
  have hall (place : Path) : (t.entries.filter fun e => !place.isPrefixOf e.1) =
      t.entries.filter fun e =>
        !(place.isPrefixOf e.1 && (t.entries.map Prod.fst).contains e.1) := by
    refine List.filter_congr fun e he => ?_
    have hmem : (t.entries.map Prod.fst).contains e.1 = true :=
      List.contains_iff_mem.mpr (List.mem_map_of_mem he)
    rw [hmem, Bool.and_true]
  cases hp : t.locate p <;> simp only [remove, prune, hp, hall]

theorem shuffles_prune (t : FileTree) (p : Path) (gone : List Path) : Shuffles t (t.prune p gone) := by
  rw [prune]
  split
  · exact .refl t
  · split
    · exact ⟨rfl, fun q k hq => ⟨q, (List.mem_filter.mp hq).1⟩⟩
    · exact .refl t

theorem node?_prune_elsewhere (h : ∀ place, t.locate p = .ok place → ¬ place <+: q) :
    (t.prune p gone).node? q = t.node? q := by
  rw [prune]
  split
  · rfl
  · rename_i place hplace
    split
    · rw [node?, node?, List.find?_filter]
      congr 2
      funext e
      by_cases he : e.1 = q
      · have hout : place.isPrefixOf q = false := by
          rw [← Bool.not_eq_true, List.isPrefixOf_iff_prefix]
          exact h place hplace
        simp [he, hout]
      · simp [he]
    · rfl

end FileTree

/-! ### Under the lock -/

namespace Store
variable {s : Store} {r : Rounding} {place : Path} {id : JobId}

/-- What a call does while it holds the lock, and what it has to remove then. -/
def hold (s : Store) (r : Rounding) : StoreCall → Store × List Path
  | .delete id =>
    match s.detach id with
    | (.error _, s) => (s, [])
    | (.ok trash, s) => (s, trash.toList)
  | .expire lifetime now =>
    match s.detachAll (s.expired r lifetime now) with
    | (.error _, s) => (s, [])
    | (.ok trash, s) => (s, trash)
  | c => ((s.perform r c).2, [])

/-- A call holds the lock, and then it removes what it has set aside. -/
theorem perform_eq_hold (s : Store) (r : Rounding) (c : StoreCall) :
    (s.perform r c).2 = (s.hold r c).1.clear (s.hold r c).2 := by
  cases c with
  | delete id =>
    rw [perform, delete, hold]
    rcases s.detach id with ⟨answer, s'⟩
    cases answer <;> rfl
  | expire lifetime now =>
    rw [perform, hold]
    rcases hdetach : s.detachAll (s.expired r lifetime now) with ⟨_ | trash, s'⟩
    · rw [expire_of_error hdetach]
      rfl
    · rw [expire_of_ok hdetach]
  | _ => rfl

theorem jobs_hold (s : Store) (r : Rounding) (c : StoreCall) :
    (s.hold r c).1.jobs = (s.perform r c).2.jobs := by
  rw [perform_eq_hold]
  rfl

theorem root_hold (s : Store) (r : Rounding) (c : StoreCall) : (s.hold r c).1.root = s.root := by
  rw [← root_perform s r c, perform_eq_hold]
  rfl

theorem hold_delete (s : Store) (r : Rounding) (id : JobId) :
    (s.hold r (.delete id)).1 = (s.detach id).2 := by
  rw [hold]
  split <;> rename_i h <;> rw [h]

theorem hold_expire (s : Store) (r : Rounding) (lifetime now : Number) :
    (s.hold r (.expire lifetime now)).1 = (s.detachAll (s.expired r lifetime now)).2 := by
  rw [hold]
  split <;> rename_i h <;> rw [h]

/-- Under the lock nothing is written. -/
theorem shuffles_hold {c : StoreCall} (own : ∀ files, c ≠ .disk files) :
    Shuffles s.files (s.hold r c).1.files := by
  cases c with
  | disk files => exact absurd rfl (own files)
  | get id | jobs | openOutput id | expired lifetime now | setStage id stage => exact .refl _
  | transition id state error stage now =>
    show Shuffles s.files (s.transition r id state error stage now).2.files
    rw [transition_frame.2.2]
    exact .refl _
  | delete id =>
    rw [hold_delete]
    exact shuffles_detach s id
  | expire lifetime now =>
    rw [hold_expire]
    exact shuffles_detachAll _
  | create now steady =>
    show Shuffles s.files (s.create r now steady).2.files
    simp only [create]
    split
    · exact .refl _
    · rename_i files hmade
      split
      · exact .makeFrom hmade
      · exact .makeFrom hmade

namespace Homed

theorem tends_hold (h : s.Homed place) {c : StoreCall} (own : ∀ files, c ≠ .disk files) :
    Tends place s (s.hold r c).1 := by
  cases c with
  | disk files => exact absurd rfl (own files)
  | get id | jobs | openOutput id | expired lifetime now => exact h.tends_refl
  | create now steady => exact h.tends_create now steady
  | setStage id stage => exact h.tends_perform (r := r) (c := .setStage id stage) nofun rfl
  | transition id state error stage now =>
    exact h.tends_perform (c := .transition id state error stage now) nofun transition_frame.2.2
  | delete id =>
    rw [hold_delete]
    exact h.tends_detach id
  | expire lifetime now =>
    rw [hold_expire]
    exact h.tends_detachAll _

/-- What a call has to remove has a hidden name. -/
theorem aside_hold (h : s.Homed place) {c : StoreCall} :
    ∀ p ∈ (s.hold r c).2, ∃ id, p = s.directory (trashName id) := by
  have hidden {ids : List JobId} {trash : List Path} {s' : Store} (nodup : ids.Nodup)
      (detached : s.detachAll ids = (.ok trash, s')) :
      ∀ p ∈ trash, ∃ id, p = s.directory (trashName id) := by
    obtain ⟨-, rfl, -⟩ := h.toSited.detachAll nodup
      (fun id hid => isSome_find?_of_detachAll_ok detached hid) detached
    intro p hp
    obtain ⟨id, -, rfl⟩ := List.mem_map.mp hp
    exact ⟨id, rfl⟩
  cases c with
  | delete id =>
    rw [hold]
    rcases hdetach : s.detach id with ⟨answer, s'⟩
    cases answer with
    | error f => nofun
    | ok moved => exact hidden (List.nodup_singleton id) (detachAll_one hdetach)
  | expire lifetime now =>
    rw [hold]
    rcases hdetach : s.detachAll (s.expired r lifetime now) with ⟨answer, s'⟩
    cases answer with
    | error f => nofun
    | ok trash => exact hidden (h.numbered.expired_there r lifetime now).1 hdetach
  | _ => nofun

/-- Removing what was set aside leaves the homes of jobs alone. -/
theorem tends_prune (h : s.Homed place) (id : JobId) (gone : List Path) :
    Tends place s { s with files := s.files.prune (s.directory (trashName id)) gone } := by
  have hsame (q : Path) (hq : ¬ place ++ [trashName id] <+: q) :
      (s.files.prune (s.directory (trashName id)) gone).node? q = s.files.node? q := by
    refine node?_prune_elsewhere fun p hp => ?_
    obtain ⟨-, rfl, -⟩ := h.rooted.stands (trashName_ne_dots id) hp
    exact hq
  have hplain (i : JobId) (hi : s.Issued i) (q : Path) (hq : place ++ [i] <+: q) :
      ¬ place ++ [trashName id] <+: q := fun hq' => hi.ne_trashName id (entry_unique hq hq')
  refine ⟨h.disk fun q hd hhome => ?_, Nat.le_refl _, fun i hi there =>
    ⟨there, fun q hq => hsame q (hplain i hi q hq)⟩⟩
  refine (hsame q fun hq => ?_).trans hd
  obtain ⟨j, hj, rfl⟩ := hhome ((inside_concat place _).extend hq)
  exact hplain j.id (h.issued hj) _ (List.prefix_refl _) hq

end Homed
end Store

/-! ### Steps of a shared store -/

/-- A store, and what has been set aside and is being removed. -/
structure SharedStore where
  store : Store
  aside : List Path
  deriving DecidableEq, Repr

inductive StoreEvent where
  /-- A call has the lock. -/
  | called (c : StoreCall)
  /-- Some of what stands in a directory that was set aside has been removed. -/
  | cleared (directory : Path) (gone : List Path)
  deriving DecidableEq, Repr

namespace SharedStore
variable {s d : SharedStore} {r : Rounding} {root place : Path} {files : FileTree} {id : JobId}
  {e : StoreEvent} {events past : List StoreEvent} {j j' : Job}

def begin (root : Path) (files : FileTree) : SharedStore := ⟨Store.begin root files, []⟩

def step (r : Rounding) (s : SharedStore) : StoreEvent → SharedStore
  | .called c => ⟨(s.store.hold r c).1, s.aside ++ (s.store.hold r c).2⟩
  | .cleared directory gone =>
    if directory ∈ s.aside then
      { s with store := { s.store with files := s.store.files.prune directory gone } }
    else s

def run (r : Rounding) (s : SharedStore) (events : List StoreEvent) : SharedStore :=
  events.foldl (step r) s

theorem run_append (events more : List StoreEvent) :
    s.run r (events ++ more) = (s.run r events).run r more := List.foldl_append ..

theorem root_step (s : SharedStore) (r : Rounding) (e : StoreEvent) :
    (s.step r e).store.root = s.store.root := by
  cases e with
  | called c => exact Store.root_hold s.store r c
  | cleared directory gone =>
    rw [step]
    split <;> rfl

theorem root_run (s : SharedStore) (r : Rounding) (events : List StoreEvent) :
    (s.run r events).store.root = s.store.root := by
  induction events generalizing s with
  | nil => rfl
  | cons e rest ih => exact (ih (s.step r e)).trans (s.root_step r e)

/-- Others leave the homes of jobs where they are, and have contents for their files. -/
def Respected (r : Rounding) (place : Path) (s : SharedStore) : List StoreEvent → Prop
  | [] => True
  | e :: rest => (∀ files, e = .called (.disk files) →
      s.store.LeavesHomes place files ∧ files.Filled) ∧ (s.step r e).Respected r place rest

theorem Respected.append (h : s.Respected r place (events ++ past)) :
    s.Respected r place events ∧ (s.run r events).Respected r place past := by
  induction events generalizing s with
  | nil => exact ⟨trivial, h⟩
  | cons e rest ih => exact ⟨⟨h.1, (ih h.2).1⟩, (ih h.2).2⟩

/-- What the store does itself writes nothing. -/
theorem shuffles_step (own : ∀ files, e ≠ .called (.disk files)) :
    Shuffles s.store.files (s.step r e).store.files := by
  cases e with
  | called c => exact Store.shuffles_hold fun files hc => own files (hc ▸ rfl)
  | cleared directory gone =>
    rw [step]
    split
    · exact shuffles_prune s.store.files directory gone
    · exact .refl _

theorem mem_aside_step {p : Path} (h : p ∈ (s.step r e).aside) :
    p ∈ s.aside ∨ ∃ c, e = .called c ∧ p ∈ (s.store.hold r c).2 := by
  cases e with
  | called c => exact (List.mem_append.mp h).imp_right fun h => ⟨c, rfl, h⟩
  | cleared directory gone =>
    rw [step] at h
    split at h <;> exact Or.inl h

/-- Jobs are at home, and what is being removed has a hidden name. -/
structure Sound (place : Path) (s : SharedStore) : Prop where
  homed : s.store.Homed place
  filled : s.store.files.Filled
  aside : ∀ p ∈ s.aside, ∃ id, p = s.store.directory (trashName id)

namespace Sound

theorem begin (rooted : files.HasPlace root place) (filled : files.Filled) :
    (begin root files).Sound place :=
  ⟨Store.Homed.begin rooted, filled, nofun⟩

theorem tends (h : s.Sound place) (own : ∀ files, e ≠ .called (.disk files)) :
    Store.Tends place s.store (s.step r e).store := by
  cases e with
  | called c => exact h.homed.tends_hold fun files hc => own files (hc ▸ rfl)
  | cleared directory gone =>
    rw [step]
    split
    · rename_i haside
      obtain ⟨id, rfl⟩ := h.aside directory haside
      exact h.homed.tends_prune id gone
    · exact h.homed.tends_refl

theorem step (h : s.Sound place) (writes : ∀ files, e = .called (.disk files) →
    s.store.LeavesHomes place files ∧ files.Filled) : (s.step r e).Sound place := by
  by_cases hdisk : ∃ files, e = .called (.disk files)
  · obtain ⟨files, rfl⟩ := hdisk
    obtain ⟨hleaves, hfilled⟩ := writes files rfl
    refine ⟨h.homed.disk hleaves, hfilled, fun p hp => ?_⟩
    rcases mem_aside_step hp with hp | ⟨c, hc, hp⟩
    · exact h.aside p hp
    · cases hc
      cases hp
  · have hown : ∀ files, e ≠ .called (.disk files) := fun files he => hdisk ⟨files, he⟩
    have htends := h.tends (r := r) hown
    refine ⟨htends.homed, h.filled.shuffles (shuffles_step hown), fun p hp => ?_⟩
    have hhidden : ∃ id, p = s.store.directory (trashName id) := by
      rcases mem_aside_step hp with hp | ⟨c, -, hp⟩
      · exact h.aside p hp
      · exact h.homed.aside_hold p hp
    obtain ⟨id, rfl⟩ := hhidden
    exact ⟨id, by rw [Store.directory, Store.directory, root_step]⟩

theorem run (h : s.Sound place) (respected : s.Respected r place events) :
    (s.run r events).Sound place := by
  induction events generalizing s with
  | nil => exact h
  | cons e rest ih => exact ih (h.step respected.1) respected.2

end Sound

/-! ### Records -/

/-- A record comes from one that was there, or it is that of a new job. -/
theorem mem_jobs_step (h : j' ∈ (s.step r e).store.jobs) :
    (∃ now steady, j' = s.store.newJob now steady) ∨
      ∃ j ∈ s.store.jobs, ∃ c, Job.Step r c j j' := by
  cases e with
  | called c =>
    rw [step, Store.jobs_hold] at h
    rcases Store.mem_jobs_perform h with ⟨now, steady, -, -, hnew⟩ | ⟨j, hj, hstep⟩
    · exact Or.inl ⟨now, steady, hnew⟩
    · exact Or.inr ⟨j, hj, c, hstep⟩
  | cleared directory gone =>
    have hsame : (s.step r (.cleared directory gone)).store.jobs = s.store.jobs := by
      rw [step]
      split <;> rfl
    exact Or.inr ⟨j', hsame ▸ h, .jobs, .same⟩

/-- A job that has ended is left as it is, or it is removed. -/
theorem Sound.find?_step (h : s.Sound place) (there : s.store.find? id = some j)
    (final : j.state.isFinal = true) (later : (s.step r e).store.find? id = some j') : j' = j := by
  obtain ⟨hmem, rfl⟩ := Store.find?_eq_some there
  obtain ⟨hmem', hid⟩ := Store.find?_eq_some later
  rcases mem_jobs_step hmem' with ⟨now, steady, rfl⟩ | ⟨k, hk, c, hstep⟩
  · exact absurd hid.symm (h.homed.numbered.fresh j hmem)
  · obtain rfl : k = j := List.inj_on_of_nodup_map h.homed.numbered.unique hk hmem
      (hstep.id_eq.symm.trans hid)
    exact hstep.eq_of_isFinal final

end SharedStore
end Montage
