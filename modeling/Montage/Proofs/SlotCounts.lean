import Montage.Service.Slots
import Mathlib.Data.List.Nodup

/-! # Counting slots

A slot that no task works on is either free or was handed to somebody in the queue, who will find
it there.  These are the **spare** slots (`Slots.spare`).  Handing slots on does not change their
number; only a task that goes to work takes one, and only a task that leaves its work gives one
back.  Apart from that the operations on slots change nothing but the order in the queue, and what
becomes of the queue is said by its jobs.
-/
namespace Montage

namespace Slots

/-- How many in the queue were handed a slot. -/
def handed (s : Slots) : Nat := s.queue.countP Waiter.granted

/-- Slots that no task works on. -/
def spare (s : Slots) : Nat := s.free + s.handed

/-- The jobs in the queue. -/
def waiters (s : Slots) : List JobId := s.queue.map Waiter.job

variable {s s' : Slots} {id : JobId}

theorem spare_begin (count : Nat) : (begin count).spare = count := rfl

/-! ### Slots that are handed on -/

theorem grantFirst?_eq_some {queue queue' : List Waiter} (h : grantFirst? queue = some queue') :
    queue'.map Waiter.job = queue.map Waiter.job ∧
      queue'.countP Waiter.granted = queue.countP Waiter.granted + 1 := by
  induction queue generalizing queue' with
  | nil => cases h
  | cons w rest ih =>
    rw [grantFirst?] at h
    split at h
    · rename_i hw
      obtain ⟨rest', hrest, rfl⟩ := Option.map_eq_some_iff.mp h
      obtain ⟨hjobs, hcount⟩ := ih hrest
      simp [hjobs, hcount, hw]
    · rename_i hw
      cases h
      simp [hw]

@[simp] theorem waiters_wake (s : Slots) : s.wake.waiters = s.waiters := by
  unfold wake
  split
  · rfl
  · split
    · rename_i hgrant
      exact (grantFirst?_eq_some hgrant).1
    · rfl

@[simp] theorem spare_wake (s : Slots) : s.wake.spare = s.spare := by
  unfold wake
  split
  · rfl
  · rename_i n hfree
    split
    · rename_i hgrant
      have := (grantFirst?_eq_some hgrant).2
      simp only [spare, handed]
      omega
    · rfl

@[simp] theorem waiters_release (s : Slots) : s.release.waiters = s.waiters := waiters_wake _

theorem spare_release (s : Slots) : s.release.spare = s.spare + 1 := by
  rw [release, spare_wake]
  simp only [spare, handed]
  omega

/-! ### Slots that are taken -/

/-- Only with an empty queue a free slot is taken. -/
theorem take?_eq_some (h : s.take? = some s') :
    s.waiters = [] ∧ s'.waiters = [] ∧ s'.spare + 1 = s.spare := by
  unfold take? at h
  split at h
  · rename_i n hfree hqueue
    cases h
    simp [waiters, spare, handed, hfree, hqueue]
  · cases h

@[simp] theorem waiters_enqueue (s : Slots) (id : JobId) :
    (s.enqueue id).waiters = s.waiters ++ [id] := by
  simp [waiters, enqueue]

@[simp] theorem spare_enqueue (s : Slots) (id : JobId) : (s.enqueue id).spare = s.spare := by
  simp [spare, handed, enqueue]

/-! ### Leaving the queue -/

theorem isGranted_iff : s.isGranted id = true ↔ ∃ w ∈ s.queue, w.job = id ∧ w.granted = true := by
  simp [isGranted]

theorem mem_waiters_of_isGranted (h : s.isGranted id = true) : id ∈ s.waiters := by
  obtain ⟨w, hw, rfl, -⟩ := isGranted_iff.mp h
  exact List.mem_map_of_mem hw

@[simp] theorem waiters_without (s : Slots) (id : JobId) :
    (s.without id).waiters = s.waiters.filter (· != id) := by
  simp only [waiters, without, List.filter_map]
  rfl

theorem mem_waiters_without {other : JobId} :
    other ∈ (s.without id).waiters ↔ other ∈ s.waiters ∧ other ≠ id := by
  simp

/-- Who leaves the queue takes the slot along that was handed to him. -/
theorem spare_without (hnodup : s.waiters.Nodup) (id : JobId) :
    (s.without id).spare + (s.isGranted id).toNat = s.spare := by
  have hcount : ∀ queue : List Waiter, (queue.map Waiter.job).Nodup →
      (queue.filter fun w => w.job != id).countP Waiter.granted +
        (queue.any fun w => w.job == id && w.granted).toNat =
      queue.countP Waiter.granted := by
    intro queue hnodup
    induction queue with
    | nil => rfl
    | cons w rest ih =>
      rw [List.map_cons, List.nodup_cons] at hnodup
      have hrest := ih hnodup.2
      by_cases hw : w.job = id
      · -- the rest of the queue does not know the job
        have hgone : ∀ v ∈ rest, v.job ≠ id := fun v hv hid =>
          hnodup.1 (hw ▸ hid ▸ List.mem_map_of_mem hv)
        have hfilter : (rest.filter fun v => v.job != id) = rest :=
          List.filter_eq_self.mpr fun v hv => by simpa using hgone v hv
        have hany : (rest.any fun v => v.job == id && v.granted) = false := by
          simpa using fun v hv hid => absurd hid (hgone v hv)
        cases hgranted : w.granted <;> simp [hw, hgranted, hfilter, hany]
      · simp only [List.filter_cons, List.any_cons, List.countP_cons, hw, bne_iff_ne, ne_eq,
          not_false_eq_true, if_true, Bool.false_and, Bool.false_or,
          (by simpa using hw : (w.job == id) = false)]
        omega
  have := hcount s.queue hnodup
  simp only [spare, handed, without, isGranted] at this ⊢
  omega

@[simp] theorem waiters_resume (s : Slots) (id : JobId) :
    (s.resume id).waiters = s.waiters.filter (· != id) := by
  rw [resume, waiters_wake, waiters_without]

theorem spare_resume (hnodup : s.waiters.Nodup) (hgranted : s.isGranted id = true) :
    (s.resume id).spare + 1 = s.spare := by
  have := spare_without hnodup id
  rw [resume, spare_wake]
  simpa [hgranted] using this

@[simp] theorem waiters_leave (s : Slots) (id : JobId) :
    (s.leave id).waiters = s.waiters.filter (· != id) := by
  unfold leave
  split
  · rw [waiters_release, waiters_without]
  · rw [waiters_without]

/-- A slot that was handed to a job that gives up waiting is spare as before. -/
theorem spare_leave (hnodup : s.waiters.Nodup) : (s.leave id).spare = s.spare := by
  have := spare_without hnodup id
  unfold leave
  split
  · rename_i hgranted
    rw [spare_release]
    simpa [hgranted] using this
  · rename_i hgranted
    simpa [hgranted] using this

/-- A job that is withdrawn from the queue had no slot. -/
@[simp] theorem spare_withdraw (s : Slots) (id : JobId) : (s.withdraw id).spare = s.spare := by
  have hcount : ∀ queue : List Waiter,
      (queue.filter fun w => w.job != id || w.granted).countP Waiter.granted =
        queue.countP Waiter.granted := by
    intro queue
    rw [List.countP_filter]
    refine List.countP_congr fun w _ => ?_
    cases w.granted <;> simp
  simp [spare, handed, withdraw, hcount]

theorem waiters_withdraw_sublist (s : Slots) (id : JobId) :
    (s.withdraw id).waiters.Sublist s.waiters :=
  List.filter_sublist.map _

end Slots
end Montage
