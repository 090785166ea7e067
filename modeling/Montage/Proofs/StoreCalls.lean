import Montage.Job.Store
import Montage.Text.Ascii
import Mathlib.Data.List.Nodup

/-! # Calls of the store of jobs

The store is used by one call after the other, and between the calls others change the files that
it looks at.  A **call** carries the readings of the clocks that it finds; `Store.perform` gives
what it hands out and the store after it, and `Store.run` puts calls one after the other.

Everything that happens to a record is said once (`mem_jobs_perform`): it is the record of a new
job, or it follows from a record that was there by a **step**, which the call names.  Ids are
numbered and never given out twice (`Store.Numbered`), so a record can be followed by its id.
-/
namespace Montage

/-! ### Numbers in hexadecimal digits -/

/-- The number that hexadecimal digits say. -/
def Text.hexValue (cs : List Char) : Nat :=
  cs.foldl (fun n c => n * 16 + (Text.hexDigit? c).getD 0) 0

theorem Text.hexDigit?_digitChar {n : Nat} (h : n < 16) :
    Text.hexDigit? (Nat.digitChar n) = some n := by
  have all : ∀ m ∈ List.range 16, Text.hexDigit? (Nat.digitChar m) = some m := by decide
  exact all n (List.mem_range.mpr h)

theorem Text.hexValue_toDigits (n : Nat) : Text.hexValue (Nat.toDigits 16 n) = n := by
  induction n using Nat.strongRecOn with
  | ind n ih =>
    rw [Nat.toDigits_eq_if (by decide)]
    split
    · rename_i h
      simp [Text.hexValue, Text.hexDigit?_digitChar h]
    · -- the last digit is the remainder, and those before it say the quotient
      rename_i h
      have hvalue := ih (n / 16) (by omega)
      rw [Text.hexValue] at hvalue
      rw [Text.hexValue, List.foldl_append, hvalue, List.foldl_cons, List.foldl_nil,
        Text.hexDigit?_digitChar (Nat.mod_lt _ (by decide)), Option.getD_some]
      omega

theorem Text.hexValue_hex (width n : Nat) : Text.hexValue (Text.hex width n) = n := by
  have hzeros (k : Nat) : (List.replicate k '0').foldl
      (fun n c => n * 16 + (Text.hexDigit? c).getD 0) 0 = 0 := by
    induction k with
    | zero => rfl
    | succ k ih => exact ih
  rw [Text.hexValue, Text.hex, List.foldl_append, hzeros]
  exact Text.hexValue_toDigits n

/-- No two jobs get the same id. -/
theorem jobId_injective : Function.Injective jobId := by
  intro n m h
  rw [← Text.hexValue_hex 32 n, ← Text.hexValue_hex 32 m, String.ofList_injective h]

/-! ### Calls -/

inductive StoreCall where
  | create (now steady : Number)
  | get (id : JobId)
  | jobs
  | transition (id : JobId) (state : JobState) (error stage : Option String) (now : Number)
  | setStage (id : JobId) (stage : String)
  | openOutput (id : JobId)
  | delete (id : JobId)
  | expired (lifetime now : Number)
  | expire (lifetime now : Number)
  /-- Not a call of the store: somebody else changes the files. -/
  | disk (files : FileTree)
  deriving DecidableEq, Repr

/-- The reading of the clock that a call may put into a record. -/
def StoreCall.reading? : StoreCall → Option Number
  | create now _ => some now
  | transition _ _ _ _ now => some now
  | _ => none

namespace Store

/-- Carries out a call: the records that it hands out or its fault, and the store after it. -/
def perform (s : Store) (r : Rounding) : StoreCall → Except StoreFault (List Job) × Store
  | .create now steady =>
    let (answer, s) := s.create r now steady
    (answer.map fun j => [j], s)
  | .get id => ((s.get id).map fun j => [j], s)
  | .jobs => (.ok s.jobs, s)
  | .transition id state error stage now =>
    let (answer, s) := s.transition r id state error stage now
    (answer.map fun j => [j], s)
  | .setStage id stage => (.ok [], s.setStage id stage)
  | .openOutput id => ((s.openOutput id).map fun _ => [], s)
  | .delete id =>
    let (answer, s) := s.delete id
    (answer.map fun _ => [], s)
  | .expired _ _ => (.ok [], s)
  | .expire lifetime now =>
    let (answer, s) := s.expire r lifetime now
    (answer.map fun _ => [], s)
  | .disk files => (.ok [], { s with files })

/-- The store after some calls. -/
def run (s : Store) (r : Rounding) (calls : List StoreCall) : Store :=
  calls.foldl (fun s c => (s.perform r c).2) s

@[simp] theorem run_nil (s : Store) (r : Rounding) : s.run r [] = s := rfl

theorem run_append (s : Store) (r : Rounding) (calls more : List StoreCall) :
    s.run r (calls ++ more) = (s.run r calls).run r more := List.foldl_append ..

theorem run_concat (s : Store) (r : Rounding) (calls : List StoreCall) (c : StoreCall) :
    s.run r (calls ++ [c]) = ((s.run r calls).perform r c).2 := run_append ..

/-! ### Records that go -/

variable {s : Store} {r : Rounding}

/-- A job that is not there cannot be forgotten, so the records that stay are always the others. -/
theorem jobs_detach (id : JobId) :
    (s.detach id).2.jobs = s.jobs.filter fun j => j.id != id := by
  unfold detach
  split
  · rename_i hnone
    refine (List.filter_eq_self.mpr fun j hj => ?_).symm
    simpa using List.find?_eq_none.mp hnone j hj
  · dsimp only
    split
    · split <;> rfl
    · rfl

theorem issued_detach (id : JobId) : (s.detach id).2.issued = s.issued := by
  unfold detach
  split
  · rfl
  · dsimp only
    split
    · split <;> rfl
    · rfl

theorem detachAll_sublist (ids : List JobId) :
    (s.detachAll ids).2.jobs.Sublist s.jobs ∧ (s.detachAll ids).2.issued = s.issued := by
  induction ids generalizing s with
  | nil => exact ⟨List.Sublist.refl _, rfl⟩
  | cons id rest ih =>
    have hjobs : (s.detach id).2.jobs.Sublist s.jobs := by
      rw [jobs_detach]
      exact List.filter_sublist
    have hissued := issued_detach (s := s) id
    obtain ⟨hmore, hmore'⟩ := ih (s := (s.detach id).2)
    rw [detachAll]
    -- a fault ends the list, but the records forgotten before it stay forgotten
    rcases h : s.detach id with ⟨answer, s'⟩
    rw [h] at hjobs hissued hmore hmore'
    cases answer with
    | error f => exact ⟨hjobs, hissued⟩
    | ok trash =>
      dsimp only
      rcases hrest : s'.detachAll rest with ⟨answer, s''⟩
      rw [hrest] at hmore hmore'
      cases answer <;> exact ⟨hmore.trans hjobs, hmore'.trans hissued⟩

theorem delete_sublist (id : JobId) :
    (s.delete id).2.jobs.Sublist s.jobs ∧ (s.delete id).2.issued = s.issued := by
  have hjobs : (s.detach id).2.jobs.Sublist s.jobs := by
    rw [jobs_detach]
    exact List.filter_sublist
  have hissued := issued_detach (s := s) id
  rw [delete]
  rcases h : s.detach id with ⟨answer, s'⟩
  rw [h] at hjobs hissued
  cases answer <;> exact ⟨hjobs, hissued⟩

/-- Going through jobs detaches those that are too old, in their order. -/
theorem detachExpired_eq {lifetime now : Number} (ids : List JobId) {jobs : List Job}
    (hids : (jobs.filter (hasExpired r lifetime now)).map Job.id = ids) :
    s.detachExpired r lifetime now jobs =
      ((s.detachAll ids).1.map fun trash => (ids, trash), (s.detachAll ids).2) := by
  induction jobs generalizing s ids with
  | nil =>
    subst hids
    rfl
  | cons j rest ih =>
    rw [detachExpired]
    by_cases hj : hasExpired r lifetime now j = true
    · rw [List.filter_cons_of_pos hj, List.map_cons] at hids
      subst hids
      rw [if_pos hj, detachAll]
      rcases s.detach j.id with ⟨_ | moved, s₁⟩
      · rfl
      · simp only [ih _ rfl]
        rcases s₁.detachAll ((rest.filter (hasExpired r lifetime now)).map Job.id) with ⟨_ | more, s₂⟩ <;> rfl
    · rw [List.filter_cons_of_neg hj] at hids
      rw [if_neg hj]
      exact ih ids hids

/-- **A sweep removes the jobs that are listed as too old**, though it finds them by itself. -/
theorem expire_of_ok {lifetime now : Number} {trash : List Path} {s' : Store}
    (h : s.detachAll (s.expired r lifetime now) = (.ok trash, s')) :
    s.expire r lifetime now = (.ok (s.expired r lifetime now), s'.clear trash) := by
  rw [expire, detachExpired_eq (s.expired r lifetime now) rfl, h]
  rfl

theorem expire_of_error {lifetime now : Number} {f : StoreFault} {s' : Store}
    (h : s.detachAll (s.expired r lifetime now) = (.error f, s')) :
    s.expire r lifetime now = (.error f, s') := by
  rw [expire, detachExpired_eq (s.expired r lifetime now) rfl, h]
  rfl

theorem expire_sublist (lifetime now : Number) :
    (s.expire r lifetime now).2.jobs.Sublist s.jobs ∧
      (s.expire r lifetime now).2.issued = s.issued := by
  have hall := detachAll_sublist (s := s) (s.expired r lifetime now)
  rcases h : s.detachAll (s.expired r lifetime now) with ⟨_ | trash, s'⟩ <;> rw [h] at hall
  · rw [expire_of_error h]
    exact hall
  · rw [expire_of_ok h]
    exact hall

/-! ### Records that change -/

/-- The record of the next job. -/
def newJob (s : Store) (now steady : Number) : Job :=
  Job.fresh (jobId (s.issued + 1)) (s.directory (jobId (s.issued + 1))) now steady

theorem mem_modify {id : JobId} {f : Job → Job} {j' : Job} (h : j' ∈ (s.modify id f).jobs) :
    ∃ j ∈ s.jobs, j' = if j.id = id then f j else j := by
  obtain ⟨j, hj, rfl⟩ := List.mem_map.mp h
  exact ⟨j, hj, by simp only [beq_iff_eq]⟩

theorem ids_modify {id : JobId} {f : Job → Job} (hf : ∀ j, j.id = id → (f j).id = id) :
    (s.modify id f).jobs.map Job.id = s.jobs.map Job.id := by
  simp only [modify, List.map_map]
  refine List.map_congr_left fun j _ => ?_
  by_cases hj : j.id = id
  · simp [hj, hf j hj]
  · simp [hj]

theorem find?_eq_some {id : JobId} {j : Job} (h : s.find? id = some j) :
    j ∈ s.jobs ∧ j.id = id := by
  refine ⟨List.mem_of_find?_eq_some h, ?_⟩
  simpa using List.find?_some h

/-- A new record is added only if its directory can be made and the time has a date. -/
theorem create_cases (now steady : Number) :
    (∃ f, s.create r now steady = (.error (.files f), { s with issued := s.issued + 1 })) ∨
    (∃ files f, s.create r now steady =
      (.error (.clock f), { s with issued := s.issued + 1, files })) ∨
    ∃ files, Timestamp.check r now = .ok () ∧ s.create r now steady =
      (.ok (s.newJob now steady),
        { s with issued := s.issued + 1, files, jobs := s.jobs ++ [s.newJob now steady] }) := by
  simp only [create]
  split
  · exact Or.inl ⟨_, rfl⟩
  · split
    · exact Or.inr (Or.inl ⟨_, _, rfl⟩)
    · rename_i hdate
      exact Or.inr (Or.inr ⟨_, hdate, rfl⟩)

/-- A move that is refused leaves the store as it was. -/
theorem transition_cases (id : JobId) (state : JobState) (error stage : Option String)
    (now : Number) :
    (s.find? id = none ∧ s.transition r id state error stage now = (.error (.notFound id), s)) ∨
    ∃ j, s.find? id = some j ∧
      (j.state.canMoveTo state = false ∧
          s.transition r id state error stage now = (.error (.notForward id j.state state), s) ∨
        j.state.canMoveTo state = true ∧
          ((Timestamp.check r now = .ok () ∧ s.transition r id state error stage now =
              (.ok (j.move state error stage (s.outputSize? j) now),
                s.modify id fun _ => j.move state error stage (s.outputSize? j) now)) ∨
            ∃ f, Timestamp.check r now = .error f ∧ s.transition r id state error stage now =
              (.error (.clock f), s.modify id fun _ => j.enter state stage))) := by
  unfold transition
  cases hfind : s.find? id with
  | none => exact Or.inl ⟨rfl, rfl⟩
  | some j =>
    refine Or.inr ⟨j, rfl, ?_⟩
    cases hmove : j.state.canMoveTo state with
    | false => exact Or.inl ⟨rfl, by simp only [hmove, Bool.false_eq_true, if_false]⟩
    | true =>
      refine Or.inr ⟨rfl, ?_⟩
      cases hdate : Timestamp.check r now with
      | error f => exact Or.inr ⟨f, rfl, by simp only [hmove, if_true]⟩
      | ok u => exact Or.inl ⟨rfl, by simp only [hmove, if_true]⟩

end Store

/-! ### Steps -/

theorem JobState.not_isFinal_of_canMoveTo {a b : JobState} (h : a.canMoveTo b = true) :
    a.isFinal = false := by
  cases a <;> simp_all [JobState.canMoveTo, JobState.isFinal]

/-- What a call makes of the record of a job. -/
inductive Job.Step (r : Rounding) (c : StoreCall) (j : Job) : Job → Prop where
  | same : Step r c j j
  | note (stage : String) (call : c = .setStage j.id stage) : Step r c j (j.note stage)
  | move (state : JobState) (error stage : Option String) (size : Option Nat) (now : Number)
      (call : c = .transition j.id state error stage now)
      (forward : j.state.canMoveTo state = true) (date : Timestamp.check r now = .ok ()) :
      Step r c j (j.move state error stage size now)
  /-- The time has no date, and the move is left half done. -/
  | enter (state : JobState) (error stage : Option String) (now : Number)
      (call : c = .transition j.id state error stage now)
      (forward : j.state.canMoveTo state = true) (fault : Timestamp.ClockFault)
      (noDate : Timestamp.check r now = .error fault) :
      Step r c j (j.enter state stage)

theorem Job.Step.id_eq {r : Rounding} {c : StoreCall} {j j' : Job} (h : Job.Step r c j j') :
    j'.id = j.id := by
  cases h with
  | same | move | enter => rfl
  | note stage _ =>
    unfold Job.note
    split <;> rfl

theorem Job.Step.directory_eq {r : Rounding} {c : StoreCall} {j j' : Job} (h : Job.Step r c j j') :
    j'.directory = j.directory := by
  cases h with
  | same | move | enter => rfl
  | note stage _ =>
    unfold Job.note
    split <;> rfl

/-- A job that has ended stays as it is. -/
theorem Job.Step.eq_of_isFinal {r : Rounding} {c : StoreCall} {j j' : Job} (h : Job.Step r c j j')
    (final : j.state.isFinal = true) : j' = j := by
  cases h with
  | same => rfl
  | note stage _ => rw [Job.note, if_pos final]
  | move state error stage size now _ forward _ | enter state error stage now _ forward _ _ =>
    rw [JobState.not_isFinal_of_canMoveTo forward] at final
    cases final

namespace Store
variable {s : Store} {r : Rounding}

/-- **Every record in the store after a call is that of a new job or comes from a record that was
there by a step of the call.** -/
theorem mem_jobs_perform {c : StoreCall} {j' : Job} (h : j' ∈ (s.perform r c).2.jobs) :
    (∃ now steady, c = .create now steady ∧ Timestamp.check r now = .ok () ∧
      j' = s.newJob now steady) ∨
    ∃ j ∈ s.jobs, Job.Step r c j j' := by
  have kept (h : j' ∈ s.jobs) : ∃ j ∈ s.jobs, Job.Step r c j j' := ⟨j', h, .same⟩
  cases c with
  | get id | jobs | openOutput id | expired lifetime now | disk files => exact Or.inr (kept h)
  | delete id => exact Or.inr (kept ((delete_sublist id).1.subset h))
  | expire lifetime now => exact Or.inr (kept ((expire_sublist lifetime now).1.subset h))
  | create now steady =>
    simp only [perform] at h
    rcases create_cases (s := s) (r := r) now steady with
      ⟨f, heq⟩ | ⟨files, f, heq⟩ | ⟨files, hdate, heq⟩ <;> rw [heq] at h
    · exact Or.inr (kept h)
    · exact Or.inr (kept h)
    · rcases List.mem_append.mp h with h | h
      · exact Or.inr (kept h)
      · exact Or.inl ⟨now, steady, rfl, hdate, List.mem_singleton.mp h⟩
  | setStage id stage =>
    obtain ⟨j, hj, rfl⟩ := mem_modify h
    refine Or.inr ⟨j, hj, ?_⟩
    split
    · rename_i hid
      exact .note stage (by rw [hid])
    · exact .same
  | transition id state error stage now =>
    simp only [perform] at h
    rcases transition_cases (s := s) (r := r) id state error stage now with
      ⟨-, heq⟩ | ⟨j, hfind, ⟨-, heq⟩ | ⟨hmove, ⟨hdate, heq⟩ | ⟨f, hdate, heq⟩⟩⟩
    · rw [heq] at h
      exact Or.inr (kept h)
    · rw [heq] at h
      exact Or.inr (kept h)
    · rw [heq] at h
      -- only records with the id change, and they become what is made of the one that was found
      obtain ⟨k, hk, rfl⟩ := mem_modify h
      obtain ⟨hj, hid⟩ := find?_eq_some hfind
      split
      · exact Or.inr ⟨j, hj, .move state error stage _ now (by rw [hid]) hmove hdate⟩
      · exact Or.inr ⟨k, hk, .same⟩
    · rw [heq] at h
      obtain ⟨k, hk, rfl⟩ := mem_modify h
      obtain ⟨hj, hid⟩ := find?_eq_some hfind
      split
      · exact Or.inr ⟨j, hj, .enter state error stage now (by rw [hid]) hmove f hdate⟩
      · exact Or.inr ⟨k, hk, .same⟩

/-! ### Ids -/

/-- Ids of the records are among those that were given out, and each record has its own. -/
structure Numbered (s : Store) : Prop where
  issued : ∀ j ∈ s.jobs, ∃ n ≤ s.issued, j.id = jobId n
  unique : (s.jobs.map Job.id).Nodup

theorem numbered_begin (root : Path) (files : FileTree) : (Store.begin root files).Numbered where
  issued := fun _ h => absurd h List.not_mem_nil
  unique := List.nodup_nil

theorem Numbered.fresh (h : s.Numbered) : ∀ j ∈ s.jobs, j.id ≠ jobId (s.issued + 1) := by
  intro j hj hid
  obtain ⟨n, hn, hid'⟩ := h.issued j hj
  have := jobId_injective (hid'.symm.trans hid)
  omega

theorem ids_setStage (id : JobId) (stage : String) :
    (s.setStage id stage).jobs.map Job.id = s.jobs.map Job.id := by
  refine ids_modify fun j hj => ?_
  unfold Job.note
  split <;> exact hj

theorem ids_transition (id : JobId) (state : JobState) (error stage : Option String)
    (now : Number) :
    (s.transition r id state error stage now).2.jobs.map Job.id = s.jobs.map Job.id := by
  rcases transition_cases (s := s) (r := r) id state error stage now with
    ⟨-, heq⟩ | ⟨j, hfind, ⟨-, heq⟩ | ⟨-, ⟨-, heq⟩ | ⟨f, -, heq⟩⟩⟩ <;> rw [heq]
  · exact ids_modify fun _ _ => (find?_eq_some hfind).2
  · exact ids_modify fun _ _ => (find?_eq_some hfind).2

/-- The ids after a call are some of those before it, and perhaps the next one. -/
theorem ids_perform (s : Store) (r : Rounding) (c : StoreCall) :
    ((s.perform r c).2.issued = s.issued ∧
      ((s.perform r c).2.jobs.map Job.id).Sublist (s.jobs.map Job.id)) ∨
    ((s.perform r c).2.issued = s.issued + 1 ∧
      ((s.perform r c).2.jobs.map Job.id).Sublist
        (s.jobs.map Job.id ++ [jobId (s.issued + 1)])) := by
  cases c with
  | get id | jobs | openOutput id | expired lifetime now | disk files =>
    exact Or.inl ⟨rfl, List.Sublist.refl _⟩
  | delete id => exact Or.inl ⟨(delete_sublist id).2, (delete_sublist id).1.map _⟩
  | expire lifetime now =>
    exact Or.inl ⟨(expire_sublist lifetime now).2, (expire_sublist lifetime now).1.map _⟩
  | create now steady =>
    refine Or.inr ?_
    simp only [perform]
    rcases create_cases (s := s) (r := r) now steady with
      ⟨f, heq⟩ | ⟨files, f, heq⟩ | ⟨files, -, heq⟩ <;> rw [heq]
    · exact ⟨rfl, List.sublist_append_left ..⟩
    · exact ⟨rfl, List.sublist_append_left ..⟩
    · refine ⟨rfl, ?_⟩
      rw [List.map_append]
      exact List.Sublist.refl _
  | setStage id stage =>
    refine Or.inl ⟨rfl, ?_⟩
    rw [perform, ids_setStage]
  | transition id state error stage now =>
    refine Or.inl ⟨?_, ?_⟩
    · rcases transition_cases (s := s) (r := r) id state error stage now with
        ⟨-, heq⟩ | ⟨j, -, ⟨-, heq⟩ | ⟨-, ⟨-, heq⟩ | ⟨f, -, heq⟩⟩⟩ <;> rw [perform, heq] <;> rfl
    · rw [perform, ids_transition]

theorem Numbered.perform (h : s.Numbered) (c : StoreCall) : (s.perform r c).2.Numbered := by
  have hissued : ∀ id ∈ s.jobs.map Job.id, ∃ n ≤ s.issued, id = jobId n := by
    intro id hid
    obtain ⟨j, hj, rfl⟩ := List.mem_map.mp hid
    exact h.issued j hj
  rcases ids_perform s r c with ⟨hn, hids⟩ | ⟨hn, hids⟩
  · refine ⟨fun j hj => ?_, h.unique.sublist hids⟩
    rw [hn]
    exact hissued _ (hids.subset (List.mem_map_of_mem hj))
  · refine ⟨fun j hj => ?_, List.Nodup.sublist hids ?_⟩
    · rw [hn]
      rcases List.mem_append.mp (hids.subset (List.mem_map_of_mem hj)) with hid | hid
      · obtain ⟨n, hle, hid⟩ := hissued _ hid
        exact ⟨n, by omega, hid⟩
      · exact ⟨s.issued + 1, by omega, List.mem_singleton.mp hid⟩
    · refine List.nodup_append'.mpr ⟨h.unique, List.nodup_singleton _, fun id hid hid' => ?_⟩
      obtain ⟨j, hj, rfl⟩ := List.mem_map.mp hid
      exact h.fresh j hj (List.mem_singleton.mp hid')

theorem Numbered.run (h : s.Numbered) (calls : List StoreCall) : (s.run r calls).Numbered := by
  induction calls generalizing s with
  | nil => exact h
  | cons c rest ih => exact ih (h.perform c)

theorem issued_le_run (calls : List StoreCall) : s.issued ≤ (s.run r calls).issued := by
  induction calls generalizing s with
  | nil => exact Nat.le_refl _
  | cons c rest ih =>
    refine Nat.le_trans ?_ (ih (s := (s.perform r c).2))
    rcases ids_perform s r c with ⟨hn, -⟩ | ⟨hn, -⟩ <;> omega

/-- A job is found by its id. -/
theorem Numbered.find?_eq_some_iff (h : s.Numbered) {id : JobId} {j : Job} :
    s.find? id = some j ↔ j ∈ s.jobs ∧ j.id = id := by
  refine ⟨find?_eq_some, ?_⟩
  rintro ⟨hj, rfl⟩
  cases hfind : s.find? j.id with
  | none => exact absurd (List.find?_eq_none.mp hfind j hj) (by simp)
  | some k =>
    obtain ⟨hk, hid⟩ := find?_eq_some hfind
    rw [List.inj_on_of_nodup_map h.unique hk hj hid]

/-- **What a call hands out are records that the store then holds.** -/
theorem mem_jobs_of_perform {c : StoreCall} {js : List Job} (h : (s.perform r c).1 = .ok js)
    {j : Job} (hj : j ∈ js) : j ∈ (s.perform r c).2.jobs := by
  -- a call hands out one record, or all, or none
  have one {x : Except StoreFault Job} {s' : Store} (hx : x.map (fun j => [j]) = .ok js)
      (hmem : ∀ k, x = .ok k → k ∈ s'.jobs) : j ∈ s'.jobs := by
    cases x with
    | error f => cases hx
    | ok k =>
      cases hx
      rw [List.mem_singleton.mp hj]
      exact hmem k rfl
  have none {α : Type} {x : Except StoreFault α} (hx : x.map (fun _ => ([] : List Job)) = .ok js) :
      False := by
    cases x with
    | error f => cases hx
    | ok a => cases hx; cases hj
  cases c with
  | jobs => cases h; exact hj
  | setStage id stage => cases h; cases hj
  | expired lifetime now => cases h; cases hj
  | disk files => cases h; cases hj
  | openOutput id => exact (none h).elim
  | delete id => exact (none h).elim
  | expire lifetime now => exact (none h).elim
  | get id =>
    refine one h fun k hk => ?_
    unfold get at hk
    split at hk
    · rename_i hfind
      cases hk
      exact (find?_eq_some hfind).1
    · cases hk
  | create now steady =>
    refine one (x := (s.create r now steady).1) h fun k hk => ?_
    simp only [perform]
    rcases create_cases (s := s) (r := r) now steady with
      ⟨f, heq⟩ | ⟨files, f, heq⟩ | ⟨files, -, heq⟩ <;> rw [heq] at hk ⊢ <;> cases hk
    exact List.mem_append_right _ (List.mem_singleton.mpr rfl)
  | transition id state error stage now =>
    refine one (x := (s.transition r id state error stage now).1) h fun k hk => ?_
    simp only [perform]
    rcases transition_cases (s := s) (r := r) id state error stage now with
      ⟨-, heq⟩ | ⟨k', hfind, ⟨-, heq⟩ | ⟨-, ⟨-, heq⟩ | ⟨f, -, heq⟩⟩⟩ <;>
      rw [heq] at hk ⊢ <;> cases hk
    obtain ⟨hk, hid⟩ := find?_eq_some hfind
    exact List.mem_map.mpr ⟨k', hk, by simp [hid]⟩

end Store
end Montage
