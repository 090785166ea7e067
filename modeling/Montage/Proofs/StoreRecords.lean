import Montage.Proofs.StoreCalls

/-! # Records by their ids

What an operation of the store does to the record that an id leads to, for the id that the
operation is about and for all others.  Whoever follows one job through the operations needs
nothing else of them.
-/
namespace Montage

/-- Changing what has a key leaves alone what has another one. -/
theorem find?_changeAt {α : Type} (key : α → JobId) {f : α → α} {id : JobId}
    (hf : ∀ a, key a = id → key (f a) = id) (l : List α) (other : JobId) :
    (l.map fun a => if key a == id then f a else a).find? (fun a => key a == other) =
      (l.find? fun a => key a == other).map fun a => if other = id then f a else a := by
  induction l with
  | nil => rfl
  | cons a rest ih =>
    by_cases ha : key a = id
    · by_cases hother : other = id
      · subst hother
        simp [ha, hf a ha]
      · rw [List.map_cons, if_pos (by simpa using ha),
          List.find?_cons_of_neg (by simpa [hf a ha] using Ne.symm hother), ih,
          List.find?_cons_of_neg (by simpa [ha] using Ne.symm hother)]
    · by_cases hother : key a = other
      · subst hother
        simp [ha]
      · rw [List.map_cons, if_neg (by simpa using ha),
          List.find?_cons_of_neg (by simpa using hother), ih,
          List.find?_cons_of_neg (by simpa using hother)]

theorem Job.id_note (j : Job) (stage : String) : (j.note stage).id = j.id := by
  unfold Job.note
  split <;> rfl

namespace Store
variable {s : Store} {r : Rounding} {id other : JobId}

theorem find?_modify {f : Job → Job} (hf : ∀ j, j.id = id → (f j).id = id) (other : JobId) :
    (s.modify id f).find? other = (s.find? other).map fun j => if other = id then f j else j :=
  find?_changeAt Job.id hf s.jobs other

theorem find?_setStage (stage : String) :
    (s.setStage id stage).find? other =
      (s.find? other).map fun j => if other = id then j.note stage else j :=
  find?_modify (fun j hj => by rw [Job.id_note, hj]) other

/-! ### Moving on -/

/-- What a move makes of a record; without a date it is left half done. -/
def moved (s : Store) (r : Rounding) (state : JobState) (error stage : Option String)
    (now : Number) (j : Job) : Job :=
  if j.state.canMoveTo state then
    match Timestamp.check r now with
    | .ok () => j.move state error stage (s.outputSize? j) now
    | .error _ => j.enter state stage
  else j

variable {state : JobState} {error stage : Option String} {now : Number}

theorem id_moved (j : Job) : (s.moved r state error stage now j).id = j.id := by
  unfold moved
  repeat' split
  all_goals rfl

theorem directory_moved (j : Job) :
    (s.moved r state error stage now j).directory = j.directory := by
  unfold moved
  repeat' split
  all_goals rfl

theorem since_moved (j : Job) : (s.moved r state error stage now j).since = j.since := by
  unfold moved
  repeat' split
  all_goals rfl

/-- With a date or without, the state is that of the move, unless the move is refused. -/
theorem state_moved (j : Job) : (s.moved r state error stage now j).state =
    if j.state.canMoveTo state then state else j.state := by
  unfold moved
  repeat' split
  all_goals rfl

theorem find?_transition (s : Store) (r : Rounding) (id : JobId) (state : JobState)
    (error stage : Option String) (now : Number) (other : JobId) :
    (s.transition r id state error stage now).2.find? other =
      (s.find? other).map fun j =>
        if other = id then s.moved r state error stage now j else j := by
  rcases transition_cases (s := s) (r := r) id state error stage now with
    ⟨hnone, heq⟩ | ⟨j, hfind, ⟨hmove, heq⟩ | ⟨hmove, ⟨hdate, heq⟩ | ⟨f, hdate, heq⟩⟩⟩ <;> rw [heq]
  · by_cases hother : other = id
    · simp [hother, hnone]
    · simp [hother]
  · by_cases hother : other = id
    · simp [hother, hfind, moved, hmove]
    · simp [hother]
  · refine (find?_modify (by exact fun _ _ => (find?_eq_some hfind).2) other).trans ?_
    by_cases hother : other = id
    · simp [hother, hfind, moved, hmove, hdate]
    · simp [hother]
  · refine (find?_modify (by exact fun _ _ => (find?_eq_some hfind).2) other).trans ?_
    by_cases hother : other = id
    · simp [hother, hfind, moved, hmove, hdate]
    · simp [hother]

theorem find?_of_transition_ok {j : Job} {s' : Store}
    (h : s.transition r id state error stage now = (.ok j, s')) : s'.find? id = some j := by
  have hfind := find?_transition s r id state error stage now id
  rw [h] at hfind
  rcases transition_cases (s := s) (r := r) id state error stage now with
    ⟨hnone, heq⟩ | ⟨k, hk, ⟨hmove, heq⟩ | ⟨hmove, ⟨hdate, heq⟩ | ⟨f, hdate, heq⟩⟩⟩ <;>
    cases heq.symm.trans h
  rw [hfind, hk]
  simp [moved, hmove, hdate]

/-- Only a job that is not there is not found. -/
theorem find?_of_transition_notFound {missing : JobId} {s' : Store}
    (h : s.transition r id state error stage now = (.error (.notFound missing), s')) :
    s'.find? id = none := by
  rcases transition_cases (s := s) (r := r) id state error stage now with
    ⟨hnone, heq⟩ | ⟨k, hk, ⟨hmove, heq⟩ | ⟨hmove, ⟨hdate, heq⟩ | ⟨f, hdate, heq⟩⟩⟩ <;>
    cases heq.symm.trans h
  exact hnone

/-- A transition is about records alone. -/
theorem transition_frame :
    (s.transition r id state error stage now).2.root = s.root ∧
      (s.transition r id state error stage now).2.issued = s.issued ∧
      (s.transition r id state error stage now).2.files = s.files := by
  rcases transition_cases (s := s) (r := r) id state error stage now with
    ⟨-, heq⟩ | ⟨k, -, ⟨-, heq⟩ | ⟨-, ⟨-, heq⟩ | ⟨f, -, heq⟩⟩⟩ <;> rw [heq] <;>
    exact ⟨rfl, rfl, rfl⟩

theorem Numbered.transition (h : s.Numbered) (id : JobId) (state : JobState)
    (error stage : Option String) (now : Number) :
    (s.transition r id state error stage now).2.Numbered :=
  h.perform (.transition id state error stage now)

theorem find?_transition_of_ne (hother : other ≠ id) :
    (s.transition r id state error stage now).2.find? other = s.find? other := by
  simp [find?_transition, hother]

/-- A job that is asked to end has ended then. -/
theorem isFinal_moved (hstate : state.isFinal = true) (j : Job) :
    (s.moved r state error stage now j).state.isFinal = true := by
  rw [state_moved]
  split
  · exact hstate
  · rename_i hmove
    cases hj : j.state <;> cases hs : state <;>
      simp_all [JobState.canMoveTo, JobState.isFinal, JobState.rank]

/-- A job that has ended stays as it is. -/
theorem moved_of_isFinal {j : Job} (h : j.state.isFinal = true) :
    s.moved r state error stage now j = j := by
  simp [moved, JobState.canMoveTo, h]

/-! ### Removing -/

theorem find?_detach (s : Store) (id other : JobId) :
    (s.detach id).2.find? other = if other = id then none else s.find? other := by
  simp only [find?, jobs_detach, List.find?_filter]
  split
  · rename_i h
    subst h
    simp
  · rename_i h
    congr 1
    funext j
    by_cases hj : j.id = other <;> simp [hj, h]

theorem root_detach (id : JobId) : (s.detach id).2.root = s.root := by
  unfold detach
  split
  · rfl
  · dsimp only
    split
    · split <;> rfl
    · rfl

/-- Only a job that is not there cannot be forgotten; apart from that the move of its directory can
fail. -/
theorem detach_cases (s : Store) (id : JobId) :
    (s.find? id = none ∧ s.detach id = (.error (.notFound id), s)) ∨
    ∃ j, s.find? id = some j ∧
      ((s.files.exists? j.directory = false ∧ s.detach id =
          (.ok none, { s with jobs := s.jobs.filter fun k => k.id != id })) ∨
        s.files.exists? j.directory = true ∧
          ((∃ f, s.files.rename j.directory (trashOf j.directory) = .error f ∧ s.detach id =
              (.error (.files f), { s with jobs := s.jobs.filter fun k => k.id != id })) ∨
            ∃ files, s.files.rename j.directory (trashOf j.directory) = .ok files ∧ s.detach id =
              (.ok (some (trashOf j.directory)),
                { s with jobs := s.jobs.filter fun k => k.id != id, files }))) := by
  unfold detach
  cases hfind : s.find? id with
  | none => exact Or.inl ⟨rfl, rfl⟩
  | some j =>
    refine Or.inr ⟨j, rfl, ?_⟩
    cases hthere : s.files.exists? j.directory with
    | false => exact Or.inl ⟨rfl, by simp [hthere]⟩
    | true =>
      refine Or.inr ⟨rfl, ?_⟩
      cases hmove : s.files.rename j.directory (trashOf j.directory) with
      | error f => exact Or.inl ⟨f, rfl, by simp [hthere, hmove]⟩
      | ok files => exact Or.inr ⟨files, rfl, by simp [hthere, hmove]⟩

theorem detachAll_one {moved : Option Path} {s' : Store} (h : s.detach id = (.ok moved, s')) :
    s.detachAll [id] = (.ok moved.toList, s') := by
  simp [detachAll, h]

/-- **What every detaching preserves is preserved by detaching many jobs.** -/
theorem detachAll_preserves {P : Store → Prop} (ids : List JobId)
    (hdetach : ∀ s, ∀ id ∈ ids, P s → P (s.detach id).2) (hs : P s) : P (s.detachAll ids).2 := by
  induction ids generalizing s with
  | nil => exact hs
  | cons first rest ih =>
    have hfirst := hdetach s first List.mem_cons_self hs
    have hrest := ih (fun s id hid => hdetach s id (List.mem_cons_of_mem first hid)) hfirst
    rw [detachAll]
    rcases h : s.detach first with ⟨answer, s'⟩
    rw [h] at hfirst hrest
    cases answer with
    | error f => exact hfirst
    | ok trash =>
      dsimp only
      rcases h' : s'.detachAll rest with ⟨answer, s''⟩
      rw [h'] at hrest
      cases answer <;> exact hrest

theorem root_detachAll (ids : List JobId) : (s.detachAll ids).2.root = s.root :=
  detachAll_preserves (P := fun t => t.root = s.root) ids
    (fun _ id _ h => (root_detach id).trans h) rfl

theorem root_perform (s : Store) (r : Rounding) (c : StoreCall) :
    (s.perform r c).2.root = s.root := by
  cases c with
  | get id | jobs | openOutput id | expired lifetime now | disk files | setStage id stage => rfl
  | transition id state error stage now => exact transition_frame.1
  | create now steady =>
    rw [perform]
    rcases create_cases (s := s) (r := r) now steady with
      ⟨f, heq⟩ | ⟨files, f, heq⟩ | ⟨files, -, heq⟩ <;> rw [heq]
  | delete id =>
    have hroot := root_detach (s := s) id
    rw [perform, delete]
    rcases hdetach : s.detach id with ⟨answer, s'⟩
    rw [hdetach] at hroot
    cases answer <;> exact hroot
  | expire lifetime now =>
    have hroot := root_detachAll (s := s) (s.expired r lifetime now)
    rw [perform]
    rcases hdetach : s.detachAll (s.expired r lifetime now) with ⟨_ | trash, s'⟩ <;> rw [hdetach] at hroot
    · rw [expire_of_error hdetach]
      exact hroot
    · rw [expire_of_ok hdetach]
      exact hroot

/-- Detaching jobs leaves the others. -/
theorem find?_detachAll_of_not_mem {ids : List JobId} (hid : id ∉ ids) :
    (s.detachAll ids).2.find? id = s.find? id := by
  refine detachAll_preserves (P := fun t => t.find? id = s.find? id) ids (fun t first hfirst h => ?_)
    rfl
  rw [find?_detach, if_neg (ne_of_mem_of_not_mem hfirst hid).symm, h]

/-- Only jobs that are there can be detached. -/
theorem isSome_find?_of_detachAll_ok {ids : List JobId} {trash : List Path} {s' : Store}
    (h : s.detachAll ids = (.ok trash, s')) (hid : id ∈ ids) : (s.find? id).isSome = true := by
  induction ids generalizing s s' trash with
  | nil => cases hid
  | cons first rest ih =>
    rw [detachAll] at h
    rcases hfirst : s.detach first with ⟨answer, s₁⟩
    rw [hfirst] at h
    cases answer with
    | error f => cases h
    | ok moved =>
      dsimp only at h
      rcases hrest : s₁.detachAll rest with ⟨answer, s₂⟩
      rw [hrest] at h
      cases answer with
      | error f => cases h
      | ok more =>
        have hkept := find?_detach s first id
        rw [hfirst] at hkept
        rcases List.mem_cons.mp hid with rfl | hmore
        · rcases detach_cases s id with ⟨-, heq⟩ | ⟨j, hj, -⟩
          · cases heq.symm.trans hfirst
          · rw [hj]
            rfl
        · have hthere := ih hrest hmore
          dsimp only at hkept
          rw [hkept] at hthere
          split at hthere
          · cases hthere
          · exact hthere

/-- Jobs that could be detached are not there any more. -/
theorem find?_of_detachAll_ok {ids : List JobId} {trash : List Path} {s' : Store}
    (h : s.detachAll ids = (.ok trash, s')) (hid : id ∈ ids) : s'.find? id = none := by
  induction ids generalizing s trash with
  | nil => cases hid
  | cons first rest ih =>
    rw [detachAll] at h
    rcases hfirst : s.detach first with ⟨answer, s₁⟩
    rw [hfirst] at h
    cases answer with
    | error f => cases h
    | ok moved =>
      dsimp only at h
      rcases hrest : s₁.detachAll rest with ⟨answer, s₂⟩
      rw [hrest] at h
      cases answer with
      | error f => cases h
      | ok more =>
        cases h
        by_cases hmore : id ∈ rest
        · exact ih hrest hmore
        · obtain rfl : id = first := (List.mem_cons.mp hid).resolve_right hmore
          have hgone := find?_detach s id id
          have hkept := find?_detachAll_of_not_mem (s := s₁) hmore
          rw [hfirst, if_pos rfl] at hgone
          rw [hrest] at hkept
          exact hkept.trans hgone

/-- The jobs that are too old are there, and each is named once. -/
theorem Numbered.expired_there {store : Store} (h : store.Numbered) (r : Rounding)
    (lifetime time : Number) : (store.expired r lifetime time).Nodup ∧
      ∀ i ∈ store.expired r lifetime time, (store.find? i).isSome = true := by
  refine ⟨h.unique.sublist (List.filter_sublist.map _), fun i hi => ?_⟩
  obtain ⟨k, hk, rfl⟩ := List.mem_map.mp hi
  rw [h.find?_eq_some_iff.mpr ⟨(List.mem_filter.mp hk).1, rfl⟩]
  rfl

/-- Of jobs that are there only the directory can make trouble. -/
theorem exists_files_of_detachAll_error {ids : List JobId} {f : StoreFault} {s' : Store}
    (h : s.detachAll ids = (.error f, s')) (hnodup : ids.Nodup)
    (there : ∀ id ∈ ids, (s.find? id).isSome = true) : ∃ g, f = .files g := by
  induction ids generalizing s with
  | nil => cases h
  | cons first rest ih =>
    obtain ⟨hnew, hrest⟩ := List.nodup_cons.mp hnodup
    rw [detachAll] at h
    rcases hfirst : s.detach first with ⟨answer, s₁⟩
    rw [hfirst] at h
    cases answer with
    | error g =>
      cases h
      rcases detach_cases s first with
        ⟨hnone, -⟩ | ⟨j, -, ⟨-, heq⟩ | ⟨-, ⟨g, -, heq⟩ | ⟨files, -, heq⟩⟩⟩
      · have := there first List.mem_cons_self
        rw [hnone] at this
        cases this
      all_goals cases hfirst.symm.trans heq
      exact ⟨g, rfl⟩
    | ok moved =>
      dsimp only at h
      rcases hmore : s₁.detachAll rest with ⟨answer, s₂⟩
      rw [hmore] at h
      cases answer with
      | ok more => cases h
      | error g =>
        cases h
        refine ih hmore hrest fun id hid => ?_
        have hkept := find?_detach s first id
        rw [hfirst, if_neg (ne_of_mem_of_not_mem hid hnew)] at hkept
        exact hkept ▸ there id (List.mem_cons_of_mem first hid)

theorem find?_append (s : Store) (j : Job) (issued : Nat) (files : FileTree) (other : JobId) :
    ({ s with issued, files, jobs := s.jobs ++ [j] } : Store).find? other =
      (s.find? other).or (if j.id = other then some j else none) := by
  simp only [find?, List.find?_append]
  congr 1
  by_cases h : j.id = other <;> simp [h]

theorem Numbered.of_sublist (h : s.Numbered) {s' : Store} (issued : s.issued ≤ s'.issued)
    (jobs : s'.jobs.Sublist s.jobs) : s'.Numbered where
  issued := fun j hj => by
    obtain ⟨n, hn, hid⟩ := h.issued j (jobs.subset hj)
    exact ⟨n, Nat.le_trans hn issued, hid⟩
  unique := h.unique.sublist (jobs.map _)

/-- A record that is still there is the one that was there. -/
theorem Numbered.find?_of_sublist (h : s.Numbered) {s' : Store} (jobs : s'.jobs.Sublist s.jobs)
    {j : Job} (hj : s'.find? id = some j) : s.find? id = some j := by
  obtain ⟨hmem, hid⟩ := find?_eq_some hj
  exact h.find?_eq_some_iff.mpr ⟨jobs.subset hmem, hid⟩

/-- The id that is given out next leads to no record. -/
theorem Numbered.find?_next (h : s.Numbered) : s.find? (jobId (s.issued + 1)) = none := by
  simpa [find?] using h.fresh

end Store
end Montage
