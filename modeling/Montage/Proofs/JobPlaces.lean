import Montage.Proofs.AssetPlaces
import Montage.Proofs.TaskFrames

/-! # Places of jobs

Below the root each job has a directory of its own, and a name beside it for the time in which the
directory is removed (`trashName`).  Records, processes and calls keep to these places in all runs
(`Placed`).
-/
namespace Montage

open Service

/-! ### Names -/

theorem Text.hexDigit?_of_mem_toDigits {n : Nat} {c : Char} (h : c ∈ Nat.toDigits 16 n) :
    (Text.hexDigit? c).isSome = true := by
  induction n using Nat.strongRecOn with
  | ind n ih =>
    rw [Nat.toDigits_eq_if (by decide)] at h
    split at h
    · rename_i hn
      rw [List.mem_singleton.mp h, Text.hexDigit?_digitChar hn]
      rfl
    · rcases List.mem_append.mp h with h | h
      · exact ih (n / 16) (by omega) h
      · rw [List.mem_singleton.mp h, Text.hexDigit?_digitChar (Nat.mod_lt _ (by decide))]
        rfl

/-- An id has digits only. -/
theorem not_mem_jobId {c : Char} (hc : Text.hexDigit? c = none) (n : Nat) :
    c ∉ (jobId n).toList := by
  intro h
  rw [jobId, String.toList_ofList, Text.hex] at h
  rcases List.mem_append.mp h with h | h
  · rw [List.eq_of_mem_replicate h] at hc
    cases hc
  · have := Text.hexDigit?_of_mem_toDigits h
    rw [hc] at this
    cases this

theorem jobId_ne_dots (n : Nat) : jobId n ≠ ".." := by
  intro h
  have := not_mem_jobId (c := '.') (by decide) n
  rw [h] at this
  exact this (by decide)

theorem jobId_ne_empty (n : Nat) : jobId n ≠ "" := by
  intro h
  have hnil : (jobId n).toList = [] := by rw [h]; rfl
  rw [jobId, String.toList_ofList, Text.hex, List.append_eq_nil_iff] at hnil
  rw [hnil.2] at hnil
  exact absurd hnil.1 (List.cons_ne_nil _ _)

/-- Name of the directory of a job while it is removed. -/
def trashName (id : JobId) : String := ".trash-" ++ id

theorem trashName_injective : Function.Injective trashName := fun _ _ h =>
  String.append_right_inj _ |>.mp h

theorem jobId_ne_trashName (n : Nat) (id : JobId) : jobId n ≠ trashName id := by
  intro h
  have := not_mem_jobId (c := '.') (by decide) n
  rw [h, trashName, String.toList_append] at this
  exact this (List.mem_append_left _ (by decide))

theorem trashName_ne_dots (id : JobId) : trashName id ≠ ".." := by
  intro h
  have hlength := congrArg String.length h
  have htrash : ".trash-".length = 7 := by decide
  have hdots : "..".length = 2 := by decide
  rw [trashName, String.length_append, htrash, hdots] at hlength
  omega

theorem Store.trashOf_directory (s : Store) (id : JobId) :
    trashOf (s.directory id) = s.directory (trashName id) := by
  rw [trashOf, directory, Path.withName_concat, Path.name_concat]
  rfl

/-- The id was given out to a job. -/
def Store.Issued (s : Store) (id : JobId) : Prop := ∃ n ≤ s.issued, id = jobId n

theorem Store.issued_of_hasIssued {s : Store} {id : JobId} (h : s.hasIssued id = true) :
    s.Issued id := by
  obtain ⟨n, hn, hid⟩ := List.any_eq_true.mp h
  exact ⟨n + 1, List.mem_range.mp hn, (by simpa using hid : jobId (n + 1) = id).symm⟩

theorem Store.Issued.ne_dots {s : Store} {id : JobId} (h : s.Issued id) : id ≠ ".." := by
  obtain ⟨n, -, rfl⟩ := h
  exact jobId_ne_dots n

theorem Store.Issued.ne_trashName {s : Store} {id : JobId} (h : s.Issued id) (other : JobId) :
    id ≠ trashName other := by
  obtain ⟨n, -, rfl⟩ := h
  exact jobId_ne_trashName n other

theorem Store.Issued.mono {s s' : Store} {id : JobId} (h : s.Issued id)
    (issued : s.issued ≤ s'.issued) : s'.Issued id := by
  obtain ⟨n, hn, hid⟩ := h
  exact ⟨n, Nat.le_trans hn issued, hid⟩

/-! ### Records, processes and calls -/

/-- Directories that a call has moved aside and not removed yet. -/
def CallPhase.trash : CallPhase → List Path
  | clearing trash _ => trash
  | _ => []

/-- Jobs that a call has removed from the store. -/
def CallPhase.removed : CallPhase → List JobId
  | clearing _ removed => removed
  | done (.ok removed) => removed
  | _ => []

/-- Records, processes and calls speak of the places of jobs. -/
structure Placed (s : Service) : Prop where
  tabled : s.Tabled
  directories : ∀ id j, s.store.find? id = some j → j.directory = s.store.directory id
  born : ∀ p ∈ s.processes, s.store.Issued p.job
  trashed : ∀ c ∈ s.calls, ∀ q ∈ c.phase.trash,
    ∃ id ∈ c.phase.removed, s.store.Issued id ∧ q = s.store.directory (trashName id)

namespace Placed
variable {s s' : Service} {id : JobId}

theorem begin (setup : Setup) (root : Path) (files : FileTree) :
    Placed (Service.begin setup root files) where
  tabled := tabled_begin setup root files
  directories := fun _ _ h => nomatch h
  born := nofun
  trashed := nofun

theorem issued_of_task? (h : Placed s) {t : Task} (task : s.task? id = some t) :
    s.store.Issued id :=
  h.tabled.issued id t task

theorem issued_of_find? (h : Placed s) {j : Job} (hj : s.store.find? id = some j) :
    s.store.Issued id := by
  obtain ⟨hmem, rfl⟩ := Store.find?_eq_some hj
  exact h.tabled.numbered.issued j hmem

theorem issued_of_process? (h : Placed s) {status : ProcessStatus}
    (process : s.process? id = some status) : s.store.Issued id := by
  obtain ⟨p, hp, -⟩ := Option.map_eq_some_iff.mp process
  obtain rfl : p.job = id := by simpa using List.find?_some hp
  exact h.born p (List.mem_of_find?_eq_some hp)

/-- Tables in which records keep their directories speak of the same places. -/
theorem of_places (s : Service) (tabled : s'.Tabled) (root : s'.store.root = s.store.root)
    (issued : s.store.issued ≤ s'.store.issued)
    (records : ∀ id j', s'.store.find? id = some j' →
      j'.directory = s.store.directory id)
    (processes : ∀ p ∈ s'.processes, s.store.Issued p.job)
    (calls : ∀ c ∈ s'.calls, ∀ q ∈ c.phase.trash,
      ∃ id ∈ c.phase.removed, s.store.Issued id ∧ q = s.store.directory (trashName id)) :
    Placed s' := by
  have hdirectory (id : JobId) : s'.store.directory id = s.store.directory id := by
    rw [Store.directory, root, Store.directory]
  refine ⟨tabled, fun id j' hj' => ?_, fun p hp => (processes p hp).mono issued,
    fun c hc q hq => ?_⟩
  · rw [hdirectory]
    exact records id j' hj'
  · obtain ⟨id, hid, hissued, rfl⟩ := calls c hc q hq
    exact ⟨id, hid, hissued.mono issued, (hdirectory _).symm⟩

theorem of_follows (h : Placed s) (tabled : s'.Tabled) (frame : SameFrame s s')
    (follows : Follows id s s') (processes : ∀ p ∈ s'.processes, s.store.Issued p.job) :
    Placed s' := by
  refine of_places s tabled frame.root (Nat.le_of_eq frame.issued.symm) (fun i j' hj' => ?_) processes
    (frame.calls ▸ h.trashed)
  obtain ⟨j, hj, hkeeps⟩ := follows.record_any hj'
  exact hkeeps.directory.trans (h.directories i j hj)

theorem quiet (h : Placed s) (move : Quiet id s s') : Placed s' := by
  refine h.of_follows (h.tabled.quiet move) move.sameFrame move.follows fun p hp => ?_
  have hstatus (status : ProcessStatus) (hp : p ∈ (s.setProcess id status).processes) :
      s.store.Issued p.job := by
    obtain ⟨q, hq, rfl⟩ := List.mem_map.mp hp
    split <;> exact h.born q hq
  cases move with
  | spawn t plan watch task phase =>
    rcases List.mem_append.mp hp with hp | hp
    · exact h.born p hp
    · rw [List.mem_singleton.mp hp]
      exact h.issued_of_task? task
  | exit code running => exact hstatus _ hp
  | kill running => exact hstatus _ hp
  | leave t failure task holds gone killed =>
    refine h.born p ?_
    cases failure <;> exact hp
  | _ => exact h.born p hp

theorem advance (h : Placed s) (move : Advance id s s') : Placed s' := by
  refine h.of_follows (h.tabled.advance move) move.sameFrame move.follows fun p hp => ?_
  cases move with
  | complete t plan watch failure task phase exited size =>
    refine h.born p ?_
    cases failure <;> exact hp
  | _ => exact h.born p hp

theorem moves {b : Bool} (h : Placed s) (moves : Moves id s b s') : Placed s' :=
  moves.preserves (fun _ _ h move => h.quiet move) (fun _ _ h move => h.advance move) h

theorem detached (h : Placed s) {ids : List JobId} {answer : Except StoreFault (List Path)}
    {store : Store} (detached : s.store.detachAll ids = (answer, store)) :
    Placed (s.setStore store) := by
  have hframe := sameFrame_detachAll detached
  have hjobs := (Store.detachAll_sublist (s := s.store) ids).1
  rw [detached] at hjobs
  exact of_places s (h.tabled.detachAll detached) hframe.root (Nat.le_of_eq hframe.issued.symm)
    (fun i j hj => h.directories i j (h.tabled.numbered.find?_of_sublist hjobs hj)) h.born h.trashed

/-- What was moved aside is told to the call. -/
theorem trash_of_detachAll (h : Placed s) {ids : List JobId} {trash : List Path} {store : Store}
    (detached : s.store.detachAll ids = (.ok trash, store)) : ∀ q ∈ trash,
      ∃ id ∈ ids, s.store.Issued id ∧ q = s.store.directory (trashName id) := by
  induction ids generalizing s trash with
  | nil =>
    cases detached
    exact nofun
  | cons first rest ih =>
    rw [Store.detachAll] at detached
    rcases hfirst : s.store.detach first with ⟨answer, store₁⟩
    rw [hfirst] at detached
    cases answer with
    | error f => cases detached
    | ok moved =>
      dsimp only at detached
      rcases hrest : store₁.detachAll rest with ⟨answer, store₂⟩
      rw [hrest] at detached
      cases answer with
      | error f => cases detached
      | ok more =>
        cases detached
        have hone := Store.detachAll_one hfirst
        have hframe := sameFrame_detachAll hone
        intro q hq
        rcases List.mem_append.mp hq with hq | hq
        · rcases Store.detach_cases s.store first with
            ⟨-, heq⟩ | ⟨j, hj, ⟨-, heq⟩ | ⟨-, ⟨f, -, heq⟩ | ⟨files, -, heq⟩⟩⟩ <;>
            cases hfirst.symm.trans heq
          · cases hq
          · refine ⟨first, List.mem_cons_self, h.issued_of_find? hj, ?_⟩
            rw [List.mem_singleton.mp hq, h.directories first j hj, Store.trashOf_directory]
        · obtain ⟨id, hid, hgiven, rfl⟩ := ih (h.detached hone) hrest q hq
          refine ⟨id, List.mem_cons_of_mem first hid, hgiven.mono (Nat.le_of_eq hframe.issued), ?_⟩
          rw [Store.directory, hframe.root, Store.directory]

/-- A call does what it has to with the places of its jobs. -/
theorem callMove {goal : Goal} {phase phase' : CallPhase} {calls : List Call} (h : Placed s)
    (trashed : ∀ q ∈ phase.trash,
      ∃ id ∈ phase.removed, s.store.Issued id ∧ q = s.store.directory (trashName id))
    (move : CallMove s goal phase s' phase')
    (new : ∀ c ∈ calls, c ∈ s.calls ∨ c = ⟨goal, phase'⟩) : Placed { s' with calls } := by
  have htabled : Tabled { s' with calls } := (h.tabled.callMove move).congr rfl rfl rfl rfl
  have hframe := move.sameFrame
  have hcalls (hnext : ∀ q ∈ phase'.trash,
      ∃ id ∈ phase'.removed, s.store.Issued id ∧ q = s.store.directory (trashName id)) :
      ∀ c ∈ calls, ∀ q ∈ c.phase.trash,
        ∃ id ∈ c.phase.removed, s.store.Issued id ∧ q = s.store.directory (trashName id) := by
    intro c hc
    rcases new c hc with hc | rfl
    · exact h.trashed c hc
    · exact hnext
  have hrecords (id : JobId) (j : Job) (hj : s'.store.find? id = some j) :
      j.directory = s.store.directory id :=
    h.directories id j (h.tabled.numbered.find?_of_sublist move.jobs_sublist hj)
  have hborn : ∀ p ∈ s'.processes, s.store.Issued p.job := move.processes ▸ h.born
  cases move with
  | idle => exact of_places s htabled rfl (Nat.le_refl _) h.directories h.born (hcalls trashed)
  | tell finished id rest t ended task =>
    exact of_places s htabled rfl (Nat.le_refl _) h.directories h.born (hcalls nofun)
  | remove finished trash store removing ended detached =>
    exact of_places s htabled hframe.root (Nat.le_of_eq hframe.issued.symm) hrecords hborn
      (hcalls (h.trash_of_detachAll detached))
  | refuse finished f store removing ended detached =>
    exact of_places s htabled hframe.root (Nat.le_of_eq hframe.issued.symm) hrecords hborn
      (hcalls nofun)
  | clear p rest removed =>
    refine of_places s htabled rfl (Nat.le_refl _) h.directories h.born (hcalls fun q hq => ?_)
    exact trashed q (List.mem_cons_of_mem p hq)
  | cleared removed => exact of_places s htabled rfl (Nat.le_refl _) h.directories h.born (hcalls nofun)
  | drained _ jobs waiting ended =>
    exact of_places s htabled rfl (Nat.le_refl _) h.directories h.born (hcalls nofun)
  | lose jobs live left settled =>
    exact of_places s htabled hframe.root (Nat.le_of_eq hframe.issued.symm) hrecords hborn
      (hcalls nofun)
  | astray finished draining =>
    exact of_places s htabled rfl (Nat.le_refl _) h.directories h.born (hcalls nofun)

theorem submitted {submission : Submission} {answer : Except SubmitFault JobId} (h : Placed s)
    (outcome : Submitted s submission answer s') : Placed s' := by
  have htabled := h.tabled.submitted outcome
  have hregister {files : FileTree} (id : JobId) (j : Job)
      (hj : (s.store.register s.now files).find? id = some j) :
      j.directory = s.store.directory id := by
    rcases Store.find?_register_eq_some hj with hj | ⟨rfl, rfl⟩
    · exact h.directories id j hj
    · rfl
  cases outcome with
  | refused => exact h
  | lost f files whole open' left =>
    exact of_places s htabled rfl (Nat.le_succ _) h.directories h.born h.trashed
  | torn run made files open' half date directory written =>
    exact of_places s htabled rfl (Nat.le_succ _) hregister h.born h.trashed
  | accepted t made files open' checked date directory written =>
    exact of_places s htabled rfl (Nat.le_succ _) hregister h.born h.trashed

theorem step (h : Placed s) (e : Event) : Placed (s.step e) := by
  have htabled := h.tabled.step e
  generalize hs' : s.step e = s' at htabled
  have hcases := step_cases h.tabled.numbered e
  rw [hs'] at hcases
  cases hcases with
  | job id e b s' about moves => exact h.moves moves
  | submit submission disk s' outcome => exact h.submitted outcome
  | ask goal s' phase removing move started =>
    refine h.callMove (by simp [CallPhase.trash]) move fun c hc => ?_
    rcases List.mem_append.mp hc with hc | hc
    · exact Or.inl hc
    · exact Or.inr (List.mem_singleton.mp hc)
  | drain patience phase waiting =>
    refine of_places s htabled rfl (Nat.le_refl _) h.directories h.born fun c hc => ?_
    rcases List.mem_append.mp hc with hc | hc
    · exact h.trashed c hc
    · rw [List.mem_singleton.mp hc]
      rcases waiting with ⟨-, rfl⟩ | rfl <;> exact nofun
  | call e index c s' phase about call move =>
    exact h.callMove (h.trashed c (List.mem_of_getElem? call)) move fun c' hc' =>
      List.mem_or_eq_of_mem_set hc'
  | noCall => exact h
  | tick seconds => exact of_places s htabled rfl (Nat.le_refl _) h.directories h.born h.trashed
  | disk files => exact of_places s htabled rfl (Nat.le_refl _) h.directories h.born h.trashed

theorem run (h : Placed s) (events : List Event) : Placed (s.run events) := by
  induction events generalizing s with
  | nil => exact h
  | cons e rest ih => exact ih (h.step e)

end Placed
end Montage
