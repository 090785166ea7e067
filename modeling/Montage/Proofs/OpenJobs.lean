import Montage.Proofs.CompileOutcome
import Montage.Proofs.Draining
import Montage.Proofs.NumberOrder

/-! # Open jobs have tasks

A job that has not ended and has no task would wait for ever.  Between the events of a call that
removes jobs such jobs are there: a task that was told to stop before its first move ends without a
trace, and its job stays open until the call removes it.  So every open job without a task is
**doomed** by a call that is not over, or it was left behind by a submission that could not be
written down (`Accounted`).

The other half is that no call removes a job whose task goes on: a job that a call claims is one of
those that the call still waits for, or has no task any more (`Call.Sound`).  For sweeps this needs
the clock.  A sweep decides twice which jobs are too old, and a job that came in between is not too
old for the time of the sweep, because it came later and jobs are kept for some time.
-/
namespace Montage

open Service

/-! ### What a run is like -/

/-- The clock goes forward, sweeps begin at the time of the clock, and jobs are removed with their
tasks. -/
def Orderly (s : Service) : Event → Prop
  | .asked (.sweep time) => time = s.now
  | .asked (.forget _) => False
  | .ticked seconds => Number.le s.now (Number.add s.rounding s.now seconds) = true
  | _ => True

instance (s : Service) : (e : Event) → Decidable (Orderly s e)
  | .asked (.sweep time) => inferInstanceAs (Decidable (time = s.now))
  | .asked (.forget _) => inferInstanceAs (Decidable False)
  | .ticked _ => inferInstanceAs (Decidable (_ = true))
  | .asked (.delete _) | .asked (.drain _) | .submitted .. | .moved _ | .download .. | .probed ..
  | .spawned .. | .wrote .. | .produced .. | .exited .. | .raised .. | .strayed .. | .advanced _
  | .outOfPatience _ | .disk _ => inferInstanceAs (Decidable True)

namespace Service

/-- The job that a submission leaves behind without a task, because it could not be written down. -/
def tornOf (id : JobId) : Except SubmitFault JobId → List JobId
  | .error (.torn _) => [id]
  | _ => []

theorem tornOf_error {id : JobId} {f : SubmitFault} (whole : ∀ run, f ≠ .torn run) :
    tornOf id (.error f) = [] := by
  cases f with
  | torn run => exact absurd rfl (whole run)
  | draining | request | invalid | store => rfl

def tornBy (s : Service) : Event → List JobId
  | .submitted submission disk =>
    tornOf (jobId (s.store.issued + 1)) (s.submit submission disk).1
  | _ => []

/-- The jobs that submissions of a run have left behind without a task. -/
def torn (s : Service) : List Event → List JobId
  | [] => []
  | e :: rest => s.tornBy e ++ (s.step e).torn rest

end Service

/-! ### What calls claim -/

/-- A call is to remove a job. -/
def Goal.Claims (setup : Setup) (goal : Goal) (j : Job) : Prop :=
  match goal with
  | delete id | forget id => j.id = id
  | sweep time => Store.hasExpired setup.compiler.rounding setup.lifetime time j = true
  | drain _ => False

theorem Goal.claims_iff {setup : Setup} {goal : Goal} {a b : Job} (h : a.Keeps b) :
    goal.Claims setup b ↔ goal.Claims setup a := by
  cases goal with
  | delete id | forget id => simp [Claims, h.id]
  | sweep time => simp [Claims, Store.hasExpired, h.since]
  | drain patience => exact Iff.rfl

/-- What a call is to remove is what it removes. -/
theorem Goal.mem_targets_iff {s : Service} (hnumbered : s.store.Numbered) {goal : Goal} {id : JobId}
    {j : Job} (hj : s.store.find? id = some j) : id ∈ goal.targets s ↔ goal.Claims s.setup j := by
  obtain ⟨hmem, rfl⟩ := Store.find?_eq_some hj
  cases goal with
  | delete id | forget id => simp [Claims, targets]
  | drain patience => simp [Claims, targets]
  | sweep time =>
    constructor
    · intro hid
      obtain ⟨k, hk, hid⟩ := List.mem_map.mp hid
      obtain ⟨hk, hexpired⟩ := List.mem_filter.mp hk
      rw [List.inj_on_of_nodup_map hnumbered.unique hk hmem hid] at hexpired
      exact hexpired
    · intro hexpired
      exact List.mem_map_of_mem (List.mem_filter.mpr ⟨hmem, hexpired⟩)

/-- A call that claims a job that is there claims only such jobs, and each once. -/
theorem Goal.targets_there {s : Service} (hnumbered : s.store.Numbered) {goal : Goal} {id : JobId}
    {j : Job} (hj : s.store.find? id = some j) (hclaims : goal.Claims s.setup j) :
    (goal.targets s).Nodup ∧ ∀ i ∈ goal.targets s, (s.store.find? i).isSome = true := by
  obtain ⟨hmem, rfl⟩ := Store.find?_eq_some hj
  cases goal with
  | delete id | forget id =>
    obtain rfl : j.id = id := hclaims
    refine ⟨List.nodup_singleton _, fun i hi => ?_⟩
    rw [List.mem_singleton.mp hi, hj]
    rfl
  | drain patience => exact ⟨List.nodup_nil, nofun⟩
  | sweep time => exact hnumbered.expired_there _ _ time

/-- No job that comes now or later is claimed. -/
def Goal.Past (s : Service) : Goal → Prop
  | delete id => ∃ n ≤ s.store.issued, id = jobId n
  | forget _ => False
  | sweep time => Number.le time s.now = true
  | drain _ => True

theorem Goal.Past.mono {s s' : Service} {goal : Goal} (h : goal.Past s)
    (issued : s.store.issued ≤ s'.store.issued) (now : Number.le s.now s'.now = true) :
    goal.Past s' := by
  cases goal with
  | delete id =>
    obtain ⟨n, hn, hid⟩ := h
    exact ⟨n, Nat.le_trans hn issued, hid⟩
  | forget id => exact h.elim
  | sweep time => exact Number.le_trans h now
  | drain patience => trivial

/-- A job that comes later than a sweep began is not too old for it. -/
theorem Store.not_hasExpired {r : Rounding} (hr : r.KeepsSign) {lifetime time : Number}
    (hlifetime : Number.lt (.finite 0) lifetime = true) {j : Job}
    (hlater : Number.le time j.since = true) : Store.hasExpired r lifetime time j = false := by
  rcases Number.sub_le_zero hr hlater with hnan | hle
  · rw [hasExpired, hnan]
    cases lifetime <;> rfl
  · exact Number.not_le_of_lt hlifetime hle

theorem Goal.Past.not_claims {s : Service} {goal : Goal} (h : goal.Past s)
    (hr : s.rounding.KeepsSign) (hlifetime : Number.lt (.finite 0) s.setup.lifetime = true) :
    ¬ goal.Claims s.setup (s.store.newJob s.now s.now) := by
  cases goal with
  | delete id =>
    obtain ⟨n, hn, rfl⟩ := h
    intro hid
    have := jobId_injective hid
    omega
  | forget id => exact h.elim
  | sweep time =>
    have hnot : Store.hasExpired s.setup.compiler.rounding s.setup.lifetime time
        (s.store.newJob s.now s.now) = false := Store.not_hasExpired hr hlifetime h
    simp [Claims, hnot]
  | drain patience => exact fun h => h

/-- A call has set out to remove a job and has not come to it, or its directory made trouble. -/
def Call.Dooms (setup : Setup) (c : Call) (j : Job) : Prop :=
  c.goal.Claims setup j ∧
    ((∃ ids, c.phase = .cancelling ids) ∨ ∃ f, c.phase = .done (.error (.files f)))

/-- What is true of a call that waits for tasks. -/
structure Call.Sound (s : Service) (c : Call) : Prop where
  past : ∀ ids, c.phase = .cancelling ids → c.goal.Past s
  known : ∀ ids, c.phase = .cancelling ids → ∀ id ∈ ids, ∃ n ≤ s.store.issued, id = jobId n
  claimed : ∀ ids, c.phase = .cancelling ids → ∀ id ∈ ids, ∀ j, s.store.find? id = some j →
    c.goal.Claims s.setup j
  /-- The tasks of all jobs that it claims are told to stop before it removes them. -/
  covered : ∀ ids, c.phase = .cancelling ids → ∀ id t j, s.task? id = some t →
    s.store.find? id = some j → c.goal.Claims s.setup j → id ∈ ids

theorem Call.sound_of_not_cancelling {s : Service} {c : Call}
    (h : ∀ ids, c.phase ≠ .cancelling ids) : c.Sound s :=
  ⟨fun ids hc => absurd hc (h ids), fun ids hc => absurd hc (h ids),
    fun ids hc => absurd hc (h ids), fun ids hc => absurd hc (h ids)⟩

/-! ### The invariant -/

/-- Every open job has a task, or it is known why it has none. -/
structure Accounted (torn : List JobId) (calls : List Call) (s : Service) : Prop where
  tabled : s.Tabled
  clock : Number.le s.now s.now = true
  rounding : s.rounding.KeepsSign
  lifetime : Number.lt (.finite 0) s.setup.lifetime = true
  sound : ∀ c ∈ calls, c.Sound s
  registered : ∀ id t, s.task? id = some t → (s.store.find? id).isSome = true
  idle : ∀ id j, s.store.find? id = some j → j.state.isFinal = false → s.task? id = none →
    id ∈ torn ∨ ∃ c ∈ calls, c.Dooms s.setup j
  halted : ∀ id t j, s.task? id = some t → t.phase = .created → t.cancelled = true →
    s.store.find? id = some j → ∃ c ∈ calls, c.Dooms s.setup j
  lost : ∀ id ∈ torn, s.task? id = none ∧ ∃ n ≤ s.store.issued, id = jobId n

namespace Accounted
variable {torn : List JobId} {calls calls' : List Call} {s s' : Service} {id : JobId}

theorem begin (setup : Setup) (root : Path) (files : FileTree)
    (rounding : setup.compiler.rounding.KeepsSign)
    (lifetime : Number.lt (.finite 0) setup.lifetime = true) :
    Accounted [] [] (Service.begin setup root files) where
  tabled := tabled_begin setup root files
  clock := rfl
  rounding := rounding
  lifetime := lifetime
  sound := fun _ h => nomatch h
  registered := fun _ _ h => nomatch h
  idle := fun _ _ h => nomatch h
  halted := fun _ _ _ h => nomatch h
  lost := fun _ h => nomatch h

/-- Other calls may stand for the calls, if they doom the same jobs. -/
theorem withCalls (h : Accounted torn calls s) (sound : ∀ c ∈ calls', c.Sound s)
    (dooms : ∀ c ∈ calls, ∀ id j, s.store.find? id = some j → c.Dooms s.setup j →
      ∃ c' ∈ calls', c'.Dooms s.setup j) : Accounted torn calls' s where
  tabled := h.tabled
  clock := h.clock
  rounding := h.rounding
  lifetime := h.lifetime
  sound := sound
  registered := h.registered
  idle := fun id j hj hopen hnone => by
    rcases h.idle id j hj hopen hnone with htorn | ⟨c, hc, hdooms⟩
    · exact Or.inl htorn
    · exact Or.inr (dooms c hc id j hj hdooms)
  halted := fun id t j ht phase told hj => by
    obtain ⟨c, hc, hdooms⟩ := h.halted id t j ht phase told hj
    exact dooms c hc id j hj hdooms
  lost := h.lost

/-- Tables that are the same are accounted for in the same way. -/
theorem congr (h : Accounted torn calls s) (tabled : s'.Tabled) (setup : s'.setup = s.setup)
    (now : Number.le s.now s'.now = true) (issued : s.store.issued ≤ s'.store.issued)
    (find : ∀ id, s'.store.find? id = s.store.find? id)
    (task : ∀ id, s'.task? id = s.task? id) : Accounted torn calls s' where
  tabled := tabled
  clock := Number.le_self_of_le now
  rounding := by
    rw [Service.rounding, setup]
    exact h.rounding
  lifetime := setup ▸ h.lifetime
  sound := fun c hc => by
    have hsound := h.sound c hc
    refine ⟨fun ids hphase => (hsound.past ids hphase).mono issued now,
      fun ids hphase id hid => ?_, ?_, ?_⟩
    · obtain ⟨n, hn, hid⟩ := hsound.known ids hphase id hid
      exact ⟨n, Nat.le_trans hn issued, hid⟩
    · simpa only [find, setup] using hsound.claimed
    · simpa only [find, task, setup] using hsound.covered
  registered := by simpa only [find, task] using h.registered
  idle := by simpa only [find, task, setup] using h.idle
  halted := by simpa only [find, task, setup] using h.halted
  lost := fun id hid => by
    obtain ⟨hnone, n, hn, hid⟩ := h.lost id hid
    exact ⟨(task id).trans hnone, n, Nat.le_trans hn issued, hid⟩

/-- Moves of a task end it with its job, or after it was told to stop. -/
theorem moves {b : Bool} (h : Accounted torn calls s) (moves : Moves id s b s')
    (tabled : s'.Tabled) : Accounted torn calls s' where
  tabled := tabled
  clock := moves.sameFrame.now ▸ h.clock
  rounding := by
    rw [Service.rounding, moves.sameFrame.setup]
    exact h.rounding
  lifetime := moves.sameFrame.setup ▸ h.lifetime
  sound := fun c hc => by
    have hsound := h.sound c hc
    have hframe := moves.sameFrame
    refine ⟨fun ids hphase => ?_, ?_, fun ids hphase i hi j' hj' => ?_,
      fun ids hphase i t' j' ht' hj' hclaims => ?_⟩
    · exact (hsound.past ids hphase).mono (Nat.le_of_eq hframe.issued.symm) (hframe.now ▸ h.clock)
    · simpa only [hframe.issued] using hsound.known
    · obtain ⟨j, hj, hkeeps⟩ := moves.follows.record_any hj'
      rw [hframe.setup]
      exact (Goal.claims_iff hkeeps).mpr (hsound.claimed ids hphase i hi j hj)
    · obtain ⟨j, hj, hkeeps⟩ := moves.follows.record_any hj'
      obtain ⟨t, ht, -⟩ := moves.follows.task_any ht'
      rw [hframe.setup] at hclaims
      exact hsound.covered ids hphase i t j ht hj ((Goal.claims_iff hkeeps).mp hclaims)
  registered := fun i t' ht' => by
    obtain ⟨t, ht, -⟩ := moves.follows.task_any ht'
    have hthere := h.registered i t ht
    cases hnone : s'.store.find? i with
    | none =>
      rw [moves.follows.kept_any hnone] at hthere
      cases hthere
    | some j => rfl
  idle := fun i j' hj' hopen hnone => by
    obtain ⟨j, hj, hkeeps⟩ := moves.follows.record_any hj'
    have hopen' : j.state.isFinal = false := by
      cases hfinal : j.state.isFinal with
      | false => rfl
      | true => rw [hkeeps.final hfinal, hfinal] at hopen; cases hopen
    have hdooms {c : Call} (hc : c.Dooms s.setup j) : c.Dooms s'.setup j' := by
      rw [moves.sameFrame.setup]
      exact ⟨(Goal.claims_iff hkeeps).mpr hc.1, hc.2⟩
    cases ht : s.task? i with
    | none =>
      rcases h.idle i j hj hopen' ht with htorn | ⟨c, hc, hd⟩
      · exact Or.inl htorn
      · exact Or.inr ⟨c, hc, hdooms hd⟩
    | some t =>
      -- the task is over: its job has ended, or it never moved and a call is to remove the job
      obtain rfl : i = id := by
        by_contra hother
        exact nomatch ((moves.follows.others i hother).2.1.symm.trans hnone).symm.trans ht
      rcases moves.follows.finished t ht hnone with hfinal | ⟨phase, told⟩
      · rw [hfinal j' hj'] at hopen
        cases hopen
      · obtain ⟨c, hc, hd⟩ := h.halted i t j ht phase told hj
        exact Or.inr ⟨c, hc, hdooms hd⟩
  halted := fun i t' j' ht' phase told hj' => by
    obtain ⟨j, hj, hkeeps⟩ := moves.follows.record_any hj'
    obtain ⟨t, ht, hcancelled, hphase⟩ := moves.follows.task_any ht'
    obtain ⟨c, hc, hd⟩ := h.halted i t j ht (hphase phase) (hcancelled ▸ told) hj
    refine ⟨c, hc, ?_⟩
    rw [moves.sameFrame.setup]
    exact ⟨(Goal.claims_iff hkeeps).mpr hd.1, hd.2⟩
  lost := fun i hi => by
    obtain ⟨hnone, hissued⟩ := h.lost i hi
    exact ⟨moves.follows.task_none hnone, moves.sameFrame.issued ▸ hissued⟩

/-- A task may be told to stop if it has moved, or if its job is doomed. -/
theorem cancel (h : Accounted torn calls s) (reason : ∀ t j, s.task? id = some t →
      t.phase = .created → s.store.find? id = some j → ∃ c ∈ calls, c.Dooms s.setup j) :
    Accounted torn calls (s.cancel id) where
  tabled := h.tabled.cancel id
  clock := h.clock
  rounding := h.rounding
  lifetime := h.lifetime
  sound := fun c hc => by
    have hsound := h.sound c hc
    refine ⟨fun ids hphase => (hsound.past ids hphase).mono (Nat.le_refl _) h.clock, hsound.known,
      hsound.claimed, fun ids hphase i t' j ht' hj => ?_⟩
    rw [task?_cancel] at ht'
    obtain ⟨t, ht, -⟩ := Option.map_eq_some_iff.mp ht'
    exact hsound.covered ids hphase i t j ht hj
  registered := fun i t' ht' => by
    rw [task?_cancel] at ht'
    obtain ⟨t, ht, -⟩ := Option.map_eq_some_iff.mp ht'
    exact h.registered i t ht
  idle := fun i j hj hopen hnone => by
    rw [task?_cancel] at hnone
    exact h.idle i j hj hopen (Option.map_eq_none_iff.mp hnone)
  halted := fun i t' j ht' phase told hj => by
    rw [task?_cancel] at ht'
    obtain ⟨t, ht, rfl⟩ := Option.map_eq_some_iff.mp ht'
    by_cases hi : i = id
    · subst hi
      exact reason t j ht (by simpa using phase) hj
    · simp only [hi, if_false] at phase told
      exact h.halted i t j ht phase told hj
  lost := fun i hi => by
    obtain ⟨hnone, hissued⟩ := h.lost i hi
    exact ⟨by rw [task?_cancel, hnone]; rfl, hissued⟩

theorem cancelAll (h : Accounted torn calls s) (ids : List JobId)
    (moved : ∀ id ∈ ids, ∀ t, s.task? id = some t → t.phase ≠ .created) :
    Accounted torn calls (ids.foldl Service.cancel s) := by
  induction ids generalizing s with
  | nil => exact h
  | cons id rest ih =>
    refine ih (h.cancel fun t j ht phase _ => absurd phase (moved id List.mem_cons_self t ht)) ?_
    intro i hi t' ht'
    rw [task?_cancel] at ht'
    obtain ⟨t, ht, rfl⟩ := Option.map_eq_some_iff.mp ht'
    have := moved i (List.mem_cons_of_mem id hi) t ht
    split <;> exact this

/-- A call removes what it claims, once none of that has a task. -/
theorem detach (h : Accounted torn calls s) {goal : Goal} {finished : List JobId}
    {answer : Except StoreFault (List Path)} {store : Store}
    (mem : ⟨goal, .cancelling finished⟩ ∈ calls) (ended : ∀ i ∈ finished, s.task? i = none)
    (detached : s.store.detachAll (goal.targets s) = (answer, store))
    {phase : CallPhase} (after : phase = match answer with
      | .ok trash => .clearing trash (goal.targets s)
      | .error f => .done (.error f))
    (old : ∀ c ∈ calls, c ∈ calls' ∨ c = ⟨goal, .cancelling finished⟩)
    (new : ∀ c ∈ calls', c ∈ calls ∨ c = ⟨goal, phase⟩) (next : ⟨goal, phase⟩ ∈ calls') :
    Accounted torn calls' (s.setStore store) := by
  have hsound := h.sound _ mem
  obtain ⟨hjobs, hissued⟩ := Store.detachAll_sublist (s := s.store) (goal.targets s)
  rw [detached] at hjobs hissued
  have hfound {i : JobId} {j : Job} (hj : store.find? i = some j) : s.store.find? i = some j :=
    h.tabled.numbered.find?_of_sublist hjobs hj
  have hkept {i : JobId} (hi : i ∉ goal.targets s) : store.find? i = s.store.find? i := by
    have := Store.find?_detachAll_of_not_mem (s := s.store) hi
    rwa [detached] at this
  -- what the call dooms and cannot remove, it dooms for ever
  have hdooms {i : JobId} {j : Job} {c : Call} (hj : s.store.find? i = some j)
      (hstill : store.find? i = some j) (hc : c ∈ calls) (hd : c.Dooms s.setup j) :
      ∃ c' ∈ calls', c'.Dooms s.setup j := by
    rcases old c hc with hc | rfl
    · exact ⟨c, hc, hd⟩
    · have hclaims : goal.Claims s.setup j := hd.1
      have hi : i ∈ goal.targets s := (Goal.mem_targets_iff h.tabled.numbered hj).mpr hclaims
      cases answer with
      | ok trash => exact nomatch (Store.find?_of_detachAll_ok detached hi).symm.trans hstill
      | error f =>
        obtain ⟨hnodup, hthere⟩ := Goal.targets_there h.tabled.numbered hj hclaims
        obtain ⟨g, rfl⟩ := Store.exists_files_of_detachAll_error detached hnodup hthere
        exact ⟨_, next, hclaims, Or.inr ⟨g, after⟩⟩
  refine ⟨h.tabled.detachAll detached, h.clock, h.rounding, h.lifetime, ?_, ?_, ?_, ?_, ?_⟩
  · intro c hc
    rcases new c hc with hc | rfl
    · have hsound := h.sound c hc
      refine ⟨fun ids hphase => ?_, fun ids hphase => ?_, fun ids hphase i hi j hj =>
        hsound.claimed ids hphase i hi j (hfound hj), fun ids hphase i t j ht hj =>
        hsound.covered ids hphase i t j ht (hfound hj)⟩
      · exact (hsound.past ids hphase).mono (Nat.le_of_eq hissued.symm) h.clock
      · rw [store_setStore, hissued]
        exact hsound.known ids hphase
    · refine Call.sound_of_not_cancelling fun ids => ?_
      rw [after]
      cases answer <;> exact nofun
  · -- a job that has a task is not claimed, for it would be one of those that are over
    intro i t ht
    obtain ⟨j, hj⟩ := Option.isSome_iff_exists.mp (h.registered i t ht)
    have hclaims : ¬ goal.Claims s.setup j := fun hclaims => by
      have hover := hsound.covered finished rfl i t j ht hj hclaims
      exact nomatch (ended i hover).symm.trans ht
    have hi : i ∉ goal.targets s := (Goal.mem_targets_iff h.tabled.numbered hj).not.mpr hclaims
    rw [store_setStore, hkept hi, hj]
    rfl
  · intro i j hj hopen hnone
    rcases h.idle i j (hfound hj) hopen hnone with htorn | ⟨c, hc, hd⟩
    · exact Or.inl htorn
    · exact Or.inr (hdooms (hfound hj) hj hc hd)
  · intro i t j ht hphase told hj
    obtain ⟨c, hc, hd⟩ := h.halted i t j ht hphase told (hfound hj)
    exact hdooms (hfound hj) hj hc hd
  · intro i hi
    obtain ⟨hnone, hi⟩ := h.lost i hi
    refine ⟨hnone, ?_⟩
    rw [store_setStore, hissued]
    exact hi

/-- A call stands somewhere else, where it neither waits to remove jobs nor has done so before. -/
theorem settle (h : Accounted torn calls s) {goal : Goal} {phase phase' : CallPhase}
    (before : ∀ j, ¬ (Call.mk goal phase).Dooms s.setup j) (after : ∀ ids, phase' ≠ .cancelling ids)
    (old : ∀ c ∈ calls, c ∈ calls' ∨ c = ⟨goal, phase⟩)
    (new : ∀ c ∈ calls', c ∈ calls ∨ c = ⟨goal, phase'⟩) : Accounted torn calls' s := by
  refine h.withCalls (fun c hc => ?_) fun c hc id j hj hdooms => ?_
  · rcases new c hc with hc | rfl
    · exact h.sound c hc
    · exact Call.sound_of_not_cancelling after
  · rcases old c hc with hc | rfl
    · exact ⟨c, hc, hdooms⟩
    · exact absurd hdooms (before j)

theorem callMove (h : Accounted torn calls s) {goal : Goal} {phase phase' : CallPhase}
    (mem : ⟨goal, phase⟩ ∈ calls) (move : CallMove s goal phase s' phase')
    (old : ∀ c ∈ calls, c ∈ calls' ∨ c = ⟨goal, phase⟩)
    (new : ∀ c ∈ calls', c ∈ calls ∨ c = ⟨goal, phase'⟩) (next : ⟨goal, phase'⟩ ∈ calls') :
    Accounted torn calls' s' := by
  cases move with
  | idle =>
    refine h.withCalls (fun c hc => ?_) fun c hc id j hj hdooms => ?_
    · rcases new c hc with hc | rfl
      · exact h.sound c hc
      · exact h.sound _ mem
    · rcases old c hc with hc | rfl
      · exact ⟨c, hc, hdooms⟩
      · exact ⟨_, next, hdooms⟩
  | tell finished id rest t ended task =>
    have hsound := h.sound _ mem
    have hclaimed {j : Job} (hj : s.store.find? id = some j) : goal.Claims s.setup j :=
      hsound.claimed _ rfl id (by simp) j hj
    have hcancel : Accounted torn calls (s.cancel id) := h.cancel fun t j ht phase hj =>
      ⟨_, mem, hclaimed hj, Or.inl ⟨_, rfl⟩⟩
    refine hcancel.withCalls (fun c hc => ?_) fun c hc i j hj hdooms => ?_
    · rcases new c hc with hc | rfl
      · exact hcancel.sound c hc
      · -- those before the job are over, so the call needs to wait for the others only
        have hsound' := hcancel.sound _ mem
        refine ⟨fun ids _ => hsound'.past _ rfl, fun ids hphase i hi => ?_,
          fun ids hphase i hi => ?_, fun ids hphase i u j hu hj hclaims => ?_⟩ <;> cases hphase
        · exact hsound'.known _ rfl i (List.mem_append_right finished hi)
        · exact hsound'.claimed _ rfl i (List.mem_append_right finished hi)
        · refine (List.mem_append.mp (hsound'.covered _ rfl i u j hu hj hclaims)).resolve_left ?_
          intro hover
          rw [task?_cancel, ended i hover] at hu
          cases hu
    · rcases old c hc with hc | rfl
      · exact ⟨c, hc, hdooms⟩
      · exact ⟨_, next, hdooms.1, Or.inl ⟨_, rfl⟩⟩
  | remove finished trash store removing ended detached =>
    exact h.detach mem ended detached rfl old new next
  | refuse finished f store removing ended detached =>
    exact h.detach mem ended detached rfl old new next
  | clear p rest removed =>
    have hfiles : Accounted torn calls (s.setStore (s.store.clear [p])) :=
      h.congr (h.tabled.setFiles _) rfl h.clock (Nat.le_refl _) (fun _ => rfl) fun _ => rfl
    refine hfiles.settle ?_ (by simp) old new
    rintro j ⟨-, ⟨ids, hphase⟩ | ⟨f, hphase⟩⟩ <;> cases hphase
  | cleared removed =>
    refine h.settle ?_ (by simp) old new
    rintro j ⟨-, ⟨ids, hphase⟩ | ⟨f, hphase⟩⟩ <;> cases hphase
  | drained _ jobs waiting ended =>
    refine h.settle ?_ (by simp) old new
    rintro j ⟨-, ⟨ids, hphase⟩ | ⟨f, hphase⟩⟩ <;> dsimp only at hphase <;>
      rcases waiting with waiting | waiting <;> cases waiting.symm.trans hphase
  | lose jobs live left settled =>
    have hlive : ∀ id ∈ live, ∀ t, s.task? id = some t → t.phase ≠ .created := by
      intro id hid t ht hphase
      have hnew := List.any_eq_false.mp settled id hid
      simp [isNew, ht, hphase, TaskPhase.isNew] at hnew
    have hcancel := h.cancelAll live hlive
    refine hcancel.settle ?_ (by simp) old new
    rintro j ⟨-, ⟨ids, hphase⟩ | ⟨f, hphase⟩⟩ <;> cases hphase
  | astray finished draining =>
    refine h.settle ?_ (by simp) old new
    rintro j ⟨hclaims, -⟩
    cases goal with
    | drain patience => exact hclaims
    | delete | forget | sweep => cases draining

/-- A call that begins waits for what it claims. -/
theorem sound_begin (h : Accounted torn calls s) {goal : Goal} (past : goal.Past s) :
    (Call.mk goal (.cancelling (goal.marked s))).Sound s := by
  have hmarked : goal.marked s = goal.targets s := by
    cases goal with
    | forget id => exact past.elim
    | delete | sweep | drain => rfl
  refine ⟨fun ids hphase => past, fun ids hphase id hid => ?_, fun ids hphase id hid j hj => ?_,
    fun ids hphase id t j ht hj hclaims => ?_⟩ <;> cases hphase
  · cases goal with
    | delete i =>
      rw [List.mem_singleton.mp hid]
      exact past
    | forget i => exact past.elim
    | sweep time =>
      obtain ⟨j, hj, rfl⟩ := List.mem_map.mp hid
      exact h.tabled.numbered.issued j (List.mem_filter.mp hj).1
    | drain patience => cases hid
  · exact (Goal.mem_targets_iff h.tabled.numbered hj).mp (hmarked ▸ hid)
  · exact hmarked ▸ (Goal.mem_targets_iff h.tabled.numbered hj).mpr hclaims

theorem ask (h : Accounted torn calls s) {goal : Goal} (orderly : Orderly s (.asked goal))
    {phase : CallPhase} (move : CallMove s goal (.cancelling (goal.marked s)) s' phase)
    (started : ∀ waiting, phase = .cancelling waiting →
      ∃ id rest t, waiting = id :: rest ∧ s.task? id = some t) :
    Accounted torn (calls ++ [⟨goal, phase⟩]) s' := by
  by_cases past : goal.Past s
  · have hbegun : Accounted torn (calls ++ [⟨goal, .cancelling (goal.marked s)⟩]) s := by
      refine h.withCalls (fun c hc => ?_) fun c hc id j hj hdooms =>
        ⟨c, List.mem_append_left _ hc, hdooms⟩
      rcases List.mem_append.mp hc with hc | hc
      · exact h.sound c hc
      · rw [List.mem_singleton.mp hc]
        exact h.sound_begin past
    refine hbegun.callMove (List.mem_append_right _ List.mem_cons_self) move (fun c hc => ?_)
      (fun c hc => ?_) (List.mem_append_right _ List.mem_cons_self)
    · rcases List.mem_append.mp hc with hc | hc
      · exact Or.inl (List.mem_append_left _ hc)
      · exact Or.inr (List.mem_singleton.mp hc)
    · rcases List.mem_append.mp hc with hc | hc
      · exact Or.inl (List.mem_append_left _ hc)
      · exact Or.inr (List.mem_singleton.mp hc)
  · -- only an id that was never given out is not of the past: there is nothing to remove
    cases goal with
    | forget id => exact orderly.elim
    | sweep time => exact absurd (orderly ▸ h.clock : Number.le time s.now = true) past
    | drain patience => exact absurd trivial past
    | delete id =>
      have hnone : s.store.find? id = none := by
        cases hj : s.store.find? id with
        | none => rfl
        | some j =>
          obtain ⟨hmem, rfl⟩ := Store.find?_eq_some hj
          exact absurd (h.tabled.numbered.issued j hmem) past
      have hdetach : s.store.detachAll [id] = (.error (.notFound id), s.store) := by
        simp [Store.detachAll, Store.detach, hnone]
      have hlive {waiting : List JobId} (hphase : phase = .cancelling waiting)
          (hids : ∀ i ∈ waiting, i = id) : False := by
        obtain ⟨i, rest, t, rfl, task⟩ := started waiting hphase
        obtain ⟨n, hn, hid⟩ := h.tabled.issued i t task
        exact past ⟨n, hn, hids i List.mem_cons_self ▸ hid⟩
      have hdone (f : StoreFault) : Accounted torn (calls ++ [⟨.delete id, .done (.error f)⟩]) s := by
        refine h.withCalls (fun c hc => ?_) fun c hc id j hj hdooms =>
          ⟨c, List.mem_append_left _ hc, hdooms⟩
        rcases List.mem_append.mp hc with hc | hc
        · exact h.sound c hc
        · rw [List.mem_singleton.mp hc]
          exact Call.sound_of_not_cancelling fun _ => CallPhase.noConfusion
      generalize hwaiting : CallPhase.cancelling ((Goal.delete id).marked s) = before at move
      cases move with
      | idle => exact (hlive hwaiting.symm fun i hi => List.mem_singleton.mp hi).elim
      | tell finished i rest t ended task =>
        refine (hlive rfl fun k hk => ?_).elim
        have hids : [id] = finished ++ i :: rest := CallPhase.cancelling.inj hwaiting
        exact List.mem_singleton.mp (hids ▸ List.mem_append_right finished hk)
      | remove finished trash store removing ended detached =>
        cases hdetach.symm.trans detached
      | refuse finished f store removing ended detached =>
        cases hdetach.symm.trans detached
        exact hdone _
      | drained _ jobs waiting ended => rcases waiting with rfl | rfl <;> cases hwaiting
      | astray finished draining => cases draining
      | clear | cleared | lose => cases hwaiting

/-- A new job without a task is lost. -/
theorem register (h : Accounted torn calls s) (files : FileTree) :
    Accounted (torn ++ [jobId (s.store.issued + 1)]) calls
      (s.setStore (s.store.register s.now files)) where
  tabled := h.tabled.register files
  clock := h.clock
  rounding := h.rounding
  lifetime := h.lifetime
  sound := fun c hc => by
    have hsound := h.sound c hc
    refine ⟨fun ids hphase => (hsound.past ids hphase).mono (Nat.le_succ _) h.clock,
      fun ids hphase id hid => ?_, fun ids hphase id hid j hj => ?_,
      fun ids hphase id t j ht hj hclaims => ?_⟩
    · obtain ⟨n, hn, hid⟩ := hsound.known ids hphase id hid
      exact ⟨n, Nat.le_succ_of_le hn, hid⟩
    · rcases Store.find?_register_eq_some hj with hj | ⟨rfl, rfl⟩
      · exact hsound.claimed ids hphase id hid j hj
      · obtain ⟨n, hn, hid⟩ := hsound.known ids hphase _ hid
        have := jobId_injective hid
        omega
    · rcases Store.find?_register_eq_some hj with hj | ⟨rfl, -⟩
      · exact hsound.covered ids hphase id t j ht hj hclaims
      · exact nomatch h.tabled.task?_next.symm.trans ht
  registered := fun id t ht => by
    rw [store_setStore, Store.find?_register, Option.isSome_or, h.registered id t ht, Bool.true_or]
  idle := fun id j hj hopen hnone => by
    rcases Store.find?_register_eq_some hj with hj | ⟨rfl, -⟩
    · rcases h.idle id j hj hopen hnone with htorn | hdooms
      · exact Or.inl (List.mem_append_left _ htorn)
      · exact Or.inr hdooms
    · exact Or.inl (List.mem_append_right _ List.mem_cons_self)
  halted := fun id t j ht phase told hj => by
    rcases Store.find?_register_eq_some hj with hj | ⟨rfl, -⟩
    · exact h.halted id t j ht phase told hj
    · exact nomatch h.tabled.task?_next.symm.trans ht
  lost := fun id hid => by
    rcases List.mem_append.mp hid with hid | hid
    · obtain ⟨hnone, n, hn, hid⟩ := h.lost id hid
      exact ⟨hnone, n, Nat.le_succ_of_le hn, hid⟩
    · rw [List.mem_singleton.mp hid]
      exact ⟨h.tabled.task?_next, _, Nat.le_refl _, rfl⟩

/-- A lost job that no call claims gets a task. -/
theorem addTask {t : Task} (h : Accounted (torn ++ [t.job]) calls s) (awake : t.cancelled = false)
    (tabled : Tabled { s with tasks := s.tasks ++ [t] }) (new : t.job ∉ torn)
    (there : (s.store.find? t.job).isSome = true)
    (unclaimed : ∀ c ∈ calls, ∀ ids, c.phase = .cancelling ids → ∀ j,
      s.store.find? t.job = some j → ¬ c.goal.Claims s.setup j) :
    Accounted torn calls { s with tasks := s.tasks ++ [t] } where
  tabled := tabled
  clock := h.clock
  rounding := h.rounding
  lifetime := h.lifetime
  sound := fun c hc => by
    have hsound := h.sound c hc
    refine ⟨fun ids hphase => (hsound.past ids hphase).mono (Nat.le_refl _) h.clock, hsound.known,
      hsound.claimed, fun ids hphase id u j hu hj hclaims => ?_⟩
    rcases task?_append_eq_some hu with hu | ⟨rfl, -⟩
    · exact hsound.covered ids hphase id u j hu hj hclaims
    · exact absurd hclaims (unclaimed c hc ids hphase j hj)
  registered := fun id u hu => by
    rcases task?_append_eq_some hu with hu | ⟨rfl, -⟩
    · exact h.registered id u hu
    · exact there
  idle := fun id j hj hopen hnone => by
    rw [task?_append, Option.or_eq_none_iff] at hnone
    rcases h.idle id j hj hopen hnone.1 with htorn | hdooms
    · rcases List.mem_append.mp htorn with htorn | htorn
      · exact Or.inl htorn
      · simp [List.mem_singleton.mp htorn] at hnone
    · exact Or.inr hdooms
  halted := fun id u j hu phase told hj => by
    rcases task?_append_eq_some hu with hu | ⟨-, rfl⟩
    · exact h.halted id u j hu phase told hj
    · exact nomatch awake.symm.trans told
  lost := fun id hid => by
    obtain ⟨hnone, hissued⟩ := h.lost id (List.mem_append_left _ hid)
    refine ⟨?_, hissued⟩
    rw [task?_append, hnone, if_neg (ne_of_mem_of_not_mem hid new).symm]
    rfl

theorem submitted (h : Accounted torn calls s) {submission : Submission}
    {answer : Except SubmitFault JobId} (outcome : Submitted s submission answer s') :
    Accounted (torn ++ tornOf (jobId (s.store.issued + 1)) answer) calls s' := by
  have htabled := h.tabled.submitted outcome
  cases outcome with
  | refused f whole =>
    rwa [tornOf_error whole, List.append_nil]
  | lost f files whole open' left =>
    have hlost : Accounted torn calls
        (s.setStore { s.store with issued := s.store.issued + 1, files }) :=
      h.congr htabled rfl h.clock (Nat.le_succ _) (fun _ => rfl) fun _ => rfl
    rwa [tornOf_error whole, List.append_nil]
  | torn run made files open' half date directory written => exact h.register files
  | accepted t made files open' checked date directory written =>
    change Accounted (torn ++ []) _ _
    rw [List.append_nil]
    refine (h.register files).addTask (t := ⟨jobId (s.store.issued + 1), t, .created, false⟩) rfl
      htabled ?_ ?_ ?_
    · intro hid
      obtain ⟨-, n, hn, hid⟩ := h.lost _ hid
      have := jobId_injective hid
      omega
    · simp [Store.find?_register, h.tabled.numbered.find?_next]
    · intro c hc ids hphase j hj
      rcases Store.find?_register_eq_some hj with hj | ⟨-, rfl⟩
      · exact nomatch h.tabled.numbered.find?_next.symm.trans hj
      · exact ((h.sound c hc).past ids hphase).not_claims h.rounding h.lifetime

theorem drain (h : Accounted torn calls s) (patience : Number) {phase : CallPhase}
    (waiting : s.tasks = [] ∧ phase = .done (.ok []) ∨ phase = .patient (s.tasks.map Task.job)) :
    Accounted torn (calls ++ [⟨.drain patience, phase⟩]) s := by
  refine h.withCalls (fun c hc => ?_) fun c hc id j hj hdooms =>
    ⟨c, List.mem_append_left _ hc, hdooms⟩
  rcases List.mem_append.mp hc with hc | hc
  · exact h.sound c hc
  · rw [List.mem_singleton.mp hc]
    refine Call.sound_of_not_cancelling fun ids => ?_
    rcases waiting with ⟨-, rfl⟩ | rfl <;> exact nofun

/-- **An orderly event leaves every open job accounted for.** -/
theorem step (h : Accounted torn s.calls s) {e : Event} (orderly : Orderly s e) :
    Accounted (torn ++ s.tornBy e) (s.step e).calls (s.step e) := by
  have htabled := h.tabled.step e
  generalize hs' : s.step e = s' at htabled
  have hcases := step_cases h.tabled.numbered e
  rw [hs'] at hcases
  cases hcases with
  | job id e b s' about moves =>
    have htorn : s.tornBy e = [] := by cases e <;> first | rfl | cases about
    rw [htorn, List.append_nil, moves.sameFrame.calls]
    exact h.moves moves htabled
  | submit submission disk s' outcome =>
    rw [outcome.frame.2.1]
    exact h.submitted outcome
  | ask goal s' phase removing move started =>
    have hask := h.ask orderly move started
    change Accounted (torn ++ []) _ _
    rw [List.append_nil]
    exact hask.congr htabled rfl hask.clock (Nat.le_refl _) (fun _ => rfl) fun _ => rfl
  | drain patience phase waiting =>
    have hdrain := h.drain patience waiting
    change Accounted (torn ++ []) _ _
    rw [List.append_nil]
    exact hdrain.congr htabled rfl h.clock (Nat.le_refl _) (fun _ => rfl) fun _ => rfl
  | call e index c s' phase about call move =>
    have htorn : s.tornBy e = [] := by rcases about with rfl | rfl <;> rfl
    have hmem : ∀ c' ∈ s.calls.set index ⟨c.goal, phase⟩, c' ∈ s.calls ∨ c' = ⟨c.goal, phase⟩ :=
      fun c' hc' => List.mem_or_eq_of_mem_set hc'
    have hlength : index < s.calls.length := (List.getElem?_eq_some_iff.mp call).1
    have hcall := h.callMove (List.mem_of_getElem? call) move (fun c' hc' => ?_) hmem
      (List.mem_iff_getElem?.mpr ⟨index, List.getElem?_set_self hlength⟩)
    · rw [htorn, List.append_nil]
      exact hcall.congr htabled rfl hcall.clock (Nat.le_refl _) (fun _ => rfl) fun _ => rfl
    · -- only the call that moves is not among the calls any more
      obtain ⟨i, hi⟩ := List.mem_iff_getElem?.mp hc'
      by_cases hindex : index = i
      · subst hindex
        exact Or.inr (Option.some.inj (hi.symm.trans call))
      · refine Or.inl (List.mem_iff_getElem?.mpr ⟨i, ?_⟩)
        rw [List.getElem?_set_ne hindex, hi]
  | noCall e index about missing =>
    have htorn : s.tornBy e = [] := by rcases about with rfl | rfl <;> rfl
    rwa [htorn, List.append_nil]
  | tick seconds =>
    change Accounted (torn ++ []) _ _
    rw [List.append_nil]
    exact h.congr htabled rfl orderly (Nat.le_refl _) (fun _ => rfl) fun _ => rfl
  | disk files =>
    change Accounted (torn ++ []) _ _
    rw [List.append_nil]
    exact h.congr htabled rfl h.clock (Nat.le_refl _) (fun _ => rfl) fun _ => rfl

theorem run (h : Accounted torn s.calls s) {events : List Event}
    (orderly : Along Orderly s events) :
    Accounted (torn ++ s.torn events) (s.run events).calls (s.run events) := by
  induction events generalizing s torn with
  | nil =>
    rw [Service.torn, List.append_nil]
    exact h
  | cons e rest ih =>
    rw [Service.torn, ← List.append_assoc]
    exact ih (h.step orderly.1) orderly.2

end Accounted

/-! ### Runs -/

namespace Service

/-- No call is midway, apart from those that drain, and none has met a directory that could not be
moved. -/
def Settled (s : Service) : Prop :=
  ∀ c ∈ s.calls, c.isBroken = false ∧ (c.isMidway = true → c.goal.isDrain = true)

instance (s : Service) : Decidable s.Settled :=
  inferInstanceAs (Decidable (∀ c ∈ s.calls, _))

/-- A call in a settled service dooms no job. -/
theorem Settled.not_dooms {s : Service} (h : s.Settled) {c : Call} (hc : c ∈ s.calls) {j : Job} :
    ¬ c.Dooms s.setup j := by
  obtain ⟨hwhole, hmidway⟩ := h c hc
  rintro ⟨hclaims, ⟨ids, hphase⟩ | ⟨f, hphase⟩⟩
  · have hdrain := hmidway (by rw [Call.isMidway, hphase])
    cases hgoal : c.goal with
    | drain patience => rwa [hgoal] at hclaims
    | delete | forget | sweep => rw [hgoal] at hdrain; cases hdrain
  · rw [Call.isBroken, hphase] at hwhole
    cases hwhole

/-- The job has not come to its end, and a submission did not leave it behind. -/
def isOpen (torn : List JobId) (j : Job) : Bool := !j.state.isFinal && !torn.contains j.id

end Service

namespace Accounted
variable {torn : List JobId} {s : Service}

/-- In a settled service exactly the open jobs have tasks. -/
theorem isSome_task?_iff (h : Accounted torn s.calls s) (settled : s.Settled) (id : JobId) :
    (s.task? id).isSome = true ↔ ∃ j, s.store.find? id = some j ∧ isOpen torn j = true := by
  constructor
  · intro hlive
    obtain ⟨t, task⟩ := Option.isSome_iff_exists.mp hlive
    obtain ⟨j, hj⟩ := Option.isSome_iff_exists.mp (h.registered id t task)
    obtain ⟨-, rfl⟩ := Store.find?_eq_some hj
    have hopen : j.state.isFinal = false := by
      rw [h.tabled.state _ t j task hj]
      cases t.phase <;> rfl
    have hkept : j.id ∉ torn := fun hid => nomatch (h.lost _ hid).1.symm.trans task
    exact ⟨j, hj, by simp [isOpen, hopen, hkept]⟩
  · rintro ⟨j, hj, hopen⟩
    obtain ⟨-, rfl⟩ := Store.find?_eq_some hj
    simp only [isOpen, Bool.and_eq_true, Bool.not_eq_true', List.contains_eq_mem,
      decide_eq_false_iff_not] at hopen
    by_contra hnone
    rcases h.idle j.id j hj hopen.1 (Option.not_isSome_iff_eq_none.mp hnone) with
      htorn | ⟨c, hc, hdooms⟩
    · exact hopen.2 htorn
    · exact settled.not_dooms hc hdooms

/-- So there are as many tasks as open jobs. -/
theorem inFlight_eq (h : Accounted torn s.calls s) (settled : s.Settled) :
    s.inFlight = s.store.jobs.countP (isOpen torn) := by
  have hperm : (s.tasks.map Task.job).Perm ((s.store.jobs.filter (isOpen torn)).map Job.id) := by
    refine (List.perm_ext_iff_of_nodup h.tabled.unique
      (h.tabled.numbered.unique.sublist (List.filter_sublist.map _))).mpr fun id => ?_
    have hiff := h.isSome_task?_iff settled id
    rw [task?_isSome] at hiff
    simp only [List.mem_map, List.mem_filter]
    refine hiff.trans ⟨?_, ?_⟩
    · rintro ⟨j, hj, hopen⟩
      obtain ⟨hmem, hid⟩ := Store.find?_eq_some hj
      exact ⟨j, ⟨hmem, hopen⟩, hid⟩
    · rintro ⟨j, ⟨hmem, hopen⟩, hid⟩
      exact ⟨j, h.tabled.numbered.find?_eq_some_iff.mpr ⟨hmem, hid⟩, hopen⟩
  rw [inFlight, List.countP_eq_length_filter]
  simpa using hperm.length_eq

end Accounted

namespace Sample

/-- One job at a time, and each is kept for an hour. -/
def setup : Setup where
  compiler := Compiler.standard
  engine := Engine.standard
  fetcher := ⟨["uploads"], .number (.finite 300), 1048576⟩
  slots := 1
  lifetime := .finite 3600
  minOutputBytes := 100000

def workRoot : FileTree := ⟨[([], .directory), (["work"], .directory)], []⟩

def service : Service := Service.begin setup ["work"] workRoot

/-- Of two jobs one is deleted while it waits, and the other one fails while the service is drained.
-/
def lastJobs : List Event :=
  [.submitted (.timeline timeline) none, .submitted (.timeline timeline) none, .moved (jobId 1),
    .moved (jobId 2), .asked (.delete (jobId 2)), .moved (jobId 2), .advanced 0, .advanced 0,
    .advanced 0, .asked (.drain (.finite 30)), .raised (jobId 1) "no network", .advanced 1]

end Sample

/-- A title that is half of a pair. -/
def Sample.halvedRequest : Json :=
  .obj [("clips", .arr [.obj [("source", .str "https://cdn.example.com/a.mp4"),
    ("overlays", .arr [.obj [("type", .str "text"), ("text", .string (.halved [0xd800]))]])]])]

/-- If jobs are kept for no time at all, a sweep removes a job that came while it waited for another
one, and the task of that job goes on. -/
example :
    let s := (Service.begin { Sample.setup with lifetime := .finite 0 } ["work"] Sample.workRoot).run
      [.submitted (.timeline Sample.timeline) none, .moved (jobId 1), .asked (.sweep (.finite 0)),
        .submitted (.timeline Sample.timeline) none, .moved (jobId 1), .advanced 0, .advanced 0,
        .advanced 0, .advanced 0]
    s.Settled ∧ (s.store.find? (jobId 2)).isNone = true ∧
      (s.task? (jobId 2)).any (fun t => !t.cancelled) = true := by
  decide +kernel

end Montage
