import Montage.Proofs.StoreCalls
import Mathlib.Data.List.Induction

/-! # The history of a job

Whoever asks the store for a job gets the record of the moment, and compares it with what he was
told before.  Four things make these records worth comparing, for any calls in any order.

* A later record **extends** an earlier one (`Job.Extends`): the state has not changed or has a
  higher rank, the start stays once it is recorded, and a final record never changes again.
* Every record is **tidy** (`Job.Tidy`): nothing is recorded before its time.
* As long as the clock gives dates, every record is **complete** (`Job.Complete`): what belongs to
  a state is recorded with it.
* If the clock does not go backwards, the times of a record are **in order** (`Job.InOrder`).

Each of them is preserved by a step, and `record_induction` carries it through a run.
-/
namespace Montage

/-! ### Records that follow each other -/

/-- What a later record of a job keeps of an earlier one. -/
structure Job.Extends (a b : Job) : Prop where
  id : b.id = a.id
  directory : b.directory = a.directory
  created : b.created = a.created
  since : b.since = a.since
  forward : b.state = a.state ∨ a.state.rank < b.state.rank
  started : ∀ x, a.started = some x → b.started = some x
  final : a.state.isFinal = true → b = a

theorem Job.Extends.refl (a : Job) : a.Extends a :=
  ⟨rfl, rfl, rfl, rfl, Or.inl rfl, fun _ h => h, fun _ => rfl⟩

theorem Job.Extends.trans {a b c : Job} (hab : a.Extends b) (hbc : b.Extends c) : a.Extends c where
  id := hbc.id.trans hab.id
  directory := hbc.directory.trans hab.directory
  created := hbc.created.trans hab.created
  since := hbc.since.trans hab.since
  forward := by
    rcases hab.forward with h | h <;> rcases hbc.forward with h' | h'
    · exact Or.inl (h'.trans h)
    · exact Or.inr (h ▸ h')
    · exact Or.inr (h' ▸ h)
    · exact Or.inr (Nat.lt_trans h h')
  started := fun x hx => hbc.started x (hab.started x hx)
  final := fun h => by
    have hb := hab.final h
    subst hb
    exact hbc.final h

/-- Nothing is recorded before its time. -/
structure Job.Tidy (j : Job) : Prop where
  waiting : j.state = .queued → j.started = none
  stage : j.state.isFinal = true → j.stage = none
  outputSize : ∀ n, j.outputSize = some n → j.state = .completed
  error : ∀ e, j.error = some e → j.state = .failed ∧ e ≠ ""
  completed : ∀ x, j.completed = some x → j.state.isFinal = true

theorem Job.tidy_fresh (id : JobId) (directory : Path) (now steady : Number) :
    (Job.fresh id directory now steady).Tidy where
  waiting := fun _ => rfl
  stage := fun _ => rfl
  outputSize := nofun
  error := nofun
  completed := nofun

/-- A job that may still move has recorded neither an end nor an outcome. -/
theorem Job.Tidy.running {j : Job} (h : j.Tidy) (hfinal : j.state.isFinal = false) :
    j.outputSize = none ∧ j.error = none ∧ j.completed = none := by
  refine ⟨?_, ?_, ?_⟩
  · cases hs : j.outputSize with
    | none => rfl
    | some n => rw [h.outputSize n hs] at hfinal; cases hfinal
  · cases he : j.error with
    | none => rfl
    | some e => rw [(h.error e he).1] at hfinal; cases hfinal
  · cases hc : j.completed with
    | none => rfl
    | some x => rw [h.completed x hc] at hfinal; cases hfinal

/-- What belongs to a state is recorded with it. -/
structure Job.Complete (j : Job) : Prop where
  started : j.state = .downloading → j.started.isSome = true
  completed : j.state.isFinal = true → j.completed.isSome = true
  error : j.state = .failed → j.error.isSome = true

theorem Job.complete_fresh (id : JobId) (directory : Path) (now steady : Number) :
    (Job.fresh id directory now steady).Complete := ⟨nofun, nofun, nofun⟩

/-- The times of a record are among those of the past, and in order. -/
structure Job.InOrder (past : List Number) (j : Job) : Prop where
  created : j.created ∈ past
  started : ∀ x, j.started = some x → x ∈ past ∧ Number.le j.created x = true
  completed : ∀ y, j.completed = some y → Number.le j.created y = true ∧
    ∀ x, j.started = some x → Number.le x y = true

theorem Job.InOrder.mono {past past' : List Number} {j : Job} (h : j.InOrder past)
    (hsub : ∀ x ∈ past, x ∈ past') : j.InOrder past' where
  created := hsub _ h.created
  started := fun x hx => ⟨hsub x (h.started x hx).1, (h.started x hx).2⟩
  completed := h.completed

/-! ### What a step preserves -/

theorem orElseText_ne_empty (error : Option String) :
    Job.orElseText error Job.unexplained ≠ "" := by
  unfold Job.orElseText
  split
  · rename_i s
    split
    · decide
    · rename_i hs
      intro he
      rw [he] at hs
      exact hs rfl
  · decide

namespace Job.Step
variable {r : Rounding} {c : StoreCall} {j j' : Job}

theorem extends_of_tidy (h : Job.Step r c j j') (hj : j.Tidy) : j.Extends j' := by
  have hfinal := h.eq_of_isFinal
  cases h with
  | same => exact Job.Extends.refl j
  | note stage call =>
    unfold Job.note
    split
    · exact Job.Extends.refl j
    · rename_i hopen
      exact ⟨rfl, rfl, rfl, rfl, Or.inl rfl, fun _ hx => hx, fun h => absurd h hopen⟩
  | move state error stage size now call forward date =>
    have hrank := (JobState.canMoveTo_iff _ _).mp forward
    refine ⟨rfl, rfl, rfl, rfl, Or.inr hrank, fun x hx => ?_, hfinal⟩
    -- downloading can only be entered from the queue, where no start is recorded
    have hstate : state ≠ .downloading := by
      rintro rfl
      have hqueued : j.state = .queued := by
        cases hs : j.state <;> simp [hs, JobState.rank] at hrank ⊢
      rw [hj.waiting hqueued] at hx
      cases hx
    simpa [Job.move, hstate] using hx
  | enter state error stage now call forward fault noDate =>
    exact ⟨rfl, rfl, rfl, rfl, Or.inr ((JobState.canMoveTo_iff _ _).mp forward), fun _ hx => hx,
      hfinal⟩

theorem tidy (h : Job.Step r c j j') (hj : j.Tidy) : j'.Tidy := by
  -- nothing goes back into the queue
  have queued {state : JobState} (forward : j.state.canMoveTo state = true) : state ≠ .queued := by
    rintro rfl
    have := (JobState.canMoveTo_iff _ _).mp forward
    simp [JobState.rank] at this
  cases h with
  | same => exact hj
  | note stage call =>
    unfold Job.note
    split
    · exact hj
    · rename_i hfinal
      exact ⟨hj.waiting, fun h => absurd h hfinal, hj.outputSize, hj.error, hj.completed⟩
  | move state error stage size now call forward date =>
    obtain ⟨hsize, herror, hcompleted⟩ := hj.running (JobState.not_isFinal_of_canMoveTo forward)
    refine ⟨fun h => absurd h (queued forward), fun h => ?_, fun n hn => ?_, fun e he => ?_,
      fun x hx => ?_⟩
    · exact if_pos h
    · simp only [Job.move, hsize] at hn
      split at hn
      · assumption
      · cases hn
    · simp only [Job.move, herror] at he
      split at he
      · cases he
        exact ⟨by assumption, orElseText_ne_empty error⟩
      · cases he
    · simp only [Job.move, hcompleted] at hx
      split at hx
      · assumption
      · cases hx
  | enter state error stage now call forward fault noDate =>
    obtain ⟨hsize, herror, hcompleted⟩ := hj.running (JobState.not_isFinal_of_canMoveTo forward)
    refine ⟨fun h => absurd h (queued forward), fun h => if_pos h, fun n hn => ?_, fun e he => ?_,
      fun x hx => ?_⟩
    · exact nomatch hsize.symm.trans hn
    · exact nomatch herror.symm.trans he
    · exact nomatch hcompleted.symm.trans hx

theorem complete (h : Job.Step r c j j') (hj : j.Complete)
    (hdate : ∀ now ∈ c.reading?, Timestamp.check r now = .ok ()) : j'.Complete := by
  cases h with
  | same => exact hj
  | note stage call =>
    unfold Job.note
    split
    · exact hj
    · exact ⟨hj.started, hj.completed, hj.error⟩
  | move state error stage size now call forward date =>
    refine ⟨fun h => ?_, fun h => ?_, fun h => ?_⟩
    · have hstate : state = .downloading := h
      simp [Job.move, hstate]
    · have hstate : state.isFinal = true := h
      simp [Job.move, hstate]
    · have hstate : state = .failed := h
      simp [Job.move, hstate]
  | enter state error stage now call forward fault noDate =>
    -- this step is for times without a date
    subst call
    rw [hdate now rfl] at noDate
    cases noDate

theorem inOrder (h : Job.Step r c j j') (htidy : j.Tidy) {past : List Number}
    (hj : j.InOrder past)
    (hclock : ∀ now ∈ c.reading?, ∀ x ∈ past, Number.le x now = true) :
    j'.InOrder (past ++ c.reading?.toList) := by
  have hkept : j.InOrder (past ++ c.reading?.toList) :=
    hj.mono fun x hx => List.mem_append_left _ hx
  cases h with
  | same => exact hkept
  | note stage call =>
    unfold Job.note
    split
    · exact hkept
    · exact ⟨hkept.created, hkept.started, hkept.completed⟩
  | move state error stage size now call forward date =>
    subst call
    have hlater : ∀ x ∈ past, Number.le x now = true := hclock now rfl
    obtain ⟨-, -, hcompleted⟩ := htidy.running (JobState.not_isFinal_of_canMoveTo forward)
    refine ⟨hkept.created, fun x hx => ?_, fun y hy => ?_⟩
    · simp only [Job.move] at hx
      split at hx
      · cases hx
        exact ⟨List.mem_append_right _ (List.mem_singleton.mpr rfl), hlater _ hj.created⟩
      · exact hkept.started x hx
    · simp only [Job.move, hcompleted] at hy
      split at hy
      · rename_i hfinal
        cases hy
        -- the move that ends a job is not the one that starts it
        have hstate : state ≠ .downloading := by
          rintro rfl
          cases hfinal
        refine ⟨hlater _ hj.created, fun x hx => ?_⟩
        simp only [Job.move, hstate, if_false] at hx
        exact hlater x (hj.started x hx).1
      · cases hy
  | enter state error stage now call forward fault noDate =>
    exact ⟨hkept.created, hkept.started, hkept.completed⟩

end Job.Step

/-! ### Runs -/

section Runs
variable {r : Rounding} {root : Path} {files : FileTree}

theorem numbered_run (calls : List StoreCall) :
    ((Store.begin root files).run r calls).Numbered :=
  (Store.numbered_begin root files).run calls

/-- **What holds of a new record and is preserved by a step holds of every record in a run.** -/
theorem record_induction {P : List StoreCall → Job → Prop}
    (fresh : ∀ calls now steady id directory, Timestamp.check r now = .ok () →
      P (calls ++ [.create now steady]) (Job.fresh id directory now steady))
    (step : ∀ calls c j j', j ∈ ((Store.begin root files).run r calls).jobs →
      j' ∈ ((Store.begin root files).run r (calls ++ [c])).jobs → P calls j →
      Job.Step r c j j' → P (calls ++ [c]) j')
    (calls : List StoreCall) :
    ∀ j ∈ ((Store.begin root files).run r calls).jobs, P calls j := by
  -- from the end: a step is the last call of a run
  induction calls using List.reverseRecOn with
  | nil => exact fun j hj => absurd hj List.not_mem_nil
  | append_singleton calls c ih =>
    intro j' hj'
    rcases Store.mem_jobs_perform (Store.run_concat .. ▸ hj') with
      ⟨now, steady, rfl, hdate, rfl⟩ | ⟨j, hj, hstep⟩
    · exact fresh calls now steady _ _ hdate
    · exact step calls c j j' hj hj' (ih j hj) hstep

theorem tidy_run (calls : List StoreCall) :
    ∀ j ∈ ((Store.begin root files).run r calls).jobs, j.Tidy :=
  record_induction (fun _ now steady id directory _ => Job.tidy_fresh id directory now steady)
    (fun _ _ _ _ _ _ hj hstep => hstep.tidy hj) calls

/-- The readings of the clock that go into records. -/
def readings (calls : List StoreCall) : List Number := calls.filterMap StoreCall.reading?

theorem readings_concat (calls : List StoreCall) (c : StoreCall) :
    readings (calls ++ [c]) = readings calls ++ c.reading?.toList := by
  rw [readings, List.filterMap_append]
  cases h : c.reading? <;> simp [readings, h]

theorem complete_run {calls : List StoreCall}
    (hdates : ∀ now ∈ readings calls, Timestamp.check r now = .ok ()) :
    ∀ j ∈ ((Store.begin root files).run r calls).jobs, j.Complete := by
  refine fun j hj => record_induction (P := fun calls j =>
    (∀ now ∈ readings calls, Timestamp.check r now = .ok ()) → j.Complete)
    (fun _ now steady id directory _ _ => Job.complete_fresh id directory now steady) ?_ calls j hj
    hdates
  intro calls c j j' _ _ ih hstep hdates
  rw [readings_concat] at hdates
  refine hstep.complete (ih fun now hnow => hdates now (List.mem_append_left _ hnow)) ?_
  exact fun now hnow => hdates now (List.mem_append_right _ (Option.mem_toList.mpr hnow))

theorem inOrder_run {calls : List StoreCall}
    (hclock : (readings calls).Pairwise fun x y => Number.le x y = true) :
    ∀ j ∈ ((Store.begin root files).run r calls).jobs, j.InOrder (readings calls) := by
  refine fun j hj => record_induction (P := fun calls j =>
    ((readings calls).Pairwise fun x y => Number.le x y = true) → j.InOrder (readings calls))
    ?_ ?_ calls j hj hclock
  · intro calls now steady id directory _ _
    refine ⟨?_, nofun, nofun⟩
    rw [readings_concat]
    exact List.mem_append_right _ (List.mem_singleton.mpr rfl)
  · intro calls c j j' hj _ ih hstep hclock
    rw [readings_concat] at hclock ⊢
    obtain ⟨hpast, -, hnow⟩ := List.pairwise_append.mp hclock
    refine hstep.inOrder (tidy_run calls j hj) (ih hpast) fun now hreading x hx => ?_
    exact hnow x hx now (Option.mem_toList.mpr hreading)

/-- **A later record of a job extends an earlier one.**  An id is never given out again, so a
record with the id comes from the earlier one. -/
theorem extends_run (calls more : List StoreCall) {a b : Job}
    (ha : a ∈ ((Store.begin root files).run r calls).jobs)
    (hb : b ∈ ((Store.begin root files).run r (calls ++ more)).jobs) (hid : b.id = a.id) :
    a.Extends b := by
  induction more using List.reverseRecOn generalizing b with
  | nil =>
    rw [List.append_nil] at hb
    rw [List.inj_on_of_nodup_map (numbered_run calls).unique hb ha hid]
    exact Job.Extends.refl a
  | append_singleton more c ih =>
    rw [← List.append_assoc, Store.run_concat] at hb
    rcases Store.mem_jobs_perform hb with ⟨now, steady, -, -, rfl⟩ | ⟨j, hj, hstep⟩
    · -- the id of `a` was given out before the next one
      obtain ⟨n, hn, hida⟩ := (numbered_run calls).issued a ha
      have hle : ((Store.begin root files).run r calls).issued ≤
          ((Store.begin root files).run r (calls ++ more)).issued := by
        rw [Store.run_append]
        exact Store.issued_le_run more
      have := jobId_injective (hid.trans hida)
      omega
    · exact (ih hj (hstep.id_eq.symm.trans hid)).trans
        (hstep.extends_of_tidy (tidy_run (calls ++ more) j hj))

/-- The job with an id was downloading after some of the calls. -/
def EnteredDownloading (s : Store) (r : Rounding) (calls : List StoreCall) (id : JobId) : Prop :=
  ∃ before after j, calls = before ++ after ∧ (s.run r before).find? id = some j ∧
    j.state = .downloading

theorem EnteredDownloading.append {s : Store} {calls : List StoreCall} {id : JobId}
    (h : EnteredDownloading s r calls id) (more : List StoreCall) :
    EnteredDownloading s r (calls ++ more) id := by
  obtain ⟨before, after, j, rfl, hj, hstate⟩ := h
  exact ⟨before, after ++ more, j, List.append_assoc .., hj, hstate⟩

/-- A start is recorded only by entering the state in which files are downloaded. -/
theorem entered_of_started (calls : List StoreCall) :
    ∀ j ∈ ((Store.begin root files).run r calls).jobs, j.started.isSome = true →
      EnteredDownloading (Store.begin root files) r calls j.id := by
  refine record_induction (P := fun calls j => j.started.isSome = true →
    EnteredDownloading (Store.begin root files) r calls j.id) (fun _ _ _ _ _ _ h => nomatch h) ?_
    calls
  intro calls c j j' hj hj' ih hstep hstarted
  -- a start that was there before was entered before
  have kept (h : j.started.isSome = true) :
      EnteredDownloading (Store.begin root files) r (calls ++ [c]) j'.id := by
    rw [hstep.id_eq]
    exact (ih h).append [c]
  cases hstep with
  | same => exact kept hstarted
  | note stage call =>
    refine kept ?_
    unfold Job.note at hstarted
    split at hstarted <;> exact hstarted
  | enter state error stage now call forward fault noDate => exact kept hstarted
  | move state error stage size now call forward date =>
    by_cases hstate : state = .downloading
    · exact ⟨calls ++ [c], [], _, (List.append_nil _).symm,
        (numbered_run (calls ++ [c])).find?_eq_some_iff.mpr ⟨hj', rfl⟩, hstate⟩
    · simp only [Job.move, hstate, if_false] at hstarted
      exact kept hstarted

/-- With dates, a job that was downloading has a start from then on. -/
theorem started_of_entered {calls : List StoreCall}
    (hdates : ∀ now ∈ readings calls, Timestamp.check r now = .ok ()) {j : Job}
    (hj : j ∈ ((Store.begin root files).run r calls).jobs)
    (h : EnteredDownloading (Store.begin root files) r calls j.id) : j.started.isSome = true := by
  obtain ⟨before, after, a, rfl, ha, hstate⟩ := h
  obtain ⟨ha, hid⟩ := Store.find?_eq_some ha
  have hbefore : ∀ now ∈ readings before, Timestamp.check r now = .ok () := fun now hnow =>
    hdates now (by rw [readings, List.filterMap_append]; exact List.mem_append_left _ hnow)
  obtain ⟨x, hx⟩ := Option.isSome_iff_exists.mp ((complete_run hbefore a ha).started hstate)
  rw [(extends_run before after ha hj hid.symm).started x hx]
  rfl

/-! ### The history -/

/-- **What callers may rely on when they watch a job**, over calls of any number and in any order.
-/
theorem job_history (r : Rounding) (root : Path) (files : FileTree) (calls : List StoreCall) :
    -- what a call hands out is the record of that moment
    (∀ c js, (((Store.begin root files).run r calls).perform r c).1 = .ok js → ∀ j ∈ js,
      ((Store.begin root files).run r (calls ++ [c])).find? j.id = some j) ∧
    (∀ more id a b, ((Store.begin root files).run r calls).find? id = some a →
      ((Store.begin root files).run r (calls ++ more)).find? id = some b → a.Extends b) ∧
    (∀ id j, ((Store.begin root files).run r calls).find? id = some j → j.Tidy) ∧
    -- a refused move changes nothing
    (∀ id state error stage now f,
      (((Store.begin root files).run r calls).transition r id state error stage now).1 =
        .error f → ((∀ g, f ≠ .clock g) ∨ Timestamp.check r now = .ok ()) →
      (((Store.begin root files).run r calls).transition r id state error stage now).2 =
        (Store.begin root files).run r calls) ∧
    ((∀ now ∈ readings calls, Timestamp.check r now = .ok ()) →
      ∀ id j, ((Store.begin root files).run r calls).find? id = some j →
        (j.error.isSome = true ↔ j.state = .failed) ∧
        (j.completed.isSome = true ↔ j.state.isFinal = true) ∧
        (j.started.isSome = true ↔
          EnteredDownloading (Store.begin root files) r calls id)) ∧
    (((readings calls).Pairwise fun x y => Number.le x y = true) →
      ∀ id j, ((Store.begin root files).run r calls).find? id = some j →
        (∀ x, j.started = some x → Number.le j.created x = true) ∧
        ∀ y, j.completed = some y → Number.le j.created y = true ∧
          ∀ x, j.started = some x → Number.le x y = true) := by
  refine ⟨?_, ?_, ?_, ?_, ?_, ?_⟩
  · intro c js hjs j hj
    rw [(numbered_run (calls ++ [c])).find?_eq_some_iff, Store.run_concat]
    exact ⟨Store.mem_jobs_of_perform hjs hj, rfl⟩
  · intro more id a b ha hb
    obtain ⟨hmem, rfl⟩ := Store.find?_eq_some ha
    obtain ⟨hmem', hid⟩ := Store.find?_eq_some hb
    exact extends_run calls more hmem hmem' hid
  · intro id j hj
    exact tidy_run calls j (Store.find?_eq_some hj).1
  · intro id state error stage now f hf hclock
    rcases Store.transition_cases (s := (Store.begin root files).run r calls) (r := r) id state
      error stage now with
      ⟨-, heq⟩ | ⟨j, -, ⟨-, heq⟩ | ⟨-, ⟨-, heq⟩ | ⟨g, hnone, heq⟩⟩⟩ <;> rw [heq] at hf ⊢
    · cases hf
    · cases hf
      rcases hclock with hclock | hdate
      · exact absurd rfl (hclock g)
      · exact nomatch hdate.symm.trans hnone
  · intro hdates id j hj
    obtain ⟨hmem, rfl⟩ := Store.find?_eq_some hj
    have htidy := tidy_run calls j hmem
    have hcomplete := complete_run hdates j hmem
    refine ⟨⟨fun h => ?_, hcomplete.error⟩, ⟨fun h => ?_, hcomplete.completed⟩,
      entered_of_started calls j hmem, started_of_entered hdates hmem⟩
    · obtain ⟨e, he⟩ := Option.isSome_iff_exists.mp h
      exact (htidy.error e he).1
    · obtain ⟨x, hx⟩ := Option.isSome_iff_exists.mp h
      exact htidy.completed x hx
  · intro hclock id j hj
    have horder := inOrder_run hclock j (Store.find?_eq_some hj).1
    exact ⟨fun x hx => (horder.started x hx).2, horder.completed⟩

end Runs

namespace Sample

/-- A job that fails while it renders, and is asked to go on all the same. -/
def calls : List StoreCall :=
  [.create (.finite 0) (.finite 0), .transition (jobId 1) .downloading none none (.finite 1),
    .transition (jobId 1) .rendering none (some "Encoding") (.finite 2),
    .setStage (jobId 1) "Encoding (50%)", .transition (jobId 1) .failed (some "") none (.finite 3),
    .transition (jobId 1) .completed none none (.finite 4)]

def store : Store := Store.begin ["work"] ⟨[(["work"], .directory)], []⟩

end Sample

theorem job_history_sample :
    ∃ j, (Sample.store.run .exact Sample.calls).find? (jobId 1) = some j ∧ j.state = .failed ∧
      j.error.isSome = true ∧ j.stage = none ∧ j.started.isSome = true ∧
      j.completed.isSome = true ∧ ∀ x, j.started = some x → Number.le j.created x = true := by
  obtain ⟨-, -, htidy, -, hdated, hclock⟩ :=
    job_history .exact ["work"] ⟨[(["work"], .directory)], []⟩ Sample.calls
  have hfound : ((Sample.store.run .exact Sample.calls).find? (jobId 1)).isSome = true := by
    decide +kernel
  have hstate : ((Sample.store.run .exact Sample.calls).find? (jobId 1)).map Job.state =
      some .failed := by decide +kernel
  obtain ⟨j, hj⟩ := Option.isSome_iff_exists.mp hfound
  rw [hj] at hstate
  have hfailed : j.state = .failed := Option.some.inj hstate
  have hfinal : j.state.isFinal = true := by rw [hfailed]; rfl
  obtain ⟨herror, hcompleted, hstarted⟩ := hdated (by decide +kernel) (jobId 1) j hj
  refine ⟨j, hj, hfailed, herror.mpr hfailed, (htidy _ j hj).stage hfinal, ?_,
    hcompleted.mpr hfinal, (hclock (by decide +kernel) (jobId 1) j hj).1⟩
  exact hstarted.mpr ⟨Sample.calls.take 2, Sample.calls.drop 2,
    ⟨jobId 1, ["work", jobId 1], .downloading, none, none, none, .finite 0, some (.finite 1), none,
      .finite 0⟩, rfl, by decide +kernel, rfl⟩

end Montage
