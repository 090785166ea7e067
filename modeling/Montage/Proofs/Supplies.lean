import Montage.Proofs.JobStates

/-! # What a job fetches

While a job fetches its assets there is one download for each item of its list, in the order of the
list (`Supplied`).  So downloads write among the assets of their own job, and giving them up takes
nothing but their part files away.
-/
namespace Montage

open FileTree Service

/-! ### Items -/

/-- What a download is to bring, and where to. -/
def Download.item (d : Download) : MediaSource × Path := (d.source, d.target)

namespace Download
variable (d : Download) (t : FileTree)

theorem item_fail (fault : FetchFault) : (d.fail t fault).1.item = d.item := by
  unfold fail
  split <;> rfl

theorem item_settle (size : Nat) : (d.settle t size).1.item = d.item := by
  unfold settle
  split
  · exact item_fail d t _
  · split
    · rfl
    · exact item_fail d t _

theorem item_copy (f : Fetcher) : (d.copy f t).1.item = d.item := by
  unfold copy
  split
  · exact item_fail d t _
  · split
    · exact item_fail d t _
    · split
      · exact item_fail d t _
      · exact item_settle d _ _

theorem item_receive : (d.receive t).1.item = d.item := by
  unfold receive
  split <;> rfl

theorem item_begin (status : Nat) (url : String) : (d.begin t status url).1.item = d.item := by
  unfold begin
  split
  · rfl
  · split
    · exact item_receive d t
    · rfl

/-- An event changes nothing of what a download is for. -/
theorem item_step (f : Fetcher) (e : DownloadEvent) : (d.step f t e).1.item = d.item := by
  unfold step
  split
  · rfl
  · cases e with
    | settled =>
      dsimp only
      split
      · exact item_settle d t _
      · exact item_fail d t _
      · rfl
    | copied =>
      dsimp only
      split
      · exact item_copy d t f
      · rfl
    | answered status =>
      dsimp only
      split
      · exact item_begin d t _ _
      · rfl
    | abandoned | refused fault => rfl
    | data | ended | timedOut | broken | unasked =>
      dsimp only
      split <;> rfl

/-- A download that is given up takes its part file away and writes nothing. -/
theorem spares_abandoned {p assets : Path} {name : String} (plain : ".." ∉ assets)
    (target : d.target = assets ++ [name]) (hp : ¬ assets <+: p) (f : Fetcher) :
    Spares p t (d.step f t .abandoned).2 ∧ (d.step f t .abandoned).2.contents = t.contents := by
  unfold step
  split
  · exact ⟨.refl p t, rfl⟩
  · dsimp only
    rw [part_eq target]
    have hplain := Path.plain_concat plain (ne_dots_of_part name)
    refine ⟨.discard hplain Path.concat_ne_nil fun h => hp (h ▸ List.prefix_append _ _), ?_⟩
    exact contents_discard hplain Path.concat_ne_nil

end Download

namespace Downloads
variable {ds : Downloads} {t : FileTree}

theorem items_step (ds : Downloads) (f : Fetcher) (t : FileTree) (index : Nat)
    (e : DownloadEvent) : (ds.step f t index e).1.map Download.item = ds.map Download.item := by
  unfold step
  split
  · rfl
  · rename_i d hd
    obtain ⟨hi, rfl⟩ := List.getElem?_eq_some_iff.mp hd
    rw [List.map_set, Download.item_step, ← List.getElem_map Download.item, List.set_getElem_self]
    simpa using hi

theorem items_begin (items : List (MediaSource × Path)) :
    (Downloads.begin items).map Download.item = items := by
  rw [begin, List.map_map]
  exact List.map_id items

/-- Downloads that are given up take their part files away and write nothing. -/
theorem spares_abandon_of_targets {p assets : Path} (plain : ".." ∉ assets) (hp : ¬ assets <+: p)
    (targets : ∀ d ∈ ds, ∃ name, d.target = assets ++ [name]) (f : Fetcher) :
    Spares p t (ds.abandon f t).2 ∧ (ds.abandon f t).2.contents = t.contents := by
  induction ds generalizing t with
  | nil => exact ⟨.refl p t, rfl⟩
  | cons d rest ih =>
    obtain ⟨name, target⟩ := targets d List.mem_cons_self
    obtain ⟨hspares, hcontents⟩ := d.spares_abandoned t plain target hp f
    obtain ⟨hspares', hcontents'⟩ := ih (t := (d.step f t .abandoned).2) fun d' hd' =>
      targets d' (List.mem_cons_of_mem d hd')
    exact ⟨hspares.trans hspares', hcontents'.trans hcontents⟩

end Downloads

/-! ### Runs -/

/-- The downloads of a job are those of its list. -/
def Supplied (s : Service) : Prop :=
  ∀ id t ds, s.task? id = some t → t.phase = .fetching ds → ds = [] ∨
    fetchItems t.timeline (s.store.directory id ++ [Job.assetsName]) 0 t.timeline.sources =
      .ok (ds.map Download.item)

namespace Supplied
variable {s s' : Service} {id : JobId}

theorem begin (setup : Setup) (root : Path) (files : FileTree) :
    Supplied (Service.begin setup root files) := fun _ _ _ h => nomatch h

/-- The tasks that fetch are those that did before, with the same lists. -/
theorem of_tasks (h : Supplied s) (root : s'.store.root = s.store.root)
    (tasks : ∀ id t' ds, s'.task? id = some t' → t'.phase = .fetching ds →
      (∃ t ds₀, s.task? id = some t ∧ t.phase = .fetching ds₀ ∧ t'.timeline = t.timeline ∧
        ds.map Download.item = ds₀.map Download.item) ∨ ds = [] ∨
      fetchItems t'.timeline (s.store.directory id ++ [Job.assetsName]) 0 t'.timeline.sources =
        .ok (ds.map Download.item)) : Supplied s' := by
  intro id t' ds task' phase'
  have hdirectory : s'.store.directory id = s.store.directory id := by
    rw [Store.directory, root, Store.directory]
  rw [hdirectory]
  rcases tasks id t' ds task' phase' with ⟨t, ds₀, task, phase, htimeline, hitems⟩ | hnew
  · rw [htimeline, hitems]
    refine (h id t ds₀ task phase).imp_left ?_
    rintro rfl
    simpa using hitems
  · exact hnew

/-- The tasks are the same, or some are over. -/
theorem of_fewer (h : Supplied s) (root : s'.store.root = s.store.root)
    (tasks : ∀ id t', s'.task? id = some t' → ∃ t, s.task? id = some t ∧ t'.phase = t.phase ∧
      t'.timeline = t.timeline) : Supplied s' := by
  refine h.of_tasks root fun id t' ds task' phase' => Or.inl ?_
  obtain ⟨t, task, hphase, htimeline⟩ := tasks id t' task'
  exact ⟨t, ds, task, hphase.symm.trans phase', htimeline, rfl⟩

theorem endTask_fewer {t' : Task} {other : JobId} (task' : (s.endTask id).task? other = some t') :
    ∃ t, s.task? other = some t ∧ t'.phase = t.phase ∧ t'.timeline = t.timeline := by
  rw [task?_endTask] at task'
  split at task'
  · cases task'
  · exact ⟨t', task', rfl, rfl⟩

/-- A task stands somewhere else. -/
theorem setPhase (h : Supplied s) (root : s'.store.root = s.store.root)
    (tasks : s'.tasks = s.tasks) {phase : TaskPhase}
    (new : ∀ t ds, s.task? id = some t → phase = .fetching ds →
      (∃ ds₀, t.phase = .fetching ds₀ ∧ ds.map Download.item = ds₀.map Download.item) ∨ ds = [] ∨
      fetchItems t.timeline (s.store.directory id ++ [Job.assetsName]) 0 t.timeline.sources =
        .ok (ds.map Download.item)) :
    Supplied (s'.setPhase id phase) := by
  refine h.of_tasks root fun other t' ds task' phase' => ?_
  rw [task?_setPhase, task?, tasks] at task'
  obtain ⟨t, task, rfl⟩ := Option.map_eq_some_iff.mp task'
  by_cases hother : other = id
  · subst hother
    simp only [if_pos] at phase' ⊢
    rcases new t ds task phase' with ⟨ds₀, phase₀, hitems⟩ | hnew
    · exact Or.inl ⟨t, ds₀, task, phase₀, rfl, hitems⟩
    · exact Or.inr hnew
  · simp only [hother, if_false] at phase' ⊢
    exact Or.inl ⟨t, ds, task, phase', rfl, rfl⟩

theorem quiet (h : Supplied s) (placed : Placed s) (move : Quiet id s s') : Supplied s' := by
  have hstand {u : Service} (root : u.store.root = s.store.root) (tasks : u.tasks = s.tasks)
      {phase : TaskPhase} (hphase : ∀ ds, phase ≠ .fetching ds) : Supplied (u.setPhase id phase) :=
    h.setPhase root tasks fun t ds _ hfetching => absurd hfetching (hphase ds)
  cases move with
  | note | write | exit | kill => exact h.of_fewer rfl fun i t' task' => ⟨t', task', rfl, rfl⟩
  | download t ds index e task phase =>
    refine h.setPhase rfl rfl fun u ds' task' hphase => Or.inl ⟨ds, ?_, ?_⟩
    · cases task.symm.trans task'
      exact phase
    · cases hphase
      exact Downloads.items_step ds _ _ _ _
  | fetch t j items task phase found targets =>
    refine h.setPhase rfl rfl fun u ds' task' hphase => Or.inr (Or.inr ?_)
    cases task.symm.trans task'
    cases hphase
    rw [Downloads.items_begin]
    rwa [Job.assets, placed.directories _ j found] at targets
  | probe | watch | spawn | wait => exact hstand rfl rfl (by simp)
  | vanish t task phase told => exact h.of_fewer rfl fun i t' => endTask_fewer
  | resign t task phase told =>
    exact h.of_fewer Store.transition_frame.1 fun i t' => endTask_fewer
  | leave t failure task holds gone killed =>
    rw [leave_eq]
    exact h.of_fewer root_leftStore fun i t' => endTask_fewer

theorem advance (h : Supplied s) (move : Advance id s s') : Supplied s' := by
  cases move with
  | begin t slots task awake slot =>
    have hroot : ((s.setSlots slots).setStore (s.store.transition s.rounding id .downloading none
        (some "Fetching assets") s.now).2).store.root = s.store.root := Store.transition_frame.1
    refine h.setPhase hroot rfl fun u ds task' hphase => Or.inr (Or.inl ?_)
    exact (TaskPhase.fetching.inj hphase).symm
  | render t plan task phase =>
    have hroot : (s.setStore (s.store.transition s.rounding id .rendering none
        (some "Compiling timeline") s.now).2).store.root = s.store.root := Store.transition_frame.1
    exact h.setPhase hroot rfl fun u ds _ hphase => nomatch hphase
  | complete t plan watch failure task phase exited size =>
    rw [leave_eq]
    exact h.of_fewer (root_leftStore.trans Store.transition_frame.1) fun i t' => endTask_fewer

theorem moves {b : Bool} (h : Supplied s) (placed : Placed s) (moves : Moves id s b s') :
    Supplied s' := by
  have hchain : Placed s' ∧ Supplied s' :=
    moves.preserves (P := fun t => Placed t ∧ Supplied t)
      (fun t u ⟨hplaced, hsupplied⟩ move => ⟨hplaced.quiet move, hsupplied.quiet hplaced move⟩)
      (fun t u ⟨hplaced, hsupplied⟩ move => ⟨hplaced.advance move, hsupplied.advance move⟩)
      ⟨placed, h⟩
  exact hchain.2

/-- Calls do not change what is fetched. -/
theorem callMove (h : Supplied s) {goal : Goal} {phase phase' : CallPhase} {calls : List Call}
    (move : CallMove s goal phase s' phase') : Supplied { s' with calls } := by
  have hcancel {s : Service} (h : Supplied s) (id : JobId) : Supplied (s.cancel id) := by
    refine h.of_fewer rfl fun i t' task' => ?_
    rw [task?_cancel] at task'
    obtain ⟨t, task, rfl⟩ := Option.map_eq_some_iff.mp task'
    refine ⟨t, task, ?_⟩
    split <;> exact ⟨rfl, rfl⟩
  have hsame {u : Service} (h : Supplied u) : Supplied { u with calls } :=
    h.of_fewer rfl fun i t' task' => ⟨t', task', rfl, rfl⟩
  cases move with
  | tell finished id rest t ended task => exact hsame (hcancel h id)
  | lose jobs live left settled =>
    refine hsame ?_
    clear left settled hsame
    induction live generalizing s with
    | nil => exact h
    | cons id rest ih => exact ih (hcancel h id)
  | remove finished trash store removing ended detached =>
    exact h.of_fewer (sameFrame_detachAll detached).root fun i t' task' => ⟨t', task', rfl, rfl⟩
  | refuse finished f store removing ended detached =>
    exact h.of_fewer (sameFrame_detachAll detached).root fun i t' task' => ⟨t', task', rfl, rfl⟩
  | idle | clear | cleared | drained | astray =>
    exact h.of_fewer rfl fun i t' task' => ⟨t', task', rfl, rfl⟩

theorem step (h : Supplied s) (placed : Placed s) (e : Event) : Supplied (s.step e) := by
  generalize hs' : s.step e = s'
  have hcases := step_cases placed.tabled.numbered e
  rw [hs'] at hcases
  cases hcases with
  | job id e b s' about moves => exact h.moves placed moves
  | submit submission disk s' outcome =>
    refine h.of_tasks outcome.frame.2.2.2.2.1 fun id t' ds task' phase' => ?_
    rcases outcome.task task' with hold | ⟨-, hnew⟩
    · exact Or.inl ⟨t', ds, hold, phase', rfl, rfl⟩
    · exact nomatch hnew.symm.trans phase'
  | ask goal s' phase removing move started => exact h.callMove move
  | call e index c s' phase about call move => exact h.callMove move
  | drain | noCall | tick | disk => exact h.of_fewer rfl fun i t' task' => ⟨t', task', rfl, rfl⟩

theorem run (h : Supplied s) (placed : Placed s) (events : List Event) :
    Supplied (s.run events) := by
  induction events generalizing s with
  | nil => exact h
  | cons e rest ih => exact ih (h.step placed e) (placed.step e)

/-- Downloads write among the assets of their job. -/
theorem targets (h : Supplied s) {t : Task} {ds : Downloads} (task : s.task? id = some t)
    (phase : t.phase = .fetching ds) {d : Download} (hd : d ∈ ds) :
    ∃ name, d.target = s.store.directory id ++ [Job.assetsName] ++ [name] := by
  rcases h id t ds task phase with rfl | hitems
  · cases hd
  · exact fetchItems_targets hitems d.item (List.mem_map_of_mem hd)

end Supplied
end Montage
