import Montage.Proofs.JobTracks
import Montage.Proofs.Submissions

/-! # A job from its submission to its end

Before a job is submitted nothing is where its directory will be (`Vacant`).  The submission makes the
directory and the task (`Vacant.taken`).  From then on the job is where its brief says, whatever others
do, if it is left alone (`Undisturbed`); so what it comes to can be told from what it has heard
(`Guides.verdict`).
-/
namespace Montage

open FileTree Path

namespace Service
variable {s : Service} {n : Nat} {e : Event}

/-! ### Before the submission -/

/-- Without a job its events do nothing. -/
theorem step_of_unissued {id : JobId} (placed : Placed s) (new : ¬ s.store.Issued id)
    (own : e.job? = some id) : s.step e = s := by
  have task : s.task? id = none :=
    Option.eq_none_iff_forall_ne_some.mpr fun t task => new (placed.issued_of_task? task)
  have hlisten : s.listening? id = none := by
    rw [listening?, task]
    rfl
  have idle : s.process? id ≠ some .running := fun running => new (placed.issued_of_process? running)
  cases e with
  | submitted | asked | advanced | outOfPatience | ticked | disk => cases own
  | moved job | download job =>
    cases own
    simp only [step, task]
  | probed job | spawned job | wrote job | raised job =>
    cases own
    simp only [step, hlisten]
  | produced job =>
    cases own
    rw [step, if_neg idle]
  | exited job =>
    cases own
    rw [step, takeEnd, if_neg idle]
  | strayed job =>
    cases own
    rw [step, stray, if_neg]
    exact fun hissued => new (Store.issued_of_hasIssued hissued)

/-- No id is taken back. -/
theorem issued_le_run (placed : Placed s) (events : List Event) :
    s.store.issued ≤ (s.run events).store.issued := by
  induction events generalizing s with
  | nil => exact Nat.le_refl _
  | cons e rest ih => exact Nat.le_trans (issued_step placed.tabled.numbered e) (ih (placed.step e))

/-- The id of a job was not given out yet, and nothing is where its directory will be. -/
structure Vacant (n : Nat) (s : Service) : Prop where
  later : s.store.issued < n
  watched : ∀ p, s.store.Below (jobId n) p → WatchedFor (fun other => other ≠ jobId n) p s
  bare : ∀ p, s.store.Below (jobId n) p → s.store.files.node? p = none

namespace Vacant

theorem step (plain : ".." ∉ s.store.root) (placed : Placed s) (h : Vacant n s)
    (avoids : ∀ p, s.store.Below (jobId n) p → Avoids p s e)
    (later : (s.step e).store.issued < n) : Vacant n (s.step e) := by
  have hnew := Store.not_issued_jobId h.later
  by_cases own : e.job? = some (jobId n)
  · rw [step_of_unissued placed hnew own]
    exact h
  have hdirectory : (s.step e).store.directory (jobId n) = s.store.directory (jobId n) := by
    rw [Store.directory, root_step placed.tabled.numbered, Store.directory]
  -- a submission that would take the id comes to nothing
  by_cases taken : ∃ submission disk, e = .submitted submission disk ∧ n = s.store.issued + 1
  · obtain ⟨submission, disk, rfl, rfl⟩ := taken
    have houtcome := submit_cases placed.tabled.numbered submission disk
    change (s.submit submission disk).2.store.issued < s.store.issued + 1 at later
    change Vacant (s.store.issued + 1) (s.submit submission disk).2
    generalize (s.submit submission disk).2 = s' at houtcome later
    generalize (s.submit submission disk).1 = answer at houtcome
    cases houtcome with
    | refused => exact h
    | lost | torn | accepted => exact absurd later (Nat.lt_irrefl _)
  have hspares (p : Path) (hp : s.store.Below (jobId n) p) :=
    (h.watched p hp).step_of_other plain placed hp (fun _ h => h) own (avoids p hp)
      (fun submission disk he hn => taken ⟨submission, disk, he, hn⟩) fun there => by
        obtain ⟨j, hj⟩ := Option.isSome_iff_exists.mp there
        exact absurd (placed.issued_of_find? hj) hnew
  refine ⟨later, fun p hp => ?_, fun p hp => ?_⟩
  · rw [Store.Below, hdirectory] at hp
    exact (hspares p hp).1
  · rw [Store.Below, hdirectory] at hp
    exact (hspares p hp).2.node.trans (h.bare p hp)

theorem run (plain : ".." ∉ s.store.root) (placed : Placed s) (h : Vacant n s) {events : List Event}
    (avoided : Along (fun s e => ∀ p, s.store.Below (jobId n) p → Avoids p s e) s events)
    (later : (s.run events).store.issued < n) : Vacant n (s.run events) := by
  induction events generalizing s with
  | nil => exact h
  | cons e rest ih =>
    have hlater := Nat.lt_of_le_of_lt (issued_le_run (placed.step e) rest) later
    exact ih (root_step placed.tabled.numbered e ▸ plain) (placed.step e)
      (h.step plain placed avoided.1 hlater) avoided.2 later

end Vacant

/-! ### The submission -/

/-- What an accepted submission does to the files. -/
structure Taken (s : Service) (timeline : Timeline) (made files : FileTree) (id : JobId)
    (s' : Service) : Prop where
  id_eq : id = jobId (s.store.issued + 1)
  makes : s.store.files.makeDirectory (s.store.directory id) = .ok made
  writes : ∃ u c d, made.write (s.store.directory id ++ ["request.json"]) c = .ok u ∧
    u.write (s.store.directory id ++ ["timeline.json"]) d = .ok files
  result : s' = { s with
    store := s.store.register s.now files, tasks := s.tasks ++ [⟨id, timeline, .created, false⟩] }

theorem giveUp_ne_ok (s : Service) (id id' : JobId) (f : FileFault) : (s.giveUp id f).1 ≠ .ok id' := by
  rw [giveUp]
  split <;> exact fun h => by cases h

theorem taken_of_accept {submission : Submission} {disk : Option DiskRefusal} {id : JobId}
    {timeline : Timeline} (accepted : (s.accept submission timeline disk).1 = .ok id) :
    ∃ made files, s.Taken timeline made files id (s.accept submission timeline disk).2 := by
  unfold accept at accepted ⊢
  rcases heq : s.store.create s.rounding s.now with ⟨answer, store⟩
  rw [heq] at accepted
  simp only [Store.create] at heq
  split at heq
  · cases heq
    cases accepted
  · rename_i made hmade
    split at heq
    · cases heq
      cases accepted
    · cases heq
      dsimp only at accepted ⊢
      split at accepted
      · exact absurd accepted (giveUp_ne_ok _ _ _ _)
      · rename_i u hrequest
        split at accepted
        · cases accepted
        · rename_i whole
          split at accepted
          · exact absurd accepted (giveUp_ne_ok _ _ _ _)
          · rename_i files htimeline
            cases accepted
            exact ⟨made, files, rfl, hmade, ⟨u, _, _, write_of_writeRequest hrequest,
              write_of_storeTimeline htimeline⟩, rfl⟩

theorem taken_of_submit {submission : Submission} {disk : Option DiskRefusal} {id : JobId}
    {timeline : Timeline} (read : submission.read = .ok timeline)
    (accepted : (s.submit submission disk).1 = .ok id) :
    ∃ made files, s.Taken timeline made files id (s.submit submission disk).2 := by
  unfold submit at accepted ⊢
  split at accepted
  · rename_i hopen
    simp only [read] at accepted ⊢
    cases hcheck : timeline.check s.rounding with
    | error f =>
      rw [hcheck] at accepted
      cases accepted
    | ok _ =>
      rw [hcheck] at accepted
      simp only [hopen, if_true]
      exact taken_of_accept accepted
  · cases accepted

end Service

/-- A new directory is empty. -/
theorem FileTree.Estate.of_made {t u : FileTree} {base : Path} (taken : Handle → Prop)
    (plain : ".." ∉ base) (given : base ≠ []) (made : t.makeDirectory base = .ok u)
    (sane : ∀ p, base <+: p → t.Sane p) (bare : ∀ p, base <+: p → t.node? p = none)
    (apart : ∀ k, taken k → k < t.contents.length) :
    u.Estate base taken ∧ ∀ p, Inside base p → u.node? p = none := by
  have hspares (p : Path) (hp : Inside base p) := Spares.makeDirectory plain
    (fun hle => hp.2 (hle.eq_of_length (Nat.le_antisymm hle.length_le hp.1.length_le))) made
  obtain ⟨hkept, hdirectory⟩ := hspares _ (inside_concat base "0")
  obtain ⟨hreaches, hnode⟩ := (isDirectory_iff plain given).mp hdirectory
  have hempty (p : Path) (hp : Inside base p) : u.node? p = none :=
    (hspares p hp).1.node.trans (bare p hp.1)
  have hfile (p : Path) (hp : base <+: p) (k : Handle) : u.node? p ≠ some (.file k) := by
    intro hk
    by_cases heq : p = base
    · subst heq
      cases hnode.symm.trans hk
    · cases (hempty p ⟨hp, heq⟩).symm.trans hk
  refine ⟨⟨hreaches, hnode, fun p hp _ hd => ?_, ?_, fun p hp q k hk _ => absurd hk (hfile p hp k),
    fun k hk => ⟨Nat.lt_of_lt_of_le (apart k hk) hkept.grows, fun p hp => hfile p hp k⟩⟩, hempty⟩
  · cases (hempty p hp).symm.trans hd
  · exact (hkept.sane (sane _ (List.prefix_append _ _))).known

namespace Service
variable {s : Service} {n : Nat}

/-- **A job that is taken has its directory to itself**, and waits. -/
theorem Vacant.taken (plain : ".." ∉ s.store.root) (placed : Placed s) (h : Vacant n s)
    (hn : n = s.store.issued + 1) {b : Brief} (root : s.store.root = b.root) {made files : FileTree}
    {s' : Service} (taken : s.Taken b.timeline made files (jobId n) s') :
    AtHome (jobId n) s' ∧ b.Tracks (jobId n) s' [] [] := by
  have hplain := Store.plain_directory plain (jobId_ne_dots n)
  have hwithin := (h.watched _ (List.prefix_refl _)).within
  obtain ⟨-, hmakes, ⟨u, c, d, hrequest, htimeline⟩, rfl⟩ := taken
  -- the directory is new, and two files are written there
  obtain ⟨hmade, hempty⟩ := FileTree.Estate.of_made (s.OpenElsewhere (jobId n)) hplain
    Store.directory_ne_nil hmakes (fun p hp => (h.watched p hp).sane) h.bare
    fun k ⟨other, hother, t, ds, task, phase, d, hd, size, receiving⟩ =>
      ((hwithin other hother t ds task phase d hd).2 k size receiving).1
  have hwritten := hmade.write hrequest
  have hestate := hwritten.write htimeline
  have hnothing (name : String) (hfirst : name ≠ "request.json") (hsecond : name ≠ "timeline.json") :
      files.node? (s.store.directory (jobId n) ++ [name]) = none := by
    obtain ⟨u', hu', -, hfirstKeeps⟩ := hmade.write_entry hplain requestName_stands (by decide) c
    obtain rfl : u = u' := Except.ok.inj (hrequest.symm.trans hu')
    obtain ⟨files', hfiles', -, hsecondKeeps⟩ :=
      hwritten.write_entry hplain timelineName_stands (by decide) d
    obtain rfl : files = files' := Except.ok.inj (htimeline.symm.trans hfiles')
    rw [(hsecondKeeps _ (List.prefix_append _ _) (entry_ne_entry hsecond)).node,
      (hfirstKeeps _ (List.prefix_append _ _) (entry_ne_entry hfirst)).node]
    exact hempty _ (inside_concat _ name)
  have hshown (name : String) (hfirst : name ≠ "request.json") (hsecond : name ≠ "timeline.json") :
      files.shown? (s.store.directory (jobId n) ++ [name]) = none := by
    rw [shown?, hnothing name hfirst hsecond]
  have hhome : s.store.directory (jobId n) = b.home (jobId n) := by
    rw [Store.directory, root, Brief.home]
  have htask (other : JobId) := task?_append s ⟨jobId n, b.timeline, .created, false⟩ other
  refine ⟨AtHome.of_targets (fun other hother t ds task phase d hd =>
    (hwithin other hother t ds task phase d hd).1) rfl hestate fun other hother => ?_, ?_⟩
  · exact (htask other).trans (by rw [if_neg hother.symm, Option.or_none])
  · subst hn
    refine .early .created (Or.inl rfl) ?_ ?_
    · have hfind : (s.store.register s.now files).find? (jobId (s.store.issued + 1)) =
          some (s.store.newJob s.now s.now) := by
        rw [Store.find?_register, placed.tabled.numbered.find?_next, if_pos rfl, Option.none_or]
      have hnew := (htask (jobId (s.store.issued + 1))).trans
        (by rw [placed.tabled.task?_next, if_pos rfl, Option.none_or])
      have hidle : s.process? (jobId (s.store.issued + 1)) = none :=
        Option.eq_none_iff_forall_ne_some.mpr fun status process =>
          Store.not_issued_jobId h.later (placed.issued_of_process? process)
      refine View.ext ?_ hnew hidle (hshown _ (by decide) (by decide)) ?_
      · exact (congrArg (Option.map Job.standing) hfind).trans (by rw [Brief.working, ← hhome]; rfl)
      · exact congrArg (Option.map Content.size) (hshown Job.outputName (by decide) (by decide))
    · rw [Brief.assets, ← hhome]
      exact hnothing _ (by decide) (by decide)

/-! ### After the submission -/

/-- A job is left alone: nobody tells its task to stop, others leave its directory alone, and the clock has
a date.  A task that is not told to stop gives no copy up, so as long as it is there no copy strays. -/
structure Undisturbed (id : JobId) (s : Service) (e : Event) : Prop where
  awake : ∀ t, (s.step e).task? id = some t → t.cancelled = false
  calm : s.task? id ≠ none → ∀ name c, e ≠ .strayed id name c
  avoids : ∀ p, s.store.Below id p → Avoids p s e
  date : Timestamp.check s.rounding s.now = .ok ()

end Service

open Service

namespace Brief
variable {b : Brief} {s : Service} {n : Nat} {deliveries : List Delivery} {notices : List Notice}

/-- A job is on its way, in a directory of its own. -/
structure Guides (b : Brief) (n : Nat) (s : Service) (deliveries : List Delivery)
    (notices : List Notice) : Prop where
  plain : ".." ∉ s.store.root
  placed : Placed s
  supplied : Supplied s
  issued : s.store.Issued (jobId n)
  home : AtHome (jobId n) s
  brief : s.setup.brief s.store.root b.timeline = b
  tracks : b.Tracks (jobId n) s deliveries notices

namespace Guides

theorem hosted (h : b.Guides n s deliveries notices)
    (date : Timestamp.check s.rounding s.now = .ok ()) : b.Hosted (jobId n) s := by
  have hbrief := h.brief
  have hroot : s.store.root = b.root := congrArg Brief.root hbrief
  have hhome : s.store.directory (jobId n) = b.home (jobId n) := by
    rw [Store.directory, hroot, Brief.home]
  exact ⟨congrArg Brief.compiler hbrief, congrArg Brief.engine hbrief, congrArg Brief.fetcher hbrief,
    congrArg Brief.minOutputBytes hbrief, hroot, date,
    hhome ▸ Store.plain_directory h.plain (jobId_ne_dots n), ⟨_, hhome ▸ h.home.estate⟩⟩

/-- **With each event that leaves the job alone the brief goes with it.** -/
theorem step (h : b.Guides n s deliveries notices) {e : Event} (undisturbed : Undisturbed (jobId n) s e)
    (stays : (s.step e).store.find? (jobId n) ≠ none) :
    b.Guides n (s.step e) (deliveries ++ s.deliveriesTo (jobId n) e)
      (notices ++ s.noticesTo (jobId n) e) := by
  have hnumbered := h.placed.tabled.numbered
  have hroot := root_step hnumbered e
  have hrest (home : AtHome (jobId n) (s.step e)) (tracks : b.Tracks (jobId n) (s.step e)
      (deliveries ++ s.deliveriesTo (jobId n) e) (notices ++ s.noticesTo (jobId n) e)) :
      b.Guides n (s.step e) (deliveries ++ s.deliveriesTo (jobId n) e)
        (notices ++ s.noticesTo (jobId n) e) := {
    plain := hroot ▸ h.plain
    placed := h.placed.step e
    supplied := h.supplied.step h.placed e
    issued := h.issued.mono (issued_step hnumbered e)
    home
    brief := by rw [setup_step hnumbered, hroot, h.brief]
    tracks }
  by_cases own : e.job? = some (jobId n)
  · obtain ⟨_, hmoves⟩ := step_moves own s
    exact hrest (h.home.moves h.plain h.placed h.supplied hmoves)
      (.step_own (h.hosted undisturbed.date) h.tracks own undisturbed.calm)
  · obtain ⟨hhome, huntouched⟩ :=
      h.home.step_of_other h.plain h.placed own undisturbed.avoids h.issued stays
    exact hrest hhome (h.tracks.step_of_other (congrArg Brief.root h.brief)
      (h.home.view_step_of_other h.plain h.placed own undisturbed.avoids h.issued stays
        undisturbed.awake) huntouched own)

/-- **A job that is left alone and not removed goes where its brief says.** -/
theorem run (h : b.Guides n s deliveries notices) {events : List Event}
    (undisturbed : Along (Undisturbed (jobId n)) s events)
    (stays : (s.run events).store.find? (jobId n) ≠ none) :
    b.Guides n (s.run events) (deliveries ++ s.journal (deliveriesTo (jobId n)) events)
      (notices ++ s.journal (noticesTo (jobId n)) events) := by
  induction events generalizing s deliveries notices with
  | nil => simpa [journal] using h
  | cons e rest ih =>
    have hnow : (s.step e).store.find? (jobId n) ≠ none := fun gone =>
      stays (IsGone.run ⟨h.issued.mono (issued_step h.placed.tabled.numbered e), gone⟩
        (h.placed.step e).tabled rest).2
    have hrest := ih (h.step undisturbed.1 hnow) undisturbed.2 stays
    rwa [List.append_assoc, List.append_assoc] at hrest

/-- **A job that has ended has come to the verdict of its brief.** -/
theorem verdict (h : b.Guides n s deliveries notices) {j : Job}
    (hj : s.store.find? (jobId n) = some j) (final : j.state.isFinal = true) :
    b.Complete deliveries notices ∧ ∃ v, b.station deliveries notices = .ended v ∧
      j.state = v.state ∧ j.error = v.error (jobId n) ∧ j.outputSize = v.outputSize ∧
      s.store.files.read? (s.store.directory (jobId n) ++ [Job.planName]) = v.plan.map .text := by
  have hstanding : (s.view (jobId n)).standing = some j.standing :=
    congrArg (Option.map Job.standing) hj
  have hopen {state : JobState} {phase : TaskPhase} {process : Option ProcessStatus}
      {plan : Option String} {output : Option Nat} (hstate : state.isFinal = false)
      (seen : s.view (jobId n) = b.working (jobId n) state phase process plan output) : False := by
    rw [seen] at hstanding
    have heq : state = j.state := congrArg Standing.state (Option.some.inj hstanding)
    rw [← heq, hstate] at final
    cases final
  have hplan : s.store.files.read? (s.store.directory (jobId n) ++ [Job.planName]) =
      (s.view (jobId n)).plan :=
    read?_of_reaches (Path.plain_concat (Store.plain_directory h.plain (jobId_ne_dots n)) (by decide))
      Path.concat_ne_nil (h.home.estate.reaches_entry ⟨by decide, by decide, by decide⟩)
  rw [hplan]
  cases h.tracks with
  | early phase early seen bare => exact (hopen rfl seen).elim
  | fetching fetches => exact (hopen rfl fetches.seen).elim
  | arrived complete seen =>
    refine ⟨complete, ?_⟩
    generalize hstation : b.station deliveries notices = station at seen
    generalize hview : s.view (jobId n) = view at seen hstanding
    cases seen with
    | probing | starting | encoding => exact (hopen rfl hview).elim
    | ended v process output =>
      have heq := (Option.some.inj hstanding).symm
      exact ⟨v, rfl, congrArg Standing.state heq, congrArg Standing.error heq,
        congrArg Standing.outputSize heq, rfl⟩

end Guides
end Brief

end Montage
