import Montage.Http.App
import Montage.Proofs.JobStates
import Montage.Proofs.OpenJobs
import Montage.Proofs.PlaceWatch

/-! # Outputs

A job is completed when its engine has ended well and what it left is large enough, and then the
record says how large.  From then on nobody writes to the output: the process has ended, no task
writes there, and what others do with the files is elsewhere (`Guarded`).  So whoever asks gets the
same bytes, until the job is removed (`Serves`).
-/
namespace Montage

open FileTree Service

/-! ### What is served -/

/-- The output of a job is a file, and the process that wrote it has ended well. -/
structure Serves (p : Path) (id : JobId) (h : Handle) (c : Content) (s : Service) : Prop where
  exited : s.process? id = some (.exited 0)
  reaches : s.store.files.Reaches p
  node : s.store.files.node? p = some (.file h)
  content : s.store.files.content? h = some c
  large : s.setup.minOutputBytes ≤ c.size

/-- If a job is completed its output is served, with the size that the record says. -/
structure Guarded (p : Path) (id : JobId) (s : Service) : Prop where
  place : p = s.store.directory id ++ [Job.outputName]
  watched : Watched p s
  file : s.store.files.node? p ≠ some .directory
  served : ∀ j, s.store.find? id = some j → j.state = .completed →
    ∃ h c, Serves p id h c s ∧ j.outputSize = some c.size

/-- The output is guarded, and what was served is served still. -/
structure Guards (p : Path) (id : JobId) (s s' : Service) : Prop where
  guarded : Guarded p id s'
  kept : ∀ h c, Serves p id h c s → Serves p id h c s'

section Steps
variable {p : Path} {id : JobId} {s s' s'' : Service}

theorem Guards.refl (h : Guarded p id s) : Guards p id s s := ⟨h, fun _ _ h => h⟩

theorem Guards.trans (h : Guards p id s s') (h' : Guards p id s' s'') : Guards p id s s'' :=
  ⟨h'.guarded, fun k c hserves => h'.kept k c (h.kept k c hserves)⟩

/-- What does not touch the output leaves it as it is. -/
theorem Serves.of_spares {k : Handle} {c : Content} (h : Serves p id k c s)
    (sane : s.store.files.Sane p) (setup : s'.setup = s.setup)
    (process : s.process? id = some (.exited 0) → s'.process? id = some (.exited 0))
    (spares : Spares p s.store.files s'.store.files) : Serves p id k c s' where
  exited := process h.exited
  reaches := spares.reaches (List.prefix_refl p) h.reaches
  node := spares.node.trans h.node
  content := (spares.content sane k h.node).trans h.content
  large := setup ▸ h.large

theorem Guarded.of_spares (h : Guarded p id s) (watched : Watched p s')
    (setup : s'.setup = s.setup) (root : s'.store.root = s.store.root)
    (process : s.process? id = some (.exited 0) → s'.process? id = some (.exited 0))
    (spares : Spares p s.store.files s'.store.files)
    (records : ∀ j', s'.store.find? id = some j' → j'.state = .completed →
      s.store.find? id = some j') : Guards p id s s' := by
  have hkept (k : Handle) (c : Content) (hserves : Serves p id k c s) : Serves p id k c s' :=
    hserves.of_spares h.watched.sane setup process spares
  refine ⟨⟨?_, watched, spares.node ▸ h.file, fun j' hj' completed => ?_⟩, hkept⟩
  · rw [Store.directory, root]
    exact h.place
  · obtain ⟨k, c, hserves, hsize⟩ := h.served j' (records j' hj' completed) completed
    exact ⟨k, c, hkept k c hserves, hsize⟩

/-! ### Moves -/

theorem Service.process?_of_processes (processes : s'.processes = s.processes) (id : JobId) :
    s'.process? id = s.process? id := by
  rw [process?, processes, process?]

/-- A process that has ended stays so. -/
theorem Quiet.process?_of_exited (move : Quiet id s s') {code : Int}
    (exited : s.process? id = some (.exited code)) : s'.process? id = some (.exited code) := by
  cases move with
  | spawn t plan watch task phase =>
    obtain ⟨q, hq, hstatus⟩ := Option.map_eq_some_iff.mp exited
    have hfirst : (s.addProcess id).process? id = some (.exited code) := by
      rw [process?, addProcess, List.find?_append, hq]
      exact congrArg some hstatus
    exact hfirst
  | exit code' running => cases exited.symm.trans running
  | kill running => cases exited.symm.trans running
  | leave t failure task holds gone killed =>
    rw [leave_eq]
    exact exited
  | _ => exact exited

theorem Advance.processes (move : Advance id s s') : s'.processes = s.processes := by
  cases move with
  | begin | render => rfl
  | complete t plan watch failure task phase exited size =>
    rw [leave_eq]
    rfl

/-- A record that is completed after a move was completed before it. -/
theorem Quiet.find?_of_completed (move : Quiet id s s') {j' : Job}
    (hj' : s'.store.find? id = some j') (completed : j'.state = .completed) :
    s.store.find? id = some j' := by
  obtain ⟨j, hj, hstays⟩ := move.state hj'
  obtain ⟨k, hk, hkeeps⟩ := move.follows.record j' hj'
  cases hj.symm.trans hk
  have hfinal : j.state.isFinal = true := by
    rcases hstays with hsame | ⟨-, hfailed⟩
    · rw [← hsame, completed]
      rfl
    · exact nomatch completed.symm.trans hfailed
  rw [hkeeps.final hfinal, hj]

theorem Guarded.quiet (plain : ".." ∉ s.store.root) (placed : Placed s) (h : Guarded p id s)
    (move : Quiet id s s') : Guards p id s s' := by
  have hframe := move.sameFrame
  obtain ⟨hwatched, htouched⟩ := WatchedFor.quiet plain placed h.watched trivial
    (Store.Reserved.outOfReach (Or.inr h.place) id) move
  cases htouched with
  | spared spares =>
    exact h.of_spares hwatched hframe.setup hframe.root move.process?_of_exited spares
      fun j' hj' completed => move.find?_of_completed hj' completed
  | output size place running made =>
    -- as long as the engine runs nothing is served
    have hnone (k : Handle) (c : Content) : ¬ Serves p id k c s := fun hserves =>
      nomatch running.symm.trans hserves.exited
    have hplain : ".." ∉ p := place ▸ Path.plain_concat
      (Store.plain_directory plain (placed.issued_of_process? running).ne_dots) (by decide)
    obtain ⟨-, -, -, k, hnode, -⟩ :=
      write_eq_ok hplain (place ▸ Path.concat_ne_nil) h.watched.sane made
    refine ⟨⟨?_, hwatched, by simp [hnode], fun j' hj' completed => ?_⟩,
      fun k c hserves => absurd hserves (hnone k c)⟩
    · rw [Store.directory, hframe.root]
      exact h.place
    · obtain ⟨k, c, hserves, -⟩ :=
        h.served j' (move.find?_of_completed hj' completed) completed
      exact absurd hserves (hnone k c)

/-- Only a job whose engine has ended well and has left enough is completed, and its record says how
much that is. -/
theorem Advance.completed (move : Advance id s s') (placed : Placed s)
    (date : Timestamp.check s.rounding s.now = .ok ()) {j' : Job}
    (hj' : s'.store.find? id = some j') (completed : j'.state = .completed) :
    s.process? id = some (.exited 0) ∧
      ∃ size, s.store.files.size? (s.store.directory id ++ [Job.outputName]) = size ∧
        s.setup.minOutputBytes ≤ (size.getD 0 : Nat) ∧ ∀ n, size = some n → j'.outputSize = some n := by
  obtain ⟨j, hj, hnext⟩ := move.state placed.tabled hj'
  have hrendering : j.state = .rendering :=
    JobState.eq_of_next? (hnext.trans (congrArg some completed)) rfl
  cases move with
  | begin t slots task awake slot =>
    have hphase := placed.tabled.state id t j task hj
    rw [hrendering] at hphase
    rcases slot with ⟨phase, -⟩ | ⟨phase, -⟩ <;> rw [phase] at hphase <;> cases hphase
  | render t plan task phase =>
    have hphase := placed.tabled.state id t j task hj
    rw [hrendering, phase] at hphase
    cases hphase
  | complete t plan watch failure task phase exited size =>
    refine ⟨exited, _, rfl, size, fun n hn => ?_⟩
    -- the record is the one that the store has made, which is final
    have hmoved := Store.find?_transition s.store s.rounding id .completed none none s.now id
    rw [hj, Option.map_some, if_pos rfl, Store.moved, hrendering, date] at hmoved
    obtain ⟨k, hk, hkeeps⟩ := (follows_leave (s := s.setStore (s.store.transition s.rounding id
      .completed none none s.now).2) (t := t) task failure fun _ k hk => by
        cases hk.symm.trans hmoved
        rfl).record j' hj'
    cases hk.symm.trans hmoved
    rw [hkeeps.final rfl]
    change (s.store.files.size? j.outputPath).or j.outputSize = some n
    rw [Job.outputPath, placed.directories id j hj, hn]
    rfl

theorem Guarded.advance (plain : ".." ∉ s.store.root) (placed : Placed s) (h : Guarded p id s)
    (min : 1 ≤ s.setup.minOutputBytes) (date : Timestamp.check s.rounding s.now = .ok ())
    (move : Advance id s s') : Guards p id s s' := by
  have hframe := move.sameFrame
  obtain ⟨hwatched, hspares⟩ := h.watched.advance move
  have hkept (k : Handle) (c : Content) (hserves : Serves p id k c s) : Serves p id k c s' :=
    hserves.of_spares h.watched.sane hframe.setup
      (fun exited => (process?_of_processes move.processes id).trans exited) hspares
  refine ⟨⟨?_, hwatched, hspares.node ▸ h.file, fun j' hj' completed => ?_⟩, hkept⟩
  · rw [Store.directory, hframe.root]
    exact h.place
  · obtain ⟨hexited, size, hsize, hlarge, hrecord⟩ := move.completed placed date hj' completed
    rw [← h.place] at hsize
    cases size with
    | none => exact absurd (Int.le_trans min hlarge) (by decide)
    | some n =>
      have hissued := placed.issued_of_process? hexited
      have hplain : ".." ∉ p := h.place ▸ Path.plain_concat
        (Store.plain_directory plain hissued.ne_dots) (by decide)
      obtain ⟨hreaches, k, c, hnode, hcontent, rfl⟩ :=
        (size?_eq_some hplain (h.place ▸ Path.concat_ne_nil) h.file).mp hsize
      exact ⟨k, c, hkept k c ⟨hexited, hreaches, hnode, hcontent, hlarge⟩, hrecord _ rfl⟩

theorem Guarded.moves {b : Bool} (plain : ".." ∉ s.store.root) (placed : Placed s)
    (h : Guarded p id s) (min : 1 ≤ s.setup.minOutputBytes)
    (date : Timestamp.check s.rounding s.now = .ok ()) (moves : Moves id s b s') :
    Guards p id s s' := by
  have hchain : (SameFrame s s' ∧ Placed s') ∧ Guards p id s s' := by
    refine moves.preserves (P := fun t => (SameFrame s t ∧ Placed t) ∧ Guards p id s t) ?_ ?_
      ⟨⟨⟨rfl, rfl, rfl, rfl, rfl, rfl⟩, placed⟩, .refl h⟩
    · rintro t u ⟨⟨hframe, hplaced⟩, hguards⟩ move
      exact ⟨⟨hframe.trans move.sameFrame, hplaced.quiet move⟩,
        hguards.trans (hguards.guarded.quiet (hframe.root ▸ plain) hplaced move)⟩
    · rintro t u ⟨⟨hframe, hplaced⟩, hguards⟩ move
      refine ⟨⟨hframe.trans move.sameFrame, hplaced.advance move⟩, hguards.trans ?_⟩
      refine hguards.guarded.advance (hframe.root ▸ plain) hplaced (hframe.setup ▸ min) ?_ move
      rw [rounding, hframe.setup, hframe.now]
      exact date
  exact hchain.2

/-! ### Events -/

/-- A submission makes a job, or its id is used up, or nothing happens. -/
theorem Guarded.submitted {submission : Submission} {answer : Except SubmitFault JobId}
    (plain : ".." ∉ s.store.root) (placed : Placed s)
    (h : Guarded p (jobId (s.store.issued + 1)) s) (outcome : Submitted s submission answer s') :
    s'.IsGone (jobId (s.store.issued + 1)) ∨ Guards p (jobId (s.store.issued + 1)) s s' := by
  have hreserved : s.store.Reserved (jobId (s.store.issued + 1)) p := Or.inr h.place
  have hreach := hreserved.outOfReach (jobId (s.store.issued + 1))
  have hne : p ≠ s.store.directory (jobId (s.store.issued + 1)) := by
    rw [h.place]
    exact fun heq => absurd (congrArg List.length heq) (by simp)
  have habove := hreserved.not_above hne
  have hframe := outcome.frame
  have hguards (watched : Watched p s') (spares : Spares p s.store.files s'.store.files) :
      Guards p (jobId (s.store.issued + 1)) s s' := by
    refine h.of_spares watched hframe.1 hframe.2.2.2.2.1
      (fun exited => (process?_of_processes hframe.2.2.2.2.2.1 _).trans exited) spares ?_
    intro j' hj' completed
    refine (outcome.record hj').resolve_right ?_
    rintro ⟨-, rfl⟩
    cases completed
  cases outcome with
  | refused => exact Or.inr (.refl h)
  | lost f files whole open' left =>
    exact Or.inl ⟨⟨_, Nat.le_refl _, rfl⟩, placed.tabled.numbered.find?_next⟩
  | torn run made files open' half date directory written =>
    have hspares := WatchedFor.spares_made plain h.watched habove hreach directory written
    exact Or.inr (hguards (h.watched.of_spares rfl hspares fun id t ds ht phase =>
      Or.inl ⟨t, ht, phase⟩) hspares)
  | accepted t made files open' checked date directory written =>
    exact Or.inr (hguards
      (WatchedFor.register plain h.watched habove hreach directory written (by simp))
      (WatchedFor.spares_made plain h.watched habove hreach directory written))

/-- **An event leaves a guarded output as it is**, unless it removes the job. -/
theorem Guarded.step {n : Nat} (plain : ".." ∉ s.store.root) (placed : Placed s)
    (h : Guarded p (jobId n) s) (min : 1 ≤ s.setup.minOutputBytes)
    (date : Timestamp.check s.rounding s.now = .ok ()) (e : Event) (avoids : Avoids p s e) :
    (s.step e).IsGone (jobId n) ∨ Guards p (jobId n) s (s.step e) := by
  have tabled := placed.tabled
  by_cases about : e.job? = some (jobId n)
  · obtain ⟨b, hmoves⟩ := step_moves about s
    exact Or.inr (h.moves plain placed min date hmoves)
  by_cases new : n = s.store.issued + 1 ∧ ∃ submission disk, e = .submitted submission disk
  · obtain ⟨rfl, submission, disk, rfl⟩ := new
    exact h.submitted plain placed (submit_cases tabled.numbered submission disk)
  by_cases removed : (s.store.find? (jobId n)).isSome = true ∧
      (s.step e).store.find? (jobId n) = none
  · obtain ⟨j, hj⟩ := Option.isSome_iff_exists.mp removed.1
    exact Or.inl ⟨(placed.issued_of_find? hj).mono (issued_step tabled.numbered e), removed.2⟩
  have hbelow : s.store.Below (jobId n) p := Store.Reserved.below (Or.inr h.place)
  obtain ⟨hwatched, hspares⟩ := h.watched.step_of_other plain placed hbelow (fun _ _ => trivial) about
    avoids (fun submission disk he heq => new ⟨heq, submission, disk, he⟩)
    fun there gone => removed ⟨there, gone⟩
  refine Or.inr (h.of_spares hwatched (setup_step tabled.numbered e) (root_step tabled.numbered e)
    (fun exited => (process?_step_of_other tabled about).trans exited) hspares ?_)
  intro j' hj' completed
  refine (record_step_of_other tabled about hj').resolve_right ?_
  rintro ⟨-, rfl⟩
  cases completed

theorem Guarded.run {n : Nat} (plain : ".." ∉ s.store.root) (placed : Placed s)
    (h : Guarded p (jobId n) s) (min : 1 ≤ s.setup.minOutputBytes) {events : List Event}
    (dated : Along (fun s _ => Timestamp.check s.rounding s.now = .ok ()) s events)
    (avoided : Along (Avoids p) s events) :
    (s.run events).IsGone (jobId n) ∨ Guards p (jobId n) s (s.run events) := by
  induction events generalizing s with
  | nil => exact Or.inr (.refl h)
  | cons e rest ih =>
    have tabled := placed.tabled
    rcases h.step plain placed min dated.1 e avoided.1 with hgone | hguards
    · exact Or.inl (hgone.run (tabled.step e) rest)
    · refine (ih ?_ (placed.step e) hguards.guarded ?_ dated.2 avoided.2).imp_right hguards.trans
      · rwa [root_step tabled.numbered]
      · rwa [setup_step tabled.numbered]

theorem guarded_begin {setup : Setup} {root : Path} {files : FileTree}
    (sane : files.Sane (root ++ [id, Job.outputName]))
    (absent : files.node? (root ++ [id, Job.outputName]) = none) :
    Guarded (root ++ [id, Job.outputName]) id (Service.begin setup root files) where
  place := by simp [Store.directory, Service.begin, Store.begin]
  watched := ⟨sane, fun _ _ _ _ h => nomatch h⟩
  file := fun h => nomatch absent.symm.trans h
  served := fun _ h => nomatch h

end Steps

/-! ### Requests -/

namespace Http

/-- A request for the output of a job. -/
structure Request.AsksOutput (r : Request) (id : JobId) : Prop where
  method : r.method = "GET"
  path : r.path = "/jobs/" ++ id ++ "/output"

theorem Endpoint.ofPath?_output (n : Nat) :
    Endpoint.ofPath? ("/jobs/" ++ jobId n ++ "/output") = some (.output (jobId n)) := by
  have hparts : ("/jobs/" ++ jobId n ++ "/output").toList.splitOn '/' =
      ["".toList, "jobs".toList, (jobId n).toList, "output".toList] := by
    have hjoined : ("/jobs/" ++ jobId n ++ "/output").toList =
        ['/'].intercalate ["".toList, "jobs".toList, (jobId n).toList, "output".toList] := by
      simp [List.intercalate]
    rw [hjoined, List.splitOn_intercalate]
    · have := not_mem_jobId (c := '/') (by decide) n
      simp [this]
    · simp
  have hword : isWord "output" "output" = true := by decide
  rw [Endpoint.ofPath?, hparts]
  simp [hword, jobId_ne_empty n]

/-- Asking for the output of a job leads to its output. -/
theorem App.begin_output (a : App) {r : Request} {n : Nat} (asks : r.AsksOutput (jobId n))
    (disk : Option DiskRefusal) : a.begin r disk = (a, a.output (jobId n)) := by
  have hcall : r.preflight? = none := by simp [Request.preflight?, asks.method]
  rw [App.begin, hcall, asks.path]
  simp only [Endpoint.ofPath?_output, Endpoint.takes, asks.method]
  rfl

end Http

/-! ### What clients get -/

/-- Whoever asks for the output of a job gets a content. -/
structure Service.Yields (s : Service) (id : JobId) (h : Handle) (c : Content) : Prop where
  opened : s.store.openOutput id = .ok h
  content : s.store.files.content? h = some c
  response : ∀ (a : Http.App) (r : Http.Request) (disk : Option DiskRefusal), a.service = s →
    r.AsksOutput id → a.begin r disk = (a, .ready ⟨200, .video c.size, some (id ++ ".mp4"), none⟩)

/-- Whoever asks for the output of a job is refused. -/
structure Service.Refuses (s : Service) (id : JobId) (f : StoreFault) (status : Nat) : Prop where
  opened : s.store.openOutput id = .error f
  response : ∀ (a : Http.App) (r : Http.Request) (disk : Option DiskRefusal), a.service = s →
    r.AsksOutput id → ∃ response, a.begin r disk = (a, .ready response) ∧ response.status = status

namespace Service
variable {s : Service} {n : Nat}

theorem Refuses.of_problem {f : StoreFault} {q : Problem}
    (opened : s.store.openOutput (jobId n) = .error f) (problem : f.problem? = some q) :
    s.Refuses (jobId n) f q.status where
  opened := opened
  response := fun a r disk ha asks => by
    refine ⟨Http.problemResponse q, ?_, rfl⟩
    rw [Http.App.begin_output a asks, Http.App.output, ha, opened]
    simp only [problem, Http.ofProblem?]

theorem refuses_of_open {j : Job} (hj : s.store.find? (jobId n) = some j)
    (notCompleted : j.state ≠ .completed) :
    s.Refuses (jobId n) (.notReady (jobId n) j.state) 409 := by
  have hopened : s.store.openOutput (jobId n) = .error (.notReady (jobId n) j.state) := by
    simp [Store.openOutput, hj, notCompleted]
  have hstatus : (Problem.notReady (some (jobId n)) (some j.state.word)).status = 409 := by
    unfold Problem.notReady
    split <;> rfl
  exact hstatus ▸ .of_problem hopened rfl

theorem refuses_of_gone (hnone : s.store.find? (jobId n) = none) :
    s.Refuses (jobId n) (.notFound (jobId n)) 404 := by
  have hopened : s.store.openOutput (jobId n) = .error (.notFound (jobId n)) := by
    simp [Store.openOutput, hnone]
  have hstatus : (Problem.notFound (some (jobId n))).status = 404 := rfl
  exact hstatus ▸ .of_problem hopened rfl

end Service

/-- The output of a job that is completed is open to everybody. -/
theorem Serves.yields {p : Path} {n : Nat} {h : Handle} {c : Content} {s : Service}
    (serves : Serves p (jobId n) h c s) (plain : ".." ∉ s.store.root) (placed : Placed s)
    (place : p = s.store.directory (jobId n) ++ [Job.outputName]) {j : Job}
    (hj : s.store.find? (jobId n) = some j) (completed : j.state = .completed) :
    s.Yields (jobId n) h c := by
  have hplain : ".." ∉ p := place ▸ Path.plain_concat
    (Store.plain_directory plain (jobId_ne_dots n)) (by decide)
  have hopened : s.store.openOutput (jobId n) = .ok h := by
    have hfile := openFile_of_reaches hplain (place ▸ Path.concat_ne_nil) serves.reaches serves.node
    rw [place, ← placed.directories _ j hj] at hfile
    simp only [Store.openOutput, hj, completed, if_true, Job.outputPath, hfile]
    rfl
  refine ⟨hopened, serves.content, fun a r disk ha asks => ?_⟩
  rw [Http.App.begin_output a asks, Http.App.output, ha, hopened]
  simp [serves.content]

namespace Sample

theorem noSoundtrack : (([] : List Clip).all fun c => c.mediaType == .audio) = true := rfl

/-- A single clip. -/
def film : Timeline where
  clips := [Clip.whole (file "beach.mp4") .video (.finite 1)]
  settings := .unset
  soundtrack := []
  soundtrack_audio := noSoundtrack

/-- What the probe program says of it. -/
def report : Probe.Outcome :=
  .ran "\x7b\"streams\": [\x7b\"codec_type\": \"video\"\x7d], \"format\": \x7b\"duration\": \"4.0\"\x7d\x7d" "" 0

/-- A job that is completed. -/
def rendered : List Event :=
  [.submitted (.timeline film) none, .moved (jobId 1), .download (jobId 1) 0 (.answered 200),
    .download (jobId 1) 0 (.data [1, 2, 3]), .download (jobId 1) 0 .ended,
    .download (jobId 1) 0 .settled, .moved (jobId 1), .probed (jobId 1) report,
    .spawned (jobId 1) .started, .produced (jobId 1) 50000, .exited (jobId 1) 0 (some 200000)]

/-- Another job fails, and is deleted. -/
def later : List Event :=
  [.ticked (.finite 60), .submitted (.timeline film) none, .moved (jobId 2),
    .raised (jobId 2) "no network", .asked (.delete (jobId 2)), .advanced 0, .advanced 0]

end Sample

end Montage
