import Montage.Proofs.JobViews
import Montage.Proofs.Wordings

/-! # From station to station

A job that has its files stands at a station, and that can be seen (`Station.Seen`).  With each event of the
job the service does what the brief of the job says of the station (`Station.Seen.step`).
-/
namespace Montage

open FileTree Path Service

namespace Brief
variable (b : Brief) (id : JobId)

/-- The directory of the job. -/
def home : Path := b.root ++ [id]

/-- What is to be fetched, with the path as the service has it. -/
def placed (item : MediaSource × Path) : MediaSource × Path := (item.1, b.home id ++ item.2)

/-- What can be seen of a job that is worked on. -/
def working (state : JobState) (phase : TaskPhase) (process : Option ProcessStatus)
    (plan : Option String) (output : Option Nat) : View :=
  ⟨some ⟨b.home id, state, none, none⟩, some ⟨id, b.timeline, phase, false⟩, process,
    plan.map .text, output⟩

/-- The service is set up as the brief says, the clock has a date, and the job has its directory to
itself. -/
structure Hosted (s : Service) : Prop where
  compiler : s.setup.compiler = b.compiler
  engine : s.setup.engine = b.engine
  fetcher : s.setup.fetcher = b.fetcher
  minOutputBytes : s.setup.minOutputBytes = b.minOutputBytes
  root : s.store.root = b.root
  date : Timestamp.check s.rounding s.now = .ok ()
  plain : ".." ∉ b.home id
  estate : ∃ taken, s.store.files.Estate (b.home id) taken

end Brief

/-- What can be seen of a job at a station.  When the job is over its process may go on. -/
inductive Station.Seen (b : Brief) (id : JobId) : Station → View → Prop where
  | probing (done : List (String × Asset)) (left : List (MediaSource × Path)) :
    Seen b id (.probing done left)
      (b.working id .downloading (.probing done (left.map (b.placed id))) none none none)
  | starting (plan : TextPlan) :
    Seen b id (.starting plan)
      (b.working id .rendering (.starting plan) none (some plan.written) none)
  | encoding (plan : TextPlan) (watch : Engine.Watch) (size : Option Nat) :
    Seen b id (.encoding plan watch size)
      (b.working id .rendering (.encoding plan watch) (some .running) (some plan.written) size)
  | ended (v : Verdict) (process : Option ProcessStatus) (output : Option Nat) :
    Seen b id (.ended v)
      ⟨some ⟨b.home id, v.state, v.error id, v.outputSize⟩, none, process, v.plan.map .text, output⟩

namespace Brief
variable {b : Brief} {id : JobId} {s : Service}

namespace Hosted

theorem congr {s' : Service} (h : b.Hosted id s) (setup : s'.setup = s.setup) (now : s'.now = s.now)
    (root : s'.store.root = s.store.root)
    (estate : ∃ taken, s'.store.files.Estate (b.home id) taken) : b.Hosted id s' where
  compiler := setup ▸ h.compiler
  engine := setup ▸ h.engine
  fetcher := setup ▸ h.fetcher
  minOutputBytes := setup ▸ h.minOutputBytes
  root := root.trans h.root
  date := by rw [Service.rounding, setup, now]; exact h.date
  plain := h.plain
  estate := estate

theorem directory (h : b.Hosted id s) : s.store.directory id = b.home id := by
  rw [Store.directory, h.root, Brief.home]

end Hosted

/-! ### Ends -/

variable {state : JobState} {phase : TaskPhase} {process : Option ProcessStatus}
  {plan : Option String} {output : Option Nat}

/-- **A job fails with what is said of it.** -/
theorem seen_leave (hosted : b.Hosted id s)
    (seen : s.view id = b.working id state phase process plan output)
    (open' : state.isFinal = false) (failure : Wording) :
    (Station.fail failure plan).Seen b id ((s.leave id (some (failure.text id))).view id) := by
  rw [view_leave seen rfl open' hosted.date]
  exact .ended (.failed failure plan) process output

/-- What a process has come to is taken. -/
theorem seen_takeResult (hosted : b.Hosted id s) {plan : TextPlan}
    (seen : s.view id = b.working id .rendering phase process (some plan.written) output)
    (result : Engine.Result) :
    (b.result result plan output).Seen b id ((s.takeResult id result).view id) := by
  have hstand : CanStand Job.outputName := ⟨by decide, by decide, by decide⟩
  obtain ⟨taken, hestate⟩ := hosted.estate
  have hsize : s.store.files.size? (b.home id ++ [Job.outputName]) = output := by
    rw [size?_of_reaches (Path.plain_concat hosted.plain hstand.other) Path.concat_ne_nil
      (hestate.reaches_entry hstand) (hestate.file (by decide))]
    have := congrArg View.output seen
    rwa [view, hosted.directory] at this
  rw [takeResult, Brief.result]
  cases result.accept with
  | error f => exact seen_leave hosted seen rfl (.plain _)
  | ok _ =>
    dsimp only
    rw [hosted.directory, hsize, hosted.minOutputBytes]
    by_cases hsmall : ((output.getD 0 : Nat) : Int) < b.minOutputBytes
    · rw [if_pos hsmall, if_pos hsmall]
      exact seen_leave hosted seen rfl (.plain _)
    · rw [if_neg hsmall, if_neg hsmall]
      obtain ⟨j, store, htransition, -, -, -, hview⟩ :=
        transition_ok seen rfl .completed rfl hosted.date none none
      have hstanding : Standing.move ⟨b.home id, .rendering, none, none⟩ .completed none
          (s.store.files.size? (b.home id ++ [Job.outputName])) =
            ⟨b.home id, .completed, none, output⟩ := by
        simp [Standing.move, hsize]
      rw [hstanding] at hview
      rw [htransition]
      dsimp only
      rw [leave_eq]
      have hleft := view_endTask
        (s := ((s.setStore store).setSlots (s.setStore store).slots.release).setStore store) hview
      rw [leftStore, store_setStore, hleft]
      exact .ended ⟨.completed, none, some plan.written, output⟩ process output

/-! ### Probing and compiling -/

theorem seen_compile (hosted : b.Hosted id s) {phase' : TaskPhase}
    (seen : s.view id = b.working id .downloading phase none none none)
    (done : List (String × Asset)) :
    (b.compile done).Seen b id ((s.compile ⟨id, b.timeline, phase', false⟩ done).view id) := by
  obtain ⟨j, store, htransition, hdirectory, hroot, hfiles, hview⟩ :=
    transition_ok seen rfl .rendering rfl hosted.date none (some "Compiling timeline")
  have hhosted : b.Hosted id (s.setStore store) :=
    hosted.congr rfl rfl hroot (by rw [store_setStore, hfiles]; exact hosted.estate)
  have hseen : (s.setStore store).view id = b.working id .rendering phase none none none := hview
  have hstand : CanStand Job.planName := ⟨by decide, by decide, by decide⟩
  obtain ⟨taken, hestate⟩ := hhosted.estate
  rw [Service.compile, Brief.compile, htransition]
  dsimp only
  rw [show (s.setStore store).setup.compiler = b.compiler from hosted.compiler]
  cases b.compiler.compile b.timeline fun key => done.lookup key with
  | error f => exact seen_leave hhosted hseen rfl (.plain _)
  | ok plan =>
    obtain ⟨files, hwrite, hplan, hothers⟩ :=
      hestate.write_entry hosted.plain hstand (by decide) (.text plan.toText.written)
    have hfile : j.directory ++ ["plan.json"] = b.home id ++ [Job.planName] := by
      rw [hdirectory]
      rfl
    have houtput : files.shown? (b.home id ++ [Job.outputName]) =
        (s.setStore store).store.files.shown? (b.home id ++ [Job.outputName]) :=
      (hothers _ (List.prefix_append _ _) (entry_ne_entry (by decide))).shown?_eq
    have hnone : ((s.setStore store).store.files.shown?
        (b.home id ++ [Job.outputName])).map Content.size = none := by
      have := congrArg View.output hseen
      rwa [view, hhosted.directory] at this
    dsimp only
    rw [hfile]
    rw [TextPlan.written] at hwrite
    rw [hwrite]
    have hplan' : files.shown? ((s.setStore store).store.directory id ++ [Job.planName]) =
        some (.text plan.toText.written) := by rw [hhosted.directory, hplan]
    have houtput' : (files.shown? ((s.setStore store).store.directory id ++ [Job.outputName])).map
        Content.size = none := by rw [hhosted.directory, houtput, hnone]
    have hset := view_setFiles hseen files hplan' houtput'
    have hfinal := view_setPhase (view_note hset "Encoding") rfl (.starting plan.toText)
    dsimp only
    rw [hfinal]
    exact .starting plan.toText

theorem seen_continueProbing (hosted : b.Hosted id s) {phase' : TaskPhase}
    (seen : s.view id = b.working id .downloading phase none none none)
    (done : List (String × Asset)) (left : List (MediaSource × Path)) :
    (b.continueProbing done left).Seen b id
      ((s.continueProbing ⟨id, b.timeline, phase', false⟩ done (left.map (b.placed id))).view id) := by
  cases left with
  | nil => exact seen_compile hosted seen done
  | cons item rest =>
    rw [List.map_cons, Service.continueProbing, ← List.map_cons]
    · rw [view_setPhase seen rfl]
      exact .probing done (item :: rest)
    · simp

theorem seen_takeProbed (hosted : b.Hosted id s)
    (seen : s.view id = b.working id .downloading phase none none none)
    (outcome : Probe.Outcome) (done : List (String × Asset)) (source : MediaSource) (path : Path)
    (left : List (MediaSource × Path)) :
    (b.probe outcome done source path left).Seen b id
      ((s.takeProbed ⟨id, b.timeline, phase, false⟩ outcome done source (b.home id ++ path)
        (left.map (b.placed id))).view id) := by
  rw [takeProbed, probe_path (b.home id ++ path).text, Brief.probe]
  cases Probe.probe "" outcome with
  | ok info =>
    dsimp only
    have hasset : assetOf (s.store.directory id) (b.home id ++ path) info = assetOf [] path info := by
      rw [hosted.directory, assetOf, assetOf]
      simp [Path.below?]
    rw [hasset]
    exact seen_continueProbing hosted seen _ left
  | error f =>
    cases f with
    | noStream p =>
      dsimp only
      rw [Brief.home, ← b.text_probeFailure_noStream source path id ""]
      exact seen_leave hosted seen rfl _
    | _ => exact seen_leave hosted seen rfl (.plain _)

/-! ### The engine -/

theorem seen_takeSpawned (hosted : b.Hosted id s) (plan : TextPlan)
    (seen : s.view id = b.working id .rendering phase none (some plan.written) none)
    (outcome : SpawnOutcome) :
    (b.spawn plan outcome).Seen b id
      ((s.takeSpawned ⟨id, b.timeline, phase, false⟩ plan outcome).view id) := by
  cases outcome with
  | refused m => exact seen_leave hosted seen rfl (.plain _)
  | missing =>
    rw [takeSpawned, Brief.spawn, hosted.engine]
    exact seen_takeResult hosted seen _
  | started =>
    have hadd := view_addProcess seen rfl
    have hhosted : b.Hosted id (s.addProcess id) := hosted.congr rfl rfl rfl hosted.estate
    rw [takeSpawned, Brief.spawn]
    dsimp only
    rw [show (s.addProcess id).setup.engine = b.engine from hosted.engine]
    cases Engine.Watch.begin b.engine with
    | error f => exact seen_leave hhosted hadd rfl (.plain _)
    | ok watch =>
      dsimp only
      rw [view_setPhase hadd rfl]
      exact .encoding plan watch none

/-- Notes of progress change a record and nothing that is seen. -/
theorem view_noteTimes {v : View} (seen : s.view id = v) (plan : TextPlan) (times : List Number) :
    ∃ store, s.noteTimes id plan times =
        (s.setStore store, Engine.timesFault? s.rounding plan.duration times) ∧
      store.root = s.store.root ∧ store.files = s.store.files ∧ (s.setStore store).view id = v := by
  induction times generalizing s with
  | nil => exact ⟨s.store, rfl, rfl, rfl, seen⟩
  | cons time rest ih =>
    rw [noteTimes, Engine.timesFault?]
    cases Engine.share s.rounding plan.duration time with
    | none => exact ih seen
    | some share =>
      dsimp only
      cases Engine.percent s.rounding share with
      | error f => exact ⟨s.store, rfl, rfl, rfl, seen⟩
      | ok percent => exact ih (view_note seen _)

/-- What a process has written is read as the brief says. -/
theorem view_readOutput (hosted : b.Hosted id s) {v : View} (seen : s.view id = v) (plan : TextPlan)
    (watch : Engine.Watch) (written : Engine.Written) :
    ∃ s', s.readOutput id plan watch written = (s', b.read plan watch written) ∧ b.Hosted id s' ∧
      s'.view id = v := by
  have hrounding : s.rounding = b.rounding := by
    rw [Service.rounding, hosted.compiler, Brief.rounding]
  obtain ⟨store, htimes, hroot, hfiles, hview⟩ :=
    view_noteTimes seen plan (watch.take s.rounding true written).times
  refine ⟨s.setStore store, ?_, hosted.congr rfl rfl hroot ?_, hview⟩
  · rw [readOutput, Brief.read, htimes, hrounding]
  · rw [store_setStore, hfiles]
    exact hosted.estate

theorem seen_takeWritten (hosted : b.Hosted id s) {plan : TextPlan} {watch : Engine.Watch}
    (seen : s.view id =
      b.working id .rendering (.encoding plan watch) (some .running) (some plan.written) output)
    (written errors : List UInt8) :
    (b.write plan watch output written errors).Seen b id
      ((s.takeWritten ⟨id, b.timeline, .encoding plan watch, false⟩ plan watch written
        errors).view id) := by
  obtain ⟨s', hread, hhosted, hseen⟩ :=
    view_readOutput hosted seen plan watch ⟨written, errors, false⟩
  rw [takeWritten, Brief.write, hread]
  rcases b.read plan watch ⟨written, errors, false⟩ with ⟨watch', fault⟩
  cases fault with
  | some f => exact seen_leave hhosted hseen rfl (.plain _)
  | none =>
    dsimp only
    rw [view_setPhase hseen rfl]
    exact .encoding plan watch' output

theorem seen_takeExit (hosted : b.Hosted id s) {plan : TextPlan} {watch : Engine.Watch}
    (seen : s.view id =
      b.working id .rendering (.encoding plan watch) process (some plan.written) output)
    (code : Int) :
    (b.exit plan watch code output).Seen b id
      ((s.takeExit ⟨id, b.timeline, .encoding plan watch, false⟩ plan watch code).view id) := by
  obtain ⟨s', hread, hhosted, hseen⟩ := view_readOutput hosted seen plan watch ⟨[], [], true⟩
  rw [takeExit, Brief.exit, hread]
  rcases b.read plan watch ⟨[], [], true⟩ with ⟨watch', fault⟩
  cases fault with
  | some f => exact seen_leave hhosted hseen rfl (.plain _)
  | none => exact seen_takeResult hhosted hseen _

/-- A process leaves its output, and nothing else changes with it. -/
theorem view_leaveOutput (hosted : b.Hosted id s) {v : View} (seen : s.view id = v)
    (size : Option Nat) : b.Hosted id (s.leaveOutput id size) ∧
      (s.leaveOutput id size).view id = { v with output := size.or v.output } := by
  cases size with
  | none => exact ⟨hosted, seen⟩
  | some n =>
    obtain ⟨taken, hestate⟩ := hosted.estate
    obtain ⟨files, hwrite, houtput, hothers⟩ := hestate.write_entry hosted.plain
      (⟨by decide, by decide, by decide⟩ : CanStand Job.outputName) (by decide) (.media n)
    have hplan : files.shown? (b.home id ++ [Job.planName]) = v.plan := by
      rw [(hothers _ (List.prefix_append _ _) (entry_ne_entry (by decide))).shown?_eq, ← seen, view,
        hosted.directory]
    rw [leaveOutput, hosted.directory, hwrite]
    refine ⟨hosted.congr rfl rfl rfl ⟨taken, hestate.write hwrite⟩, ?_⟩
    exact view_setFiles seen files (by rw [hosted.directory, hplan])
      (by rw [hosted.directory, houtput]; rfl)

/-- A copy that strays among the assets is not seen. -/
theorem view_stray (hosted : b.Hosted id s) (name : String) (c : Content) :
    (s.stray id name c).view id = s.view id := by
  rw [stray]
  split
  case isFalse => rfl
  split
  case h_2 => rfl
  rename_i files hwrite
  obtain ⟨taken, hestate⟩ := hosted.estate
  have hplain := Path.plain_concat hosted.plain (by decide : Job.assetsName ≠ "..")
  have hplace : b.home id ++ [Job.assetsName, name] = b.home id ++ [Job.assetsName] ++ [name] := by
    rw [List.append_assoc]
    rfl
  rw [hosted.directory, hplace] at hwrite
  have hother : name ≠ ".." := by
    rintro rfl
    exact write_up_ne_ok hplain (by simp [home]) hwrite
  have hkept (entry : String) : files.shown? (b.home id ++ [entry]) =
      s.store.files.shown? (b.home id ++ [entry]) := by
    have hsane := hestate.sane (List.prefix_append (b.home id) [entry])
    have hne : b.home id ++ [entry] ≠ b.home id ++ [Job.assetsName] ++ [name] := fun heq => by
      have := congrArg List.length heq
      simp at this
    exact ((Spares.write (Path.plain_concat hplain hother) Path.concat_ne_nil hne hsane
      hwrite).keeps hsane).shown?_eq
  refine view_setFiles rfl _ ?_ ?_
  · rw [hosted.directory, hkept, ← hosted.directory]
  · rw [hosted.directory, hkept, ← hosted.directory]

end Brief

/-! ### Events -/

namespace Service
variable {s : Service} {id : JobId} {t : Task} {e : Event}

theorem noticesTo_of_task (own : e.job? = some id) (task : s.task? id = some t) :
    s.noticesTo id e = t.phase.notices e := by
  rw [noticesTo, if_pos own, task]
  rfl

theorem noticesTo_of_no_task (gone : s.task? id = none) : s.noticesTo id e = [] := by
  rw [noticesTo, gone]
  split <;> rfl

theorem deliveriesTo_of_no_downloads (none : s.downloads id = []) : s.deliveriesTo id e = [] := by
  cases e with
  | download job index d => simp [deliveriesTo, none]
  | _ => rfl

/-- Nothing comes of an event of which the task hears nothing, apart from its own moves and those of its
downloads. -/
theorem step_of_unheard (own : e.job? = some id) (task : s.task? id = some t)
    (awake : t.cancelled = false) (unheard : t.phase.notices e = []) (still : e ≠ .moved id)
    (settled : ∀ index d, e = .download id index d → ∀ ds, t.phase ≠ .fetching ds)
    (calm : ∀ name c, e ≠ .strayed id name c)
    (idle : s.process? id = some .running → ∃ plan watch, t.phase = .encoding plan watch) :
    s.step e = s := by
  have hlisten : s.listening? id = some t := listening?_eq_some.mpr ⟨task, awake⟩
  cases e with
  | submitted | asked | advanced | outOfPatience | ticked | disk => cases own
  | moved job =>
    cases own
    exact absurd rfl still
  | strayed job name c =>
    cases own
    exact absurd rfl (calm name c)
  | download job index d =>
    cases own
    simp only [step, task, takeDownload]
    split
    · rename_i ds phase
      exact absurd phase (settled index d rfl ds)
    · rfl
  | probed job outcome =>
    cases own
    simp only [step, hlisten]
    split
    · rename_i phase
      rw [phase] at unheard
      cases unheard
    · rfl
  | spawned job outcome =>
    cases own
    simp only [step, hlisten]
    split
    · rename_i phase
      rw [phase] at unheard
      cases unheard
    · rfl
  | wrote job output errors =>
    cases own
    simp only [step, hlisten]
    split
    · rename_i phase
      rw [phase] at unheard
      cases unheard
    · rfl
  | produced job size =>
    cases own
    rw [step, if_neg]
    intro running
    obtain ⟨plan, watch, phase⟩ := idle running
    rw [phase] at unheard
    cases unheard
  | exited job code size =>
    cases own
    rw [step, takeEnd, if_neg]
    intro running
    obtain ⟨plan, watch, phase⟩ := idle running
    rw [phase] at unheard
    cases unheard
  | raised job message =>
    cases own
    simp only [step, hlisten, takeFailure]
    split
    · rename_i holds
      cases phase : t.phase <;> rw [phase] at unheard holds
      case created | waiting => cases holds
      all_goals cases unheard
    · rfl

/-- A task that is neither new nor fetching moves by what it is told alone. -/
theorem step_of_unheard_at_work (own : e.job? = some id) (task : s.task? id = some t)
    (awake : t.cancelled = false) (unheard : t.phase.notices e = [])
    (begun : t.phase.holdsSlot = true) (settled : ∀ ds, t.phase ≠ .fetching ds)
    (calm : ∀ name c, e ≠ .strayed id name c)
    (idle : s.process? id = some .running → ∃ plan watch, t.phase = .encoding plan watch) :
    s.step e = s := by
  by_cases moved : e = .moved id
  · subst moved
    simp only [step, task, moveTask, awake]
    cases phase : t.phase with
    | created | waiting =>
      rw [phase] at begun
      cases begun
    | fetching ds => exact absurd phase (settled ds)
    | probing | starting | encoding => rfl
  · exact step_of_unheard own task awake unheard moved (fun _ _ _ => settled) calm idle

end Service

namespace Station.Seen
variable {b : Brief} {id : JobId} {s : Service} {station : Station} {e : Event}

/-- When a job is over, what its process does is not seen. -/
theorem step_ended (hosted : b.Hosted id s) {v : Verdict} (seen : (Station.ended v).Seen b id (s.view id))
    (own : e.job? = some id) :
    (Station.ended v).Seen b id ((s.step e).view id) := by
  have hover {process : Option ProcessStatus} {output : Option Nat} {u : Service}
      (hu : u.view id = { s.view id with process, output }) :
      (Station.ended v).Seen b id (u.view id) := by
    rw [hu]
    generalize s.view id = w at seen
    cases seen
    exact .ended v process output
  have htask : s.task? id = none := by
    change (s.view id).task = none
    generalize s.view id = w at seen
    cases seen
    rfl
  have hlisten : s.listening? id = none := by rw [listening?, htask]; rfl
  cases e with
  | submitted | asked | advanced | outOfPatience | ticked | disk => cases own
  | moved job | download job =>
    cases own
    simpa only [step, htask] using seen
  | probed job | spawned job | wrote job | raised job =>
    cases own
    simpa only [step, hlisten] using seen
  | strayed job name c =>
    cases own
    rw [step, Brief.view_stray hosted]
    exact seen
  | produced job size =>
    cases own
    rw [step]
    split
    · exact hover (Brief.view_leaveOutput hosted rfl (some size)).2
    · exact seen
  | exited job code size =>
    cases own
    rw [step, takeEnd]
    split
    · rename_i running
      have hset := view_setProcess (rfl : s.view id = _) running (.exited code)
      have hhosted : b.Hosted id (s.setProcess id (.exited code)) :=
        hosted.congr rfl rfl rfl hosted.estate
      have hview := (Brief.view_leaveOutput hhosted hset size).2
      have hgone : ((s.setProcess id (.exited code)).leaveOutput id size).listening? id = none := by
        have htask' : ((s.setProcess id (.exited code)).leaveOutput id size).task? id = none :=
          (congrArg View.task hview).trans htask
        rw [listening?, htask']
        rfl
      simp only [hgone]
      exact hover hview
    · exact seen

/-- A task at a station has its slot and its files, and a process only if it is encoding. -/
theorem at_work {t : Task} (seen : station.Seen b id (s.view id)) (task : s.task? id = some t) :
    t.cancelled = false ∧ t.phase.holdsSlot = true ∧ (∀ ds, t.phase ≠ .fetching ds) ∧
      (s.process? id = some .running → ∃ plan watch, t.phase = .encoding plan watch) := by
  have hprocess : s.process? id = (s.view id).process := rfl
  have htask : (s.view id).task = some t := task
  rw [hprocess]
  generalize s.view id = v at seen htask
  cases seen with
  | ended => cases htask
  | probing | starting =>
    cases htask
    exact ⟨rfl, rfl, fun _ h => (by cases h), fun h => (by cases h)⟩
  | encoding plan watch size =>
    cases htask
    exact ⟨rfl, rfl, fun _ h => (by cases h), fun _ => ⟨plan, watch, rfl⟩⟩

section Heard
variable (hosted : b.Hosted id s) (own : e.job? = some id)
include hosted own

theorem step_probing {done : List (String × Asset)} {left : List (MediaSource × Path)}
    (seen : s.view id =
      b.working id .downloading (.probing done (left.map (b.placed id))) none none none)
    (heard : TaskPhase.notices (.probing done (left.map (b.placed id))) e ≠ []) :
    ((s.noticesTo id e).foldl b.step (.probing done left)).Seen b id ((s.step e).view id) := by
  have task : s.task? id = some ⟨id, b.timeline, .probing done (left.map (b.placed id)), false⟩ :=
    congrArg View.task seen
  have hlisten := listening?_eq_some.mpr ⟨task, rfl⟩
  rw [noticesTo_of_task own task]
  cases e with
  | probed job outcome =>
    cases own
    rw [Service.step, hlisten]
    cases left with
    | nil =>
      change (Station.probing done []).Seen b id (s.view id)
      rw [seen]
      exact .probing done []
    | cons item rest => exact Brief.seen_takeProbed hosted seen outcome done item.1 item.2 rest
  | raised job message =>
    cases own
    rw [Service.step, hlisten]
    exact Brief.seen_leave hosted seen rfl (.plain _)
  | _ => exact absurd rfl heard

theorem step_starting {plan : TextPlan}
    (seen : s.view id =
      b.working id .rendering (.starting plan) none (some plan.written) none)
    (heard : TaskPhase.notices (.starting plan) e ≠ []) :
    ((s.noticesTo id e).foldl b.step (.starting plan)).Seen b id ((s.step e).view id) := by
  have task : s.task? id = some ⟨id, b.timeline, .starting plan, false⟩ := congrArg View.task seen
  have hlisten := listening?_eq_some.mpr ⟨task, rfl⟩
  rw [noticesTo_of_task own task]
  cases e with
  | spawned job outcome =>
    cases own
    rw [Service.step, hlisten]
    exact Brief.seen_takeSpawned hosted plan seen outcome
  | raised job message =>
    cases own
    rw [Service.step, hlisten]
    exact Brief.seen_leave hosted seen rfl (.plain _)
  | _ => exact absurd rfl heard

theorem step_encoding {plan : TextPlan} {watch : Engine.Watch} {size : Option Nat}
    (seen : s.view id =
      b.working id .rendering (.encoding plan watch) (some .running) (some plan.written) size)
    (heard : TaskPhase.notices (.encoding plan watch) e ≠ []) :
    ((s.noticesTo id e).foldl b.step (.encoding plan watch size)).Seen b id
      ((s.step e).view id) := by
  have task : s.task? id = some ⟨id, b.timeline, .encoding plan watch, false⟩ :=
    congrArg View.task seen
  have running : s.process? id = some .running := congrArg View.process seen
  have hlisten := listening?_eq_some.mpr ⟨task, rfl⟩
  rw [noticesTo_of_task own task]
  cases e with
  | wrote job written errors =>
    cases own
    rw [Service.step, hlisten]
    dsimp only
    rw [if_pos running]
    exact Brief.seen_takeWritten hosted seen written errors
  | produced job n =>
    cases own
    rw [Service.step, if_pos running, (Brief.view_leaveOutput hosted seen (some n)).2]
    exact .encoding plan watch (some n)
  | exited job code n =>
    cases own
    have hset := view_setProcess seen rfl (.exited code)
    have hhosted : b.Hosted id (s.setProcess id (.exited code)) :=
      hosted.congr rfl rfl rfl hosted.estate
    obtain ⟨hleft, hview⟩ := Brief.view_leaveOutput hhosted hset n
    have hlisten' : ((s.setProcess id (.exited code)).leaveOutput id n).listening? id =
        some ⟨id, b.timeline, .encoding plan watch, false⟩ :=
      listening?_eq_some.mpr ⟨congrArg View.task hview, rfl⟩
    rw [Service.step, takeEnd, if_pos running]
    simp only [hlisten']
    exact Brief.seen_takeExit hleft hview code
  | raised job message =>
    cases own
    rw [Service.step, hlisten]
    exact Brief.seen_leave hosted seen rfl (.plain _)
  | _ => exact absurd rfl heard

end Heard

/-- **With each event of the job the service does what the brief says.** -/
theorem step (hosted : b.Hosted id s) (own : e.job? = some id)
    (calm : s.task? id ≠ none → ∀ name c, e ≠ .strayed id name c) (seen : station.Seen b id (s.view id)) :
    ((s.noticesTo id e).foldl b.step station).Seen b id ((s.step e).view id) := by
  cases task : s.task? id with
  | none =>
    rw [noticesTo_of_no_task task]
    obtain ⟨v, rfl⟩ : ∃ v, station = .ended v := by
      have htask : (s.view id).task = none := task
      generalize s.view id = v at seen htask
      cases seen with
      | ended v => exact ⟨v, rfl⟩
      | probing | starting | encoding => cases htask
    exact step_ended hosted seen own
  | some t =>
    by_cases unheard : t.phase.notices e = []
    · obtain ⟨awake, begun, settled, idle⟩ := seen.at_work task
      rw [noticesTo_of_task own task, unheard, step_of_unheard_at_work own task awake unheard begun
        settled (calm (by rw [task]; exact Option.some_ne_none _)) idle]
      exact seen
    · have htask : some t = (s.view id).task := task.symm
      generalize hview : s.view id = v at seen htask
      cases seen with
      | ended => cases htask
      | probing =>
        cases htask
        exact step_probing hosted own hview unheard
      | starting =>
        cases htask
        exact step_starting hosted own hview unheard
      | encoding =>
        cases htask
        exact step_encoding hosted own hview unheard

/-- A job at a station has no downloads. -/
theorem deliveriesTo_eq (seen : station.Seen b id (s.view id)) : s.deliveriesTo id e = [] := by
  have htask : s.task? id = (s.view id).task := rfl
  refine deliveriesTo_of_no_downloads ?_
  rw [downloads, htask]
  generalize s.view id = v at seen
  cases seen <;> rfl

end Station.Seen
end Montage
