import Montage.Proofs.EngineRuns
import Montage.Proofs.Gathering
import Montage.Proofs.TextLines

/-! # What a failed engine reports

Of the diagnostics of a process the last lines are kept that say something (`Engine.Keeps`).  A process
that exits with a code other than zero has failed, and its failure reports the last lines of what was
kept (`Engine.Failure.Excerpts`).  The first are lines of a stream of bytes and the second lines of a
text, so a line that was kept can count as several of those that are reported.

So it is for all that a process can write, however it comes in pieces.  In a run of the service other
things happen between the pieces; a task that still listens has read what its process has written so far
and nothing else (`Service.Reads`).  It listens to the end if it can read all of this and is not told to
stop, and takes the result when the process exits (`Service.Returns`).
-/
namespace Montage

open Text Service

namespace Engine

/-! ### Remarks -/

/-- The lines of a stream of diagnostics that say something. -/
def remarks (errors : List UInt8) : List String :=
  ((errors.splitOn 10).map diagnostic).filter fun s => !s.isEmpty

/-- A last line without a line feed is one of them, and nothing behind the last line feed is no line. -/
theorem said_linesOf (errors : List UInt8) : said (linesOf errors) = remarks errors := by
  have hrest : said (lastLine errors) = said [unfinished errors] := by
    rw [lastLine]
    split
    · rename_i hnone
      rw [hnone]
      rfl
    · rfl
  rw [linesOf, said_append, hrest, ← said_append]
  exact congrArg said (splitFeeds_eq errors)

theorem isBlank_of_isBoundary {c : Char} (h : isBoundary c = true) : isBlank c = true := by
  simp only [isBoundary, isBlank, isSpace, Bool.or_eq_true, Bool.and_eq_true, decide_eq_true_eq,
    beq_iff_eq] at h ⊢
  omega

/-- What is said does not end with a blank. -/
theorem closed_of_mem_remarks {errors : List UInt8} {d : String} (h : d ∈ remarks errors) :
    Closed d.toList := by
  obtain ⟨hd, hgiven⟩ := List.mem_filter.mp h
  obtain ⟨line, -, rfl⟩ := List.mem_map.mp hd
  have hgiven : trimEnd isBlank (decodeFrom .start line) ≠ [] := by
    rintro hnone
    rw [diagnostic, hnone] at hgiven
    cases hgiven
  rw [diagnostic, String.toList_ofList]
  refine ⟨hgiven, fun c hc => ?_⟩
  have hlast := List.rdropWhile_last_not isBlank (decodeFrom .start line) hgiven
  rw [List.getLast?_eq_some_getLast hgiven] at hc
  rw [← Option.some.inj hc]
  exact Bool.eq_false_iff.mpr fun hboundary => hlast (isBlank_of_isBoundary hboundary)

/-- A text of the last remarks, at most so many, one on a line.  Its lines are the lines of these. -/
def Keeps (size : Nat) (errors : List UInt8) (text : String) : Prop :=
  ∃ kept, LastOf size (remarks errors) kept ∧ text = "\n".intercalate kept ∧
    lines text = kept.flatMap lines

theorem keeps_diagnosticsOf (size : Nat) (errors : List UInt8) :
    Keeps size errors (diagnosticsOf size errors) := by
  have hlast : LastOf size (remarks errors) (lastN size (said (linesOf errors))) :=
    lastOf_iff.mpr (by rw [said_linesOf])
  refine ⟨_, hlast, rfl, lines_intercalate fun d hd => ?_⟩
  exact closed_of_mem_remarks (hlast.suffix.subset hd)

/-! ### Failures -/

/-- A failure with the exit code of a result and the last lines of its diagnostics. -/
structure Failure.Excerpts (f : Failure) (result : Result) : Prop where
  exitCode : f.exitCode = result.exitCode
  excerpt : ∃ ls last, Cut result.diagnostics.toList ls ∧ LastOf 10 ls last ∧
    f.excerpt = "\n".intercalate (last.map String.ofList)

namespace Result
variable {result : Result} {f : Failure}

/-- The excerpt of a result. -/
theorem excerpts_iff : f.Excerpts result ↔ f = ⟨result.exitCode,
    "\n".intercalate (lastN excerptLines (lines result.diagnostics))⟩ := by
  have hmap (ls : List (List Char)) : (lastN 10 ls).map String.ofList =
      lastN excerptLines (ls.map String.ofList) := by
    rw [lastN, lastN, List.map_drop, List.length_map, excerptLines]
  constructor
  · rintro ⟨hcode, ls, last, hcut, hlast, hexcerpt⟩
    rw [lastOf_iff.mp hlast, hmap, ← cut_iff.mp hcut] at hexcerpt
    rw [lines, ← hcode, ← hexcerpt]
  · rintro rfl
    exact ⟨rfl, _, _, cut_iff.mpr rfl, lastOf_iff.mpr rfl, by rw [hmap, lines]⟩

theorem exists_excerpts (hcode : result.exitCode ≠ 0) :
    ∃ f : Failure, f.Excerpts result ∧ result.accept = .error f := by
  refine ⟨_, excerpts_iff.mpr rfl, ?_⟩
  rw [accept, isOk, if_neg (by simpa using hcode)]

/-- What becomes of a result: with exit code zero it stands, and with all others it is a failure. -/
inductive Settles (result : Result) : Except Failure Result → Prop where
  | stands (code : result.exitCode = 0) : Settles result (.ok result)
  | fails {f : Failure} (code : result.exitCode ≠ 0) (reports : f.Excerpts result) :
    Settles result (.error f)

/-- **A result is a failure if and only if its code is not zero**, and there is one such failure. -/
theorem accept_eq_iff {x : Except Failure Result} : result.accept = x ↔ result.Settles x := by
  by_cases hcode : result.exitCode = 0
  · have haccept : result.accept = .ok result := by simp [accept, isOk, hcode]
    rw [haccept]
    constructor
    · rintro rfl
      exact .stands hcode
    · rintro (⟨-⟩ | ⟨hother, -⟩)
      · rfl
      · exact absurd hcode hother
  · obtain ⟨f, hexcerpts, haccept⟩ := exists_excerpts hcode
    rw [haccept]
    constructor
    · rintro rfl
      exact .fails hcode hexcerpts
    · rintro (⟨hother⟩ | ⟨-, hreports⟩)
      · exact absurd hother hcode
      · rw [excerpts_iff.mp hexcerpts, excerpts_iff.mp hreports]

end Result

/-- A process that can be read to its end has a result with its own code and what is kept of its
diagnostics. -/
theorem exists_outcome {e : Engine} {r : Rounding} {listening : Bool}
    {pieces : List (List UInt8 × List UInt8)} (lines : 0 ≤ e.diagnosticLines)
    (readable : Readable r listening (pieces.flatMap Prod.fst) (pieces.flatMap Prod.snd))
    (code : Int) :
    ∃ text, Keeps e.diagnosticLines.toNat (pieces.flatMap Prod.snd) text ∧
      e.outcome r listening pieces code = .ok ⟨code, text⟩ :=
  ⟨_, keeps_diagnosticsOf _ _, outcome_eq_ok_iff.mpr ⟨lines, readable, rfl⟩⟩

end Engine

/-! ### Runs -/

namespace Service

open Engine

/-- The process of a job exits, or its task fails and not because of what it reads. -/
def endsAt (id : JobId) : Event → Bool
  | .exited job _ _ => job == id
  | .raised job _ => job == id
  | _ => false

/-- The task of a job is never told to stop while these events happen. -/
def Untold (s : Service) (id : JobId) (events : List Event) : Prop :=
  ∀ past ∈ events.inits, ∀ t ∈ (s.run past).task? id, t.cancelled = false

instance (s : Service) (id : JobId) (events : List Event) : Decidable (s.Untold id events) :=
  List.decidableBAll _ _

/-- A task that still listens watches its process, and has read all that the process has written. -/
def Reads (s : Service) (id : JobId) (plan : TextPlan) (size : Nat) (output errors : List UInt8) :
    Prop :=
  ∀ t, s.listening? id = some t → t.phase = .encoding plan (Watch.after size output errors) ∧
    s.process? id = some .running ∧ Engine.Legible s.rounding true output errors

variable {s : Service} {id : JobId} {plan : TextPlan} {size : Nat} {output errors : List UInt8}
  {t : Task} {e : Event}

namespace Reads

theorem of_finished (h : s.task? id = none) : s.Reads id plan size output errors := by
  intro t listens
  cases h.symm.trans (listening?_eq_some.mp listens).1

theorem setFiles (h : s.Reads id plan size output errors) (files : FileTree) :
    (s.setFiles files).Reads id plan size output errors := h

/-- A process that was just started has written nothing. -/
theorem spawned (listens : s.listening? id = some t) (phase : t.phase = .starting plan)
    (idle : s.process? id = none) (lines : 0 ≤ s.setup.engine.diagnosticLines) :
    (s.step (.spawned id .started)).Reads id plan s.setup.engine.diagnosticLines.toNat [] [] := by
  rw [step_spawned listens phase lines]
  intro t' listens'
  rw [listening?_reading (s := s.addProcess id) listens] at listens'
  obtain rfl := Option.some.inj listens'
  exact ⟨rfl, process?_reading (process?_addProcess_self idle) .., legible_nil ..⟩

/-- A piece is read, or the task fails. -/
theorem wrote (h : s.Reads id plan size output errors) (listens : s.listening? id = some t)
    (o e : List UInt8) :
    (s.step (.wrote id o e)).Reads id plan size (output ++ o) (errors ++ e) := by
  obtain ⟨phase, running, legible⟩ := h t listens
  obtain rfl : t.job = id := job_of_task? (listening?_eq_some.mp listens).1
  rw [step_wrote_eq listens phase running]
  by_cases ahead : Engine.Legible s.rounding true (output ++ o) (errors ++ e)
  · obtain ⟨stages, fault, hnotes⟩ := exists_noteTimes s t.job plan
      (timesOf s.rounding (finished (unfinished output ++ o)))
    rw [takeWritten, readOutput, Watch.take_of_legible legible ahead]
    simp only [if_true, hnotes, Option.or_none, Option.none_or]
    cases fault with
    | some f => exact of_finished (task?_leave ..)
    | none =>
      intro t' listens'
      rw [listening?_setPhase (s := s.noteAll t.job stages) listens] at listens'
      obtain rfl := Option.some.inj listens'
      exact ⟨rfl, running, ahead⟩
  · obtain ⟨f, hf⟩ := Watch.take_fault size legible ahead
    obtain ⟨stages, w, f, hread⟩ := readOutput_of_fault t.job plan (Or.inl hf)
    rw [takeWritten, hread]
    exact of_finished (task?_leave ..)

/-- Events of the job that are no pieces leave its task as it is, or end it. -/
theorem step_of_job (h : s.Reads id plan size output errors) (listens : s.listening? id = some t)
    (about : e.job? = some id) :
    (s.step e).Reads id plan size (output ++ outputBy id e) (errors ++ errorsBy id e) := by
  obtain ⟨phase, running, -⟩ := h t listens
  obtain rfl : t.job = id := job_of_task? (listening?_eq_some.mp listens).1
  cases sees_of_watching listens phase about with
  | piece o e =>
    rw [outputBy, errorsBy, if_pos rfl, if_pos rfl]
    exact h.wrote listens o e
  | close code bytes =>
    rw [step_exited_eq listens phase running]
    exact of_finished (takeExit_ends ..).2
  | trouble message =>
    rw [step_raised_eq listens phase]
    exact of_finished (task?_leave ..)
  | nothing files houtput herrors same =>
    rw [same, houtput, herrors, List.append_nil, List.append_nil]
    exact h.setFiles files

/-- Events of others tell the task to stop at most. -/
theorem step_of_other (h : s.Reads id plan size output errors) (tabled : s.Tabled)
    (issued : s.store.Issued id) (other : e.job? ≠ some id) :
    (s.step e).Reads id plan size output errors := by
  intro t' listens'
  obtain ⟨task', awake'⟩ := listening?_eq_some.mp listens'
  rcases task?_eq_told_of_other tabled other task' with ⟨t, task, heq, told⟩ | ⟨hnew, -⟩
  · have awake : t.cancelled = false := Bool.eq_false_iff.mpr fun htold =>
      Bool.false_ne_true (awake'.symm.trans (told htold))
    rw [heq, process?_step_of_other tabled other, tabled.rounding_step]
    exact h t (listening?_eq_some.mpr ⟨task, awake⟩)
  · exact absurd issued hnew

/-- **What is read adds up**, whatever happens in between. -/
theorem step (h : s.Reads id plan size output errors) (placed : Placed s)
    (issued : s.store.Issued id) (e : Event) :
    (s.step e).Reads id plan size (output ++ outputBy id e) (errors ++ errorsBy id e) := by
  by_cases about : e.job? = some id
  · intro t' listens'
    -- a task that listens has listened before
    obtain ⟨task', awake'⟩ := listening?_eq_some.mp listens'
    obtain ⟨b, moves⟩ := step_moves about s
    obtain ⟨t, task, hcancelled, -⟩ := moves.follows.task_any task'
    have listens := listening?_eq_some.mpr ⟨task, hcancelled.symm.trans awake'⟩
    exact h.step_of_job listens about t' listens'
  · rw [outputBy_of_other about, errorsBy_of_other about, List.append_nil, List.append_nil]
    exact h.step_of_other placed.tabled issued about

/-- A task goes on to listen as long as it can read, until it is told to stop. -/
theorem listens_step (h : s.Reads id plan size output errors) (listens : s.listening? id = some t)
    (tabled : s.Tabled) (goesOn : endsAt id e = false)
    (ahead : Engine.Legible s.rounding true (output ++ outputBy id e) (errors ++ errorsBy id e))
    (calm : Calm s.rounding plan.duration
      (timesOf s.rounding (finished (unfinished output ++ outputBy id e))))
    (untold : ∀ t', (s.step e).task? id = some t' → t'.cancelled = false) :
    ∃ t', (s.step e).listening? id = some t' := by
  suffices hthere : ∃ t', (s.step e).task? id = some t' by
    obtain ⟨t', task'⟩ := hthere
    exact ⟨t', listening?_eq_some.mpr ⟨task', untold t' task'⟩⟩
  obtain ⟨phase, running, legible⟩ := h t listens
  obtain ⟨task, -⟩ := listening?_eq_some.mp listens
  by_cases about : e.job? = some id
  · cases sees_of_watching listens phase about with
    | piece o e =>
      rw [outputBy, if_pos rfl] at ahead calm
      rw [errorsBy, if_pos rfl] at ahead
      obtain rfl : t.job = id := job_of_task? task
      rw [step_wrote_eq listens phase running, takeWritten_of_legible legible ahead calm]
      exact ⟨_, task?_setPhase_self (s := s.noteAll t.job _) task _⟩
    | close | trouble => simp [endsAt] at goesOn
    | nothing files houtput herrors same => exact ⟨t, same ▸ task⟩
  · obtain ⟨t', task', -⟩ := task?_step_of_other tabled about task
    exact ⟨t', task'⟩

/-- **A task that is not told to stop reads all that its process writes**, if it can. -/
theorem run (h : s.Reads id plan size output errors) (listens : s.listening? id = some t)
    (placed : Placed s) {events : List Event} (goesOn : ∀ e ∈ events, endsAt id e = false)
    (untold : s.Untold id events)
    (legible : Engine.Legible s.rounding true (output ++ events.flatMap (outputBy id))
      (errors ++ events.flatMap (errorsBy id)))
    (calm : Calm s.rounding plan.duration
      (timesOf s.rounding (finished (output ++ events.flatMap (outputBy id))))) :
    (∃ t', (s.run events).listening? id = some t') ∧
      (s.run events).Reads id plan size (output ++ events.flatMap (outputBy id))
        (errors ++ events.flatMap (errorsBy id)) := by
  induction events generalizing s output errors t with
  | nil => exact ⟨⟨t, listens⟩, by simpa using h⟩
  | cons e rest ih =>
    obtain ⟨he, hrest⟩ := List.forall_mem_cons.mp goesOn
    have issued : s.store.Issued id := placed.issued_of_task? (listening?_eq_some.mp listens).1
    have huntold (past) (hpast : past ∈ rest.inits) : e :: past ∈ (e :: rest).inits := by
      rw [List.mem_inits, List.cons_prefix_cons]
      exact ⟨rfl, (List.mem_inits ..).mp hpast⟩
    simp only [List.flatMap_cons, ← List.append_assoc] at legible calm ⊢
    obtain ⟨t', listens'⟩ := h.listens_step listens placed.tabled he legible.of_append calm.piece
      (untold [e] (huntold [] (by simp)))
    rw [← placed.tabled.rounding_step e] at legible calm
    exact ih (h.step placed issued e) listens' (placed.step e) hrest
      (fun past hpast => untold (e :: past) (huntold past hpast)) legible calm

end Reads

/-- The task of a job takes the exit code of its process and what was kept of the diagnostics.  With
a code other than zero the job fails, and its failure reports both. -/
structure Returns (now : Service) (id : JobId) (code : Int) (bytes : Option Nat) (text : String)
    (stages : List String) : Prop where
  takes : now.step (.exited id code bytes) =
    ((now.closing id code bytes).noteAll id stages).takeResult id ⟨code, text⟩
  fails : code ≠ 0 → ∃ f : Failure, f.Excerpts ⟨code, text⟩ ∧ now.step (.exited id code bytes) =
    ((now.closing id code bytes).noteAll id stages).leave id (some f.problem.message)

/-- A result with a code other than zero fails the job. -/
theorem takeResult_of_failure (id : JobId) {result : Result} (hcode : result.exitCode ≠ 0) :
    ∃ f : Failure, f.Excerpts result ∧
      ∀ u : Service, u.takeResult id result = u.leave id (some f.problem.message) := by
  obtain ⟨f, hexcerpts, haccept⟩ := result.exists_excerpts hcode
  exact ⟨f, hexcerpts, fun u => by rw [takeResult, haccept]⟩

theorem Reads.returns (h : s.Reads id plan size output errors) (listens : s.listening? id = some t)
    (timed : Timed s.rounding (lastLine output))
    (calm : Calm s.rounding plan.duration (timesOf s.rounding (lastLine output))) (code : Int)
    (bytes : Option Nat) :
    ∃ text stages, Keeps size errors text ∧ s.Returns id code bytes text stages := by
  obtain ⟨phase, running, legible⟩ := h t listens
  have readable : Readable s.rounding true output errors :=
    ⟨legible.outputFits, legible.errorsFits, fun _ => timed_append.mpr ⟨legible.times rfl, timed⟩⟩
  have hstep := step_exited_of_readable listens phase running readable calm code bytes
  refine ⟨_, _, keeps_diagnosticsOf size errors, hstep, fun hcode => ?_⟩
  have failed : (⟨code, diagnosticsOf size errors⟩ : Result).exitCode ≠ 0 := hcode
  obtain ⟨f, hexcerpts, htake⟩ := takeResult_of_failure id failed
  exact ⟨f, hexcerpts, hstep.trans (htake _)⟩

/-- **What a process writes is kept**, unless its task is told to stop. -/
theorem returns_of_started (placed : Placed s) (listens : s.listening? id = some t)
    (phase : t.phase = .starting plan) (idle : s.process? id = none)
    (lines : 0 ≤ s.setup.engine.diagnosticLines) {events : List Event}
    (goesOn : ∀ e ∈ events, endsAt id e = false)
    (untold : (s.step (.spawned id .started)).Untold id events)
    (readable : Readable s.rounding true (events.flatMap (outputBy id))
      (events.flatMap (errorsBy id)))
    (calm : Calm s.rounding plan.duration (timesOf s.rounding (linesOf (events.flatMap (outputBy id)))))
    (code : Int) (bytes : Option Nat) :
    ∃ text stages,
      Keeps s.setup.engine.diagnosticLines.toNat (events.flatMap (errorsBy id)) text ∧
        ((s.step (.spawned id .started)).run events).Returns id code bytes text stages := by
  obtain ⟨-, timed⟩ := timed_append.mp (readable.times rfl)
  rw [linesOf, timesOf_append, calm_append] at calm
  have hstarted := placed.tabled.rounding_step (.spawned id .started)
  have hnow := ((placed.step (.spawned id .started)).tabled.rounding_run events).trans hstarted
  have listens' := listening?_reading (s := s.addProcess id) listens plan
    s.setup.engine.diagnosticLines.toNat [] []
  rw [← step_spawned listens phase lines] at listens'
  have legible := readable.legible
  rw [← hstarted] at legible
  obtain ⟨⟨t', hlistens⟩, hreads⟩ := (Reads.spawned listens phase idle lines).run listens'
    (placed.step _) goesOn untold legible (hstarted.symm ▸ calm.1)
  rw [← hnow] at timed calm
  exact hreads.returns hlistens timed calm.2 code bytes

/-- Without a program the job fails at once. -/
theorem step_spawned_missing (listens : s.listening? id = some t) (phase : t.phase = .starting plan) :
    ∃ f : Failure, f.exitCode = 127 ∧ f.Excerpts (.missing s.setup.engine.program) ∧
      s.step (.spawned id .missing) = s.leave id (some f.problem.message) := by
  obtain rfl : t.job = id := job_of_task? (listening?_eq_some.mp listens).1
  have failed : (Result.missing s.setup.engine.program).exitCode ≠ 0 := (by decide : (127 : Int) ≠ 0)
  obtain ⟨f, hexcerpts, htake⟩ := takeResult_of_failure t.job failed
  refine ⟨f, hexcerpts.exitCode, hexcerpts, ?_⟩
  unfold step
  simp only [listens, phase, takeSpawned]
  exact htake s

end Service

namespace Sample

/-- An engine of which two lines are kept. -/
def terse : Engine := ⟨"ffmpeg", 2, []⟩

/-- Four lines in two pieces; one of them says nothing, and another one is two lines of a text. -/
def remarks : List (List UInt8 × List UInt8) :=
  [([], "one\ntw".toUTF8.toList), ([], "o \n \nthree\rhalf".toUTF8.toList)]

/-- Half a report and half a line, and then the rest of both; meanwhile time goes by. -/
def interrupted : List Event :=
  [.wrote (jobId 1) "out_time_us=20".toUTF8.toList "disk ".toUTF8.toList, .ticked (.finite 1),
    .wrote (jobId 1) "00000\n".toUTF8.toList "low\nno\rspace\n \nleft".toUTF8.toList]

end Sample

end Montage
