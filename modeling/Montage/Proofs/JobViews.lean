import Montage.Proofs.Estates
import Montage.Proofs.Gathering
import Montage.Proofs.Orphans

/-! # What can be seen of a job

Of a job its record can be seen, its task, its process, and two files in its directory: the plan that was
written down and the output (`Service.view`).  Each move of the task of a job changes one of them or two,
and here each change is said once.  Others change nothing of what can be seen, unless they remove the job
or tell it to stop (`view_step_of_other`).
-/
namespace Montage

open FileTree Path

/-! ### Files in a directory of its own -/

namespace FileTree
variable {t u : FileTree} {p base : Path} {taken : Handle → Prop} {name : String}

/-- What the file holds that stands at a place, if one does. -/
def shown? (t : FileTree) (p : Path) : Option Content :=
  match t.node? p with
  | some (.file k) => t.content? k
  | _ => none

theorem Keeps.shown?_eq (h : Keeps p t u) : u.shown? p = t.shown? p := by
  rw [shown?, shown?, h.node]
  split
  · rename_i k hk
    exact h.content k hk
  · rfl

theorem read?_of_reaches (plain : ".." ∉ p) (given : p ≠ []) (h : t.Reaches p) :
    t.read? p = t.shown? p := by
  rw [read?, handle?, nodeAt?_of_reaches plain given h, shown?]
  cases t.node? p with
  | none => rfl
  | some n => cases n <;> rfl

theorem size?_of_reaches (plain : ".." ∉ p) (given : p ≠ []) (h : t.Reaches p)
    (file : t.node? p ≠ some .directory) : t.size? p = (t.shown? p).map Content.size := by
  rw [size?, nodeAt?_of_reaches plain given h, shown?]
  cases hnode : t.node? p with
  | none => rfl
  | some n =>
    cases n with
    | file k => rfl
    | directory => exact absurd hnode file

namespace Estate

theorem reaches_entry (h : t.Estate base taken) (stand : CanStand name) :
    t.Reaches (base ++ [name]) := by
  refine h.reaches.child h.stands ?_ stand.short
  simpa [Path.holdsEnd] using stand.unended

theorem file (h : t.Estate base taken) (other : name ≠ Job.assetsName) :
    t.node? (base ++ [name]) ≠ some .directory :=
  h.flat _ (inside_concat base name) fun heq => other (by simpa using heq)

/-- **A file can be written there at any time**, and nothing else changes with it. -/
theorem write_entry (h : t.Estate base taken) (plain : ".." ∉ base) (stand : CanStand name)
    (other : name ≠ Job.assetsName) (c : Content) :
    ∃ u, t.write (base ++ [name]) c = .ok u ∧ u.shown? (base ++ [name]) = some c ∧
      ∀ p, base <+: p → p ≠ base ++ [name] → Keeps p t u := by
  have hplain := Path.plain_concat plain stand.other
  have hlocated : t.locate (base ++ [name]) = .ok (base ++ [name]) :=
    (locate_eq_ok_iff hplain Path.concat_ne_nil).mpr ⟨rfl, h.reaches_entry stand⟩
  obtain ⟨u, hu⟩ : ∃ u, t.write (base ++ [name]) c = .ok u := by
    simp only [FileTree.write, FileTree.openNew, hlocated]
    cases hnode : t.node? (base ++ [name]) with
    | none => exact ⟨_, rfl⟩
    | some n =>
      cases n with
      | file k => exact ⟨_, rfl⟩
      | directory => exact absurd hnode (h.file other)
  obtain ⟨-, -, -, k, hnode, hcontent, -⟩ := write_eq_ok hplain Path.concat_ne_nil
    (h.sane (List.prefix_append _ _)) hu
  refine ⟨u, hu, by simp only [shown?, hnode, hcontent], fun p hp hne => ?_⟩
  exact (Spares.write hplain Path.concat_ne_nil hne (h.sane hp) hu).keeps (h.sane hp)

/-- The assets get their directory. -/
theorem ensureChild_assets (h : t.Estate base taken) (plain : ".." ∉ base)
    (new : t.node? (base ++ [Job.assetsName]) = none) :
    t.ensureChild (base ++ [Job.assetsName]) =
      .ok (t.put (base ++ [Job.assetsName]) .directory) := by
  have hlocated : t.locate (base ++ [Job.assetsName]) = .ok (base ++ [Job.assetsName]) :=
    (locate_eq_ok_iff (Path.plain_concat plain (by decide)) Path.concat_ne_nil).mpr
      ⟨rfl, h.reaches_entry ⟨by decide, by decide, by decide⟩⟩
  rw [ensureChild, FileTree.make, hlocated]
  simp [new, settleMade]

end Estate
end FileTree

/-! ### Views -/

/-- What a record says of how a job fares. -/
structure Standing where
  directory : Path
  state : JobState
  error : Option String
  outputSize : Option Nat
  deriving DecidableEq, Repr

def Job.standing (j : Job) : Standing := ⟨j.directory, j.state, j.error, j.outputSize⟩

/-- What a move makes of it; `size` is the size of the output file, if there is one. -/
def Standing.move (w : Standing) (state : JobState) (error : Option String) (size : Option Nat) :
    Standing where
  directory := w.directory
  state := state
  error := if state = .failed then some (Job.orElseText error Job.unexplained) else w.error
  outputSize := if state = .completed then size.or w.outputSize else w.outputSize

/-- What can be seen of a job. -/
@[ext]
structure View where
  standing : Option Standing
  task : Option Task
  process : Option ProcessStatus
  plan : Option Content
  /-- The size of what stands at the output. -/
  output : Option Nat

/-- Name of the file with the plan of a job. -/
def Job.planName : String := "plan.json"

namespace Service
variable {s : Service} {id : JobId} {v : View} {w : Standing}

def view (s : Service) (id : JobId) : View where
  standing := (s.store.find? id).map Job.standing
  task := s.task? id
  process := s.process? id
  plan := s.store.files.shown? (s.store.directory id ++ [Job.planName])
  output := (s.store.files.shown? (s.store.directory id ++ [Job.outputName])).map Content.size

section Changes
variable (seen : s.view id = v)
include seen

theorem view_setPhase {t : Task} (task : v.task = some t) (phase : TaskPhase) :
    (s.setPhase id phase).view id = { v with task := some { t with phase } } := by
  subst seen
  simp only [view, task?_setPhase_self task phase]
  rfl

theorem view_endTask : (s.endTask id).view id = { v with task := none } := by
  subst seen
  simp only [view, task?_endTask, if_pos]
  rfl

theorem view_addProcess (idle : v.process = none) :
    (s.addProcess id).view id = { v with process := some .running } := by
  subst seen
  have hprocess : (s.addProcess id).process? id = some .running := process?_addProcess_self idle
  simp only [view, hprocess]
  rfl

theorem view_setProcess {old : ProcessStatus} (process : v.process = some old)
    (status : ProcessStatus) :
    (s.setProcess id status).view id = { v with process := some status } := by
  subst seen
  simp only [view, process?_setProcess_self process]
  rfl

/-- Notes of progress are not seen. -/
theorem view_note (stage : String) : (s.note id stage).view id = v := by
  subst seen
  have hstanding (j : Job) : (j.note stage).standing = j.standing := by
    rw [Job.note]
    split <;> rfl
  have hfind : ((s.note id stage).store.find? id).map Job.standing =
      (s.store.find? id).map Job.standing := by
    rw [note, store_setStore, Store.find?_setStage, Option.map_map]
    refine Option.map_congr fun j _ => ?_
    rw [Function.comp_apply, if_pos rfl, hstanding]
  simp only [view, hfind]
  rfl

/-- Files are seen where they are. -/
theorem view_setFiles (files : FileTree) {plan : Option Content} {output : Option Nat}
    (hplan : files.shown? (s.store.directory id ++ [Job.planName]) = plan)
    (houtput : (files.shown? (s.store.directory id ++ [Job.outputName])).map Content.size = output) :
    (s.setFiles files).view id = { v with plan, output } := by
  subst seen hplan houtput
  rfl

variable (standing : v.standing = some w)
include standing

/-- **A move that may be made is seen**, if the clock has a date. -/
theorem transition_ok (state : JobState) (forward : w.state.canMoveTo state = true)
    (date : Timestamp.check s.rounding s.now = .ok ()) (error stage : Option String) :
    ∃ j store, s.store.transition s.rounding id state error stage s.now = (.ok j, store) ∧
      j.directory = w.directory ∧ store.root = s.store.root ∧ store.files = s.store.files ∧
      (s.setStore store).view id = { v with standing := some (w.move state error
        (s.store.files.size? (w.directory ++ [Job.outputName]))) } := by
  subst seen
  obtain ⟨j, hj, rfl⟩ := Option.map_eq_some_iff.mp standing
  have hforward : j.state.canMoveTo state = true := forward
  have htransition : s.store.transition s.rounding id state error stage s.now =
      (.ok (j.move state error stage (s.store.outputSize? j) s.now), s.store.modify id fun _ =>
        j.move state error stage (s.store.outputSize? j) s.now) := by
    simp only [Store.transition, hj, if_pos hforward, date]
  refine ⟨_, _, htransition, rfl, rfl, rfl, ?_⟩
  have hid : j.id = id := by simpa using List.find?_some hj
  have hfind : ((s.store.modify id fun _ => j.move state error stage (s.store.outputSize? j)
      s.now).find? id) = some (j.move state error stage (s.store.outputSize? j) s.now) := by
    rw [Store.find?_modify (by exact fun _ _ => hid), hj, Option.map_some, if_pos rfl]
  simp only [view, store_setStore, hfind, Option.map_some]
  rfl

/-- **A failure is seen**, if the job is not over. -/
theorem view_leave (open' : w.state.isFinal = false)
    (date : Timestamp.check s.rounding s.now = .ok ()) (failure : String) :
    (s.leave id (some failure)).view id =
      { v with standing := some (w.move .failed (some failure) none), task := none } := by
  have hforward : w.state.canMoveTo .failed = true := by
    revert open'
    cases w.state <;> decide
  obtain ⟨j, store, htransition, -, -, -, hview⟩ :=
    transition_ok seen standing .failed hforward date (some failure) none
  rw [leave_eq, leftStore, htransition]
  exact view_endTask (s := (s.setSlots s.slots.release).setStore store) hview

end Changes

/-- **Others change nothing of what can be seen of a job**, unless they remove it or tell it to stop. -/
theorem AtHome.view_step_of_other {n : Nat} (plain : ".." ∉ s.store.root) (placed : Placed s)
    (home : AtHome (jobId n) s) {e : Event} (other : e.job? ≠ some (jobId n))
    (avoids : ∀ p, s.store.Below (jobId n) p → Avoids p s e) (issued : s.store.Issued (jobId n))
    (stays : (s.step e).store.find? (jobId n) ≠ none)
    (awake : ∀ t, (s.step e).task? (jobId n) = some t → t.cancelled = false) :
    (s.step e).view (jobId n) = s.view (jobId n) := by
  obtain ⟨-, huntouched⟩ := home.step_of_other plain placed other avoids issued stays
  have hrecord : (s.step e).store.find? (jobId n) = s.store.find? (jobId n) := by
    obtain ⟨j, hj⟩ := Option.ne_none_iff_exists'.mp stays
    rcases record_step_of_other placed.tabled other hj with hold | ⟨hnew, -⟩
    · exact hj.trans hold.symm
    · exact absurd (hnew ▸ issued) (Store.not_issued_jobId (Nat.lt_succ_self _))
  have htask : (s.step e).task? (jobId n) = s.task? (jobId n) := by
    cases task : s.task? (jobId n) with
    | none =>
      refine Option.eq_none_iff_forall_ne_some.mpr fun t' task' => ?_
      rcases task?_eq_told_of_other placed.tabled other task' with ⟨t, ht, -⟩ | ⟨hnew, -⟩
      · cases task.symm.trans ht
      · exact hnew issued
    | some t =>
      obtain ⟨t', task', -⟩ := task?_step_of_other placed.tabled other task
      rcases task?_eq_told_of_other placed.tabled other task' with ⟨u, hu, hsame, htold⟩ | ⟨hnew, -⟩
      · obtain rfl : t = u := Option.some.inj (task.symm.trans hu)
        have hawake : t.cancelled = false := by
          by_contra h
          have := htold (by simpa using h)
          rw [awake t' task'] at this
          cases this
        rw [task', hsame, awake t' task', ← hawake]
      · exact absurd issued hnew
  have hdirectory : (s.step e).store.directory (jobId n) = s.store.directory (jobId n) := by
    rw [Store.directory, root_step placed.tabled.numbered, Store.directory]
  have hshown (name : String) :
      (s.step e).store.files.shown? (s.store.directory (jobId n) ++ [name]) =
        s.store.files.shown? (s.store.directory (jobId n) ++ [name]) :=
    (huntouched _ (List.prefix_append _ _)).shown?_eq
  rw [view, hrecord, htask, process?_step_of_other placed.tabled other, hdirectory, hshown, hshown,
    view]

end Service
end Montage
