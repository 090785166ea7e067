import Montage.Files.Tree
import Montage.Number.Basic
import Montage.Text.Quoted

/-! # Jobs

A job carries one timeline through its states.  States only move forward: each has a
**rank**, a move goes to a higher rank, and the two states of the highest rank are final
(`JobState.canMoveTo`).

A `Job` is the record of what happened so far.  `Job.move` makes the next record: the start
is recorded with downloading, the end with a final state, the error with failure, and a note
about progress stays only while the job runs.
-/
namespace Montage

inductive JobState where
  | queued
  | downloading
  | rendering
  | completed
  | failed
  deriving DecidableEq, Repr

namespace JobState

def word : JobState → String
  | queued => "queued"
  | downloading => "downloading"
  | rendering => "rendering"
  | completed => "completed"
  | failed => "failed"

def all : List JobState := [queued, downloading, rendering, completed, failed]

def ofWord? (s : String) : Option JobState := all.find? fun k => k.word == s

def rank : JobState → Nat
  | queued => 0
  | downloading => 1
  | rendering => 2
  | completed | failed => 3

/-- A state that is never left. -/
def isFinal : JobState → Bool
  | completed | failed => true
  | _ => false

/-- Moves go forward. -/
def canMoveTo (a b : JobState) : Bool := !a.isFinal && a.rank < b.rank

/-- The final states are those of the highest rank. -/
theorem isFinal_iff (s : JobState) : s.isFinal = true ↔ s.rank = 3 := by cases s <;> decide

theorem canMoveTo_iff (a b : JobState) : a.canMoveTo b = true ↔ a.rank < b.rank := by
  cases a <;> cases b <;> decide

end JobState

abbrev JobId := String

/-- The id of the `n`-th job. -/
def jobId (n : Nat) : JobId := String.ofList (Text.hex 32 n)

/-- What is known of a job; times are seconds of the clock, and the age counts on a steady clock
that nobody sets. -/
structure Job where
  id : JobId
  directory : Path
  state : JobState
  error : Option String
  /-- A note about progress. -/
  stage : Option String
  outputSize : Option Nat
  created : Number
  started : Option Number
  completed : Option Number
  /-- Reading of the steady clock at the creation. -/
  since : Number
  deriving DecidableEq, Repr

namespace Job

/-- Name of the file that a job makes. -/
def outputName : String := "output.mp4"

def outputPath (j : Job) : Path := j.directory ++ [outputName]

/-- A job that waits. -/
def fresh (id : JobId) (directory : Path) (now steady : Number) : Job :=
  ⟨id, directory, .queued, none, none, none, now, none, none, steady⟩

/-- The error of a job that failed without saying why. -/
def unexplained : String := "Render failed"

/-- A text that says something, or another one. -/
def orElseText (s : Option String) (absent : String) : String :=
  match s with
  | some s => if s.isEmpty then absent else s
  | none => absent

/-- The record at the beginning of a move: a final state has no note about progress. -/
def enter (j : Job) (state : JobState) (stage : Option String) : Job :=
  { j with state, stage := if state.isFinal then none else stage }

/-- The record after a move; `size` is the size of the output file, if there is one. -/
def move (j : Job) (state : JobState) (error stage : Option String) (size : Option Nat)
    (now : Number) : Job :=
  { j.enter state stage with
    started := if state = .downloading then some now else j.started
    completed := if state.isFinal then some now else j.completed
    error := if state = .failed then some (orElseText error unexplained) else j.error
    outputSize := if state = .completed then size.or j.outputSize else j.outputSize }

/-- Notes progress, unless the job has ended. -/
def note (j : Job) (stage : String) : Job :=
  if j.state.isFinal then j else { j with stage := some stage }

end Job
end Montage
