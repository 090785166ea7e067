import Montage.Engine.Output
import Montage.Plan.Basic
import Montage.Problem

/-! # Running the engine

An engine is a program with options of its own and a bound on the diagnostics that are kept.
`Engine.arguments?` is its command line for a plan.

A **watch** holds what has been read of a process: the unfinished lines of its two streams
and the tail of its diagnostics.  The process ends with an exit code, and the result carries
the code and the diagnostics.  A code other than zero is a failure; it reports the last lines
of the diagnostics only.
-/
namespace Montage

structure Engine where
  program : String
  /-- Lines of diagnostics that are kept; with fewer than none no process can be watched. -/
  diagnosticLines : Int
  /-- Options before the name of the output. -/
  options : List String
  deriving DecidableEq, Repr

namespace Engine

/-- Exit code of a program that cannot be started. -/
def notStarted : Int := 127

/-- Lines of diagnostics that a failure reports. -/
def excerptLines : Nat := 10

/-- Options that let the engine report its progress. -/
def progressOptions : List String := ["-progress", "pipe:1"]

/-- Puts options before the last argument. -/
def beforeLast (options arguments : List String) : List String :=
  arguments.dropLast ++ options ++ arguments.getLast?.toList

/-- Command line for a plan. -/
def arguments? (e : Engine) (p : TextPlan) : Option (List String) :=
  (p.arguments? e.program e.options).map (beforeLast progressOptions)

/-- Exit code and diagnostics of a process that has ended. -/
structure Result where
  exitCode : Int
  diagnostics : String
  deriving DecidableEq, Repr

def Result.isOk (r : Result) : Bool := r.exitCode == 0

/-- The message about a file that is not there. -/
def noSuchFile (path : String) : String :=
  "[Errno 2] No such file or directory: " ++ Text.quoted path

/-- Result of a program that does not exist. -/
def Result.missing (program : String) : Result := ⟨notStarted, noSuchFile program⟩

/-- A run that ended with a code other than zero. -/
structure Failure where
  exitCode : Int
  /-- The last lines of the diagnostics. -/
  excerpt : String
  deriving DecidableEq, Repr

def Failure.problem (f : Failure) : Problem :=
  .engine .engine none (some (.int f.exitCode)) f.excerpt

/-- Accepts a result with exit code zero. -/
def Result.accept (r : Result) : Except Failure Result :=
  if r.isOk then .ok r
  else .error ⟨r.exitCode, "\n".intercalate (Text.lastN excerptLines (Text.lines r.diagnostics))⟩

/-- What has been read of a running process. -/
structure Watch where
  output : LineBuffer
  errors : LineBuffer
  tail : Tail
  deriving DecidableEq, Repr

/-- Nothing has been read. -/
def Watch.begin (e : Engine) : Except ReadFault Watch :=
  if e.diagnosticLines < 0 then .error .negativeTail
  else .ok ⟨⟨[]⟩, ⟨[]⟩, ⟨e.diagnosticLines.toNat, []⟩⟩

/-- What a process has written since, and whether it has closed its streams. -/
structure Written where
  output : List UInt8
  errors : List UInt8
  closed : Bool
  deriving DecidableEq, Repr

/-- What reading on has brought. -/
structure Reading where
  watch : Watch
  /-- Encoded times, in seconds. -/
  times : List Number
  /-- The stream of diagnostics cannot be read any further. -/
  errorFault : Option ReadFault
  /-- The stream of reports cannot be read any further. -/
  outputFault : Option ReadFault
  deriving DecidableEq, Repr

/-- The first fault; the stream of diagnostics is read first. -/
def Reading.fault? (r : Reading) : Option ReadFault := r.errorFault.or r.outputFault

/-- Reads on.  Times are read only if somebody listens. -/
def Watch.take (w : Watch) (r : Rounding) (listening : Bool) (more : Written) : Reading :=
  let (errorLines, errors, errorFault) := w.errors.take more.errors more.closed
  let (outputLines, output, outputFault) := w.output.take more.output more.closed
  let (times, timeFault) := if listening then reportedTimes r outputLines else ([], none)
  { watch := ⟨output, errors, errorLines.foldl Tail.take w.tail⟩
    times
    errorFault
    outputFault := timeFault.or outputFault }

/-- Result of a process that has closed its streams and exited. -/
def Watch.result (w : Watch) (exitCode : Int) : Result := ⟨exitCode, "\n".intercalate w.tail.lines⟩

end Engine
end Montage
