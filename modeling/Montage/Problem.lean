import Montage.Number.Decimal

/-! # Problems

Everything that the service can refuse or fail at is a **problem**: a kind, a message for
people, a code for machines, an HTTP status, and the place in the request that it is about.
The kind settles message, code and status unless something more precise is known.

What went wrong is told by the modules that find it, each with causes of its own; they build
their problems with the functions of this module, so that a wording stands in one place.
The table `spec` says which codes are worth a second try and how to mend the request.
-/
namespace Montage

namespace Problem

inductive Kind where
  | internal
  | validation
  | compile
  | emptyTimeline
  | missingAsset
  | invalidTrim
  | invalidParameter
  | fetch
  | assetNotFound
  | emptyPayload
  | fetchTimeout
  | transport
  | corruptAsset
  | engine
  | outputInvalid
  | notFound
  | notReady
  | payloadTooLarge
  | unavailable
  deriving DecidableEq, Repr

namespace Kind

/-- All kinds, in the order of their declaration. -/
def all : List Kind :=
  [internal, validation, compile, emptyTimeline, missingAsset, invalidTrim, invalidParameter, fetch,
    assetNotFound, emptyPayload, fetchTimeout, transport, corruptAsset, engine, outputInvalid,
    notFound, notReady, payloadTooLarge, unavailable]

/-- The code that machines read. -/
def code : Kind → String
  | internal => "INTERNAL_ERROR"
  | validation => "VALIDATION_ERROR"
  | compile => "COMPILE_ERROR"
  | emptyTimeline => "EMPTY_TIMELINE"
  | missingAsset => "MISSING_ASSET"
  | invalidTrim => "INVALID_TRIM"
  | invalidParameter => "INVALID_PARAMETER"
  | fetch => "ASSET_TRANSPORT"
  | assetNotFound => "ASSET_NOT_FOUND"
  | emptyPayload => "ASSET_EMPTY"
  | fetchTimeout => "ASSET_TIMEOUT"
  | transport => "ASSET_TRANSPORT"
  | corruptAsset => "ASSET_CORRUPT"
  | engine => "ENGINE_FAILED"
  | outputInvalid => "OUTPUT_INVALID"
  | notFound => "JOB_NOT_FOUND"
  | notReady => "JOB_NOT_READY"
  | payloadTooLarge => "PAYLOAD_TOO_LARGE"
  | unavailable => "SERVICE_UNAVAILABLE"

/-- The HTTP status of an answer that reports the problem. -/
def status : Kind → Nat
  | internal | engine | outputInvalid => 500
  | validation => 400
  | compile | emptyTimeline | missingAsset | invalidTrim | invalidParameter | corruptAsset => 422
  | fetch | emptyPayload | transport => 502
  | fetchTimeout => 504
  | assetNotFound | notFound => 404
  | notReady => 409
  | payloadTooLarge => 413
  | unavailable => 503

/-- The message when nothing more precise is known. -/
def message : Kind → String
  | internal => "An unexpected error occurred"
  | validation => "Invalid timeline"
  | compile => "Timeline could not be compiled"
  | emptyTimeline => "Timeline has no clips"
  | missingAsset => "Clip source was not fetched"
  | invalidTrim => "Invalid trim range"
  | invalidParameter => "Invalid parameter value"
  | fetch => "Asset could not be fetched"
  | assetNotFound => "Asset not found"
  | emptyPayload => "Downloaded file is empty"
  | fetchTimeout => "Timed out fetching asset"
  | transport => "Transport error fetching asset"
  | corruptAsset => "Asset is not readable media"
  | engine => "FFmpeg failed"
  | outputInvalid => "Output video invalid or empty"
  | notFound => "Job not found"
  | notReady => "Job output is not ready"
  | payloadTooLarge => "Upload exceeds the size limit"
  | unavailable => "Renderer is shutting down"

/-- The kind that settles what can be told of problems of a kind. -/
def family : Kind → Kind
  | fetch | assetNotFound | emptyPayload | fetchTimeout | transport | corruptAsset => fetch
  | engine | outputInvalid => engine
  | missingAsset => missingAsset
  | invalidTrim => invalidTrim
  | invalidParameter => invalidParameter
  | notFound => notFound
  | notReady => notReady
  | internal | validation | compile | emptyTimeline | payloadTooLarge | unavailable => internal

/-- Names of what can be told of problems of a kind. -/
def details (k : Kind) : List String :=
  match k.family with
  | missingAsset => ["source", "field"]
  | invalidTrim => ["message", "start", "end", "field"]
  | invalidParameter => ["message", "field", "value", "min_value", "max_value"]
  | fetch => ["message", "source"]
  | engine => ["message", "exit_code", "diagnostics"]
  | notFound => ["job_id"]
  | notReady => ["job_id", "state"]
  | _ => ["message", "code", "status_code", "field"]

/-- The first of several details that cannot be told of problems of a kind. -/
def strayDetail? (k : Kind) (names : List String) : Option String :=
  names.find? fun n => !k.details.contains n

/-- Problems that are found while a timeline is checked or compiled. -/
def isCompile : Kind → Bool
  | compile | emptyTimeline | missingAsset | invalidTrim | invalidParameter => true
  | _ => false

end Kind

/-- A value that a message quotes. -/
inductive Quoted where
  | int (value : Int)
  | number (value : Number)
  | text (value : String)
  deriving DecidableEq, Repr

def Quoted.wording : Quoted → String
  | int n => toString n
  | number x => x.report
  | text s => s

end Problem

structure Problem where
  kind : Problem.Kind
  message : String
  code : String
  status : Nat
  /-- Place in the request. -/
  field : Option String
  deriving DecidableEq, Repr

namespace Problem

/-- A text that says something. -/
def given : Option String → Option String
  | some s => if s.isEmpty then none else some s
  | none => none

/-- A problem of a kind; what is not given is taken from the kind. -/
def make (kind : Kind) (message code : Option String) (status : Option Nat)
    (field : Option String) : Problem :=
  { kind
    message := (given message).getD kind.message
    code := (given code).getD kind.code
    status := (status.filter (· ≠ 0)).getD kind.status
    field }

/-- A problem with the message of its kind. -/
def plain (kind : Kind) : Problem := make kind none none none none

/-- A problem with a message of its own. -/
def saying (kind : Kind) (message : String) (field : Option String) : Problem :=
  make kind (some message) none none field

/-- A source of the timeline was not fetched. -/
def missingAsset (source field : Option String) : Problem :=
  make .missingAsset ((given source).map fun s => "No fetched asset for source: " ++ s)
    none none field

/-- A trim is not a range; with both ends the message names them. -/
def invalidTrim (message : Option String) (start finish : Option Number) (field : Option String) :
    Problem :=
  match start, finish with
  | some s, some e =>
    saying .invalidTrim ("Invalid trim range: " ++ s.report ++ "s to " ++ e.report ++ "s") field
  | _, _ => make .invalidTrim message none none field

/-- A parameter has a value that it must not have; the message names value and bounds if
they are known. -/
def invalidParameter (message field : Option String) (value low high : Option Quoted) : Problem :=
  match given field, value with
  | some f, some v =>
    let bounds := match low, high with
      | some l, some h => " (allowed: " ++ l.wording ++ " to " ++ h.wording ++ ")"
      | _, _ => ""
    saying .invalidParameter ("Invalid value for '" ++ f ++ "': " ++ v.wording ++ bounds) field
  | _, _ => make .invalidParameter message none none field

/-- An asset could not be had; without a message its source is named. -/
def fetching (kind : Kind) (message source : Option String) : Problem :=
  match given message, given source with
  | none, some s => saying kind (kind.message ++ ": " ++ s) none
  | _, _ => make kind message none none none

/-- The engine failed or left something useless behind. -/
def engine (kind : Kind) (message : Option String) (exitCode : Option Quoted)
    (diagnostics : String) : Problem :=
  let head := match given message, exitCode with
    | some m, _ => m
    | none, some n => kind.message ++ " (exit code " ++ n.wording ++ ")"
    | none, none => kind.message
  saying kind (if diagnostics.isEmpty then head else head ++ ": " ++ diagnostics) none

/-- No job has the id. -/
def notFound (id : Option String) : Problem :=
  make .notFound ((given id).map fun i => "Job not found: " ++ i) none none none

/-- The job has no output in its state. -/
def notReady (id state : Option String) : Problem :=
  match given id, given state with
  | some i, some s => saying .notReady ("Job " ++ i ++ " is " ++ s ++ ", output is not available") none
  | _, _ => plain .notReady

/-- A problem of a timeline, reported about the request that carried it. -/
def asValidation (p : Problem) : Problem :=
  make .validation (some p.message) (some p.code) none p.field

/-- Whether the same request may be tried again, and how to mend it. -/
structure Spec where
  retryable : Bool
  fix : Option String
  deriving DecidableEq, Repr

/-- What is known about a code. -/
def spec (code : String) : Spec :=
  match code with
  | "EMPTY_TIMELINE" => ⟨false, some "Provide at least one clip (or videoMedia/audioMedia item)"⟩
  | "INVALID_TRIM" =>
    ⟨false, some "Use a non-negative trim start and an end/duration after it"⟩
  | "INVALID_PARAMETER" =>
    ⟨false, some "Check filter, speed, volume and overlay values against their ranges"⟩
  | "ASSET_NOT_FOUND" => ⟨false, some "Verify the media URL or upload id is reachable"⟩
  | "ASSET_EMPTY" => ⟨true, some "Re-upload the media file; the server returned no bytes"⟩
  | "ASSET_TIMEOUT" =>
    ⟨true, some "Retry the render or host the media closer to the renderer"⟩
  | "ASSET_TRANSPORT" => ⟨true, none⟩
  | "ASSET_CORRUPT" =>
    ⟨false, some "The file could not be read as media; re-encode it and retry"⟩
  | "OUTPUT_INVALID" =>
    ⟨true, some "The engine produced an empty or truncated file; retry the render"⟩
  | "JOB_NOT_FOUND" => ⟨false, some "The job never existed or was removed by retention"⟩
  | "JOB_NOT_READY" => ⟨true, some "Poll GET /jobs/\x7bjob_id\x7d until state is completed"⟩
  | "PAYLOAD_TOO_LARGE" =>
    ⟨false, some "Upload files up to MAX_UPLOAD_SIZE_MB or host them at a URL"⟩
  | "SERVICE_UNAVAILABLE" =>
    ⟨true, some "The renderer is shutting down; retry against another instance"⟩
  | _ => ⟨false, none⟩

end Problem
end Montage
