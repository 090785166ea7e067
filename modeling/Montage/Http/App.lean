import Montage.Asset.Upload
import Montage.Clock.Timestamp
import Montage.Http.Cors
import Montage.Http.Route
import Montage.Json.Encoding
import Montage.Json.Reader
import Montage.Service.Run

/-! # The service behind HTTP

An `App` is a service, the place of its uploads, and what it says of itself.  Most requests
are answered at once; the removal of a job is a call of the service, and its answer is ready
when the call has come to its end (`Pending`).

A problem becomes a response with its status and its description (`problemResponse`).  What
nobody has foreseen becomes a response that says no more than that, and is not marked for
callers from other origins.
-/
namespace Montage.Http

open Montage

structure App where
  service : Service
  uploads : UploadArea
  cors : CorsPolicy
  version : String
  /-- The state of the sources from which the service was built. -/
  build : String

/-- A field that is there if it has a value. -/
def fieldOf (name : String) : Option String → List (String × Json)
  | none => []
  | some s => [(name, .str s)]

/-- A response that describes what is wrong. -/
def errorResponse (status : Nat) (code message : String) (field : Option String)
    (spec : Problem.Spec) : Response :=
  .json status (.ofFields [("error", .ofFields ([("code", .str code), ("message", .str message)] ++
    fieldOf "field" field ++ [("retryable", .bool spec.retryable)] ++
    fieldOf "suggested_fix" spec.fix))])

/-- The response to a request that leads to a problem. -/
def problemResponse (p : Problem) : Response :=
  errorResponse p.status p.code p.message p.field (Problem.spec p.code)

/-- The response to a request that the service did not survive unharmed. -/
def internalResponse : Response :=
  errorResponse 500 "INTERNAL_ERROR" "Internal server error" none ⟨false, none⟩

/-- What is known of a request so far. -/
inductive Pending where
  | ready (response : Response)
  /-- Nobody has foreseen what happened. -/
  | crashed
  /-- The answer is that of a call. -/
  | calling (index : Nat)

/-- The response to a fault that is perhaps a problem. -/
def ofProblem? : Option Problem → Pending
  | some p => .ready (problemResponse p)
  | none => .crashed

/-! ### Bodies -/

/-- Why a body is no record. -/
inductive BodyFault where
  | missing
  | noRecord
  | notJson (position : Nat)
  /-- Not even a text. -/
  | unreadable
  deriving DecidableEq, Repr

/-- The response to a bad body. -/
def BodyFault.response (f : BodyFault) : Response :=
  let say (message : String) : Response :=
    errorResponse 400 Problem.Kind.validation.code message none
      (Problem.spec Problem.Kind.validation.code)
  match f with
  | missing => say "body: Field required"
  | noRecord => say "body: Input should be a valid dictionary"
  | notJson n => say ("body -> " ++ toString n ++ ": JSON decode error")
  | unreadable => .detail 400 "There was an error parsing the body"

/-- Whether a content type is JSON, or built on JSON. -/
def isJsonType (contentType : String) : Bool :=
  let value := Text.trimBlanks (String.ofList (contentType.toList.takeWhile (· != ';')))
  match ((headerName value).toList.splitOn '/').map String.ofList with
  | ["application", subtype] =>
    subtype == "json" || "+json".toList.isSuffixOf subtype.toList
  | _ => false

/-- The record that a JSON text holds. -/
def readRecord (bytes : List UInt8) : Except BodyFault Json :=
  match Json.decodeBytes? bytes with
  | none => .error .unreadable
  | some codes =>
    match Json.readCodes codes with
    | .ok (.obj fields) => .ok (.obj fields)
    | .ok .null => .error .missing
    | .ok _ => .error .noRecord
    | .error f => .error (if f.cause.isLimit then .unreadable else .notJson f.position)

/-- The record in the body of a request. -/
def Request.record (r : Request) : Except BodyFault Json :=
  let bytes := r.body.flatten
  if bytes.isEmpty then .error .missing
  else if (r.header? "content-type").any isJsonType then readRecord bytes
  else .error .noRecord

/-! ### Answers -/

/-- A time of the clock in universal time. -/
def timeJson (r : Rounding) (seconds : Number) : Json :=
  .str ((Timestamp.ofSeconds r seconds).text "Z")

/-- What clients are told of a job. -/
def jobJson (r : Rounding) (j : Job) : Json :=
  .obj [("jobId", .str j.id), ("state", .str j.state.word), ("error", Json.ofOption .str j.error),
    ("currentStage", Json.ofOption .str j.stage),
    ("outputSize", Json.ofOption (fun n => .int n) j.outputSize),
    ("createdAt", timeJson r j.created), ("startedAt", Json.ofOption (timeJson r) j.started),
    ("completedAt", Json.ofOption (timeJson r) j.completed)]

namespace App

/-- What the service says of itself. -/
def health (a : App) : Response :=
  .json 200 (.obj [("status", .str "healthy"), ("version", .str a.version),
    ("git_hash", .str a.build), ("in_flight", .int a.service.inFlight)])

/-- What the service says of its use to a reader. -/
def manual (a : App) : Response := .page ("Render service " ++ a.version)

/-- What the service says of its use to a program. -/
def interface (a : App) : Response :=
  .json 200 (.obj [("openapi", .str "3.1.0"), ("info", .obj [("version", .str a.version)])])

/-- Whether the answer to a submission would name half of a pair; nobody can be told. -/
def namesHalf (a : App) (s : Submission) (disk : Option DiskRefusal) : Bool :=
  match (a.service.submit s.withOtherHalves disk).1, (a.service.submit s disk).1 with
  | .error f, .error g => f != g
  | _, _ => false

/-- A timeline is submitted. -/
def render (a : App) (r : Request) (disk : Option DiskRefusal) : App × Pending :=
  match r.record with
  | .error f => (a, .ready f.response)
  | .ok body =>
    match a.service.submit (.body body) disk with
    | (.error f, service) =>
      ({ a with service },
        if a.namesHalf (.body body) disk then .crashed else ofProblem? f.problem?)
    | (.ok id, service) =>
      ({ a with service }, .ready (.json 202 (.obj [("jobId", .str id)])))

/-- A body is uploaded. -/
def upload (a : App) (r : Request) (name : String) : App × Pending :=
  match a.uploads.receive a.service.store.files name r.body with
  | (result, uploads, files) =>
    let a := { a with uploads, service := a.service.setFiles files }
    match result with
    | .error f => (a, ofProblem? f.problem?)
    | .ok (id, size) =>
      (a, .ready (.json 201 (.obj [("uploadId", .str id), ("size", .int size)])))

/-- The state of a job. -/
def jobState (a : App) (id : JobId) : Pending :=
  match a.service.store.get id with
  | .error f => ofProblem? f.problem?
  | .ok j => .ready (.json 200 (jobJson a.service.rounding j))

/-- The output of a job. -/
def output (a : App) (id : JobId) : Pending :=
  match a.service.store.openOutput id with
  | .error f => ofProblem? f.problem?
  | .ok h =>
    let size := ((a.service.store.files.content? h).map Content.size).getD 0
    .ready ⟨200, .video size, some (id ++ ".mp4"), none⟩

/-- What the endpoint does with a request that it takes. -/
def serve (a : App) (r : Request) (disk : Option DiskRefusal) : Endpoint → App × Pending
  | .render => a.render r disk
  | .upload name => a.upload r name
  | .health => (a, .ready a.health)
  | .manual => (a, .ready a.manual)
  | .interface => (a, .ready a.interface)
  | .output id => (a, a.output id)
  | .job id =>
    if r.method = "DELETE" then
      ({ a with service := a.service.ask (.delete id) }, .calling a.service.calls.length)
    else (a, a.jobState id)

/-- Begins to answer a request; `disk` is what the disk says against writing a request
down. -/
def begin (a : App) (r : Request) (disk : Option DiskRefusal) : App × Pending :=
  match r.preflight? with
  | some p => (a, .ready (a.cors.answer p))
  | none =>
    match Endpoint.ofPath? r.path with
    | some e =>
      if e.takes r.method then a.serve r disk e
      else (a, .ready (.detail 405 "Method Not Allowed"))
    | none =>
      (a, .ready (if isSentOn r.path then .bare 307 else .detail 404 "Not Found"))

/-- The response that a client gets, if it is ready; one that asks for the heading gets no
body. -/
def response? (a : App) (r : Request) : Pending → Option Response
  | .ready response =>
    let sent := if r.method = "HEAD" then response.heading else response
    some (if r.preflight?.isSome then sent else a.cors.mark r sent)
  | .crashed => some internalResponse
  | .calling index =>
    (a.service.answer? index).map fun
      | .ok _ => a.cors.mark r (.bare 204)
      | .error f => match f.problem? with
        | some p => a.cors.mark r (problemResponse p)
        | none => internalResponse

end App
end Montage.Http
