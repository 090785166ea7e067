import Montage.Json.Basic
import Montage.Url.Request

/-! # Requests and responses

A request has a method, a path, headers and a body that arrives in pieces; the case of a
header's name does not matter.  A client writes the path as a target, which may be a whole URL,
and cannot send every one (`Request.ofTarget`).  A response has a status and a body, and says what the body is
unless it has none.
-/
namespace Montage.Http

structure Request where
  method : String
  /-- Without escapes. -/
  path : String
  headers : List (String × String)
  body : List (List UInt8)
  deriving DecidableEq, Repr

/-- Where the service is asked. -/
def home : Url := ⟨"http", "", "test", none, "/", none, none⟩

/-- The request that a client sends for a target. -/
def Request.ofTarget (method target : String) (headers : List (String × String))
    (body : List (List UInt8)) : Except NetworkFault Request := do
  let url ← home.asked target
  headers.forM fun (name, value) => do
    checkAscii name
    checkAscii value
  discard (url.shownHost.mapError .host)
  .ok ⟨method.toUpper, url.shownPath, headers, body⟩

/-- A name in small letters. -/
def headerName (s : String) : String := String.ofList (s.toList.map Char.toLower)

/-- The value of a header. -/
def Request.header? (r : Request) (name : String) : Option String :=
  (r.headers.find? fun h => headerName h.1 == name).map Prod.snd

inductive Body where
  | json (value : Json)
  | plain (text : String)
  | page (text : String)
  /-- A video of so many bytes. -/
  | video (size : Nat)
  /-- A body of a kind that is named and not sent. -/
  | withheld (kind : String)
  | none

structure Response where
  status : Nat
  body : Body
  /-- The name under which the body is to be kept. -/
  fileName : Option String
  /-- The origin that may read the response. -/
  allowOrigin : Option String

namespace Response

/-- The kind of the body. -/
def contentType? (r : Response) : Option String :=
  match r.body with
  | .withheld kind => some kind
  | .json _ => some "application/json"
  | .plain _ => some "text/plain; charset=utf-8"
  | .page _ => some "text/html; charset=utf-8"
  | .video _ => some "video/mp4"
  | .none => Option.none

/-- The response without its body. -/
def heading (r : Response) : Response :=
  match r.contentType? with
  | some kind => { r with body := .withheld kind }
  | none => r

/-- What a client is to do with the body. -/
def disposition? (r : Response) : Option String :=
  r.fileName.map fun n => "attachment; filename=\"" ++ n ++ "\""

def json (status : Nat) (value : Json) : Response := ⟨status, .json value, none, none⟩

def plain (status : Nat) (text : String) : Response := ⟨status, .plain text, none, none⟩

def page (text : String) : Response := ⟨200, .page text, none, none⟩

/-- A response without a body. -/
def bare (status : Nat) : Response := ⟨status, .none, none, none⟩

/-- A response that says what is wrong. -/
def detail (status : Nat) (text : String) : Response := json status (.obj [("detail", .str text)])

end Response
end Montage.Http
