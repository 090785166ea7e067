import Montage.Http.Basic

/-! # Calls from other origins

A browser tells the origin from which it calls, and asks beforehand whether it may
(`Preflight`).  A `CorsPolicy` says which origins may: those of a list, and those under
`https` whose host ends in one of some endings.  Whoever may call can use all methods, but
nobody is let into a private network.
-/
namespace Montage.Http

structure CorsPolicy where
  origins : List String
  /-- Endings of further origins; something may stand between `https://` and the ending. -/
  endings : List String
  deriving DecidableEq, Repr

/-- The pages that the service is made for. -/
def CorsPolicy.standard : CorsPolicy :=
  { origins := ["https://msimbi.com", "https://www.msimbi.com", "https://lovable.dev"]
    endings := [".lovable.com", ".lovableapp.com", ".lovableproject.com"] }

/-- The methods that may be used. -/
def corsMethods : List String := ["DELETE", "GET", "HEAD", "OPTIONS", "PATCH", "POST", "PUT"]

/-- A text that begins and ends in given ways, on one line. -/
def isFramed (front back : List Char) (cs : List Char) : Bool :=
  front.isPrefixOf cs && back.isSuffixOf (cs.drop front.length) && !cs.contains '\n'

/-- Whether calls from an origin are allowed. -/
def CorsPolicy.allows (p : CorsPolicy) (origin : String) : Bool :=
  p.origins.contains origin ||
    p.endings.any fun e => isFramed "https://".toList e.toList origin.toList

/-- The question whether a call may be made. -/
structure Preflight where
  origin : String
  method : String
  /-- Whether the call would lead from a public network into a private one. -/
  intoPrivate : Bool
  deriving DecidableEq, Repr

/-- The question that a request asks, if it is one. -/
def Request.preflight? (r : Request) : Option Preflight :=
  if r.method = "OPTIONS" then
    match r.header? "origin", r.header? "access-control-request-method" with
    | some origin, some method =>
      some ⟨origin, method, (r.header? "access-control-request-private-network").isSome⟩
    | _, _ => none
  else none

/-- The origin if calls from it are allowed. -/
def CorsPolicy.allowed? (p : CorsPolicy) (origin : String) : Option String :=
  if p.allows origin then some origin else none

/-- The answer to the question whether a call may be made. -/
def CorsPolicy.answer (p : CorsPolicy) (q : Preflight) : Response :=
  let failures := (if p.allows q.origin then [] else ["origin"]) ++
    (if corsMethods.contains q.method then [] else ["method"]) ++
    (if q.intoPrivate then ["private-network"] else [])
  let response :=
    if failures.isEmpty then Response.plain 200 "OK"
    else .plain 400 ("Disallowed CORS " ++ ", ".intercalate failures)
  { response with allowOrigin := p.allowed? q.origin }

/-- A response as a caller from another origin gets it. -/
def CorsPolicy.mark (p : CorsPolicy) (request : Request) (response : Response) : Response :=
  { response with allowOrigin := (request.header? "origin").bind p.allowed? }

end Montage.Http
