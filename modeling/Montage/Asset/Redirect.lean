import Montage.Url.Request
import Montage.Url.Resolve

/-! # Requests and redirects

A network answers a request for a URL with a `Reply`, or never.  A reply may name another
place, as a reference that is read from the URL that was asked.  `follow` asks on until a reply
stands by itself; the number of places is limited.

A request that cannot be made and a reply that cannot be taken end in a `NetworkFault`; but a
reply with a place that is no URL breaks the exchange.
-/
namespace Montage

open Montage.Text

/-- What becomes of a request. -/
inductive Reply where
  | response (status : Nat) (body : String) (location : Option String)
  /-- A limit of the client was reached. -/
  | timedOut
  | broken (message : String)
  /-- There is no answer. -/
  | silent
  deriving DecidableEq, Repr

/-- Replies by the text of the URL. -/
abbrev Network := String → Reply

/-- How often a request may be sent elsewhere. -/
def maxRedirects : Nat := 20

/-- Statuses that send a request elsewhere. -/
def isRedirect (status : Nat) : Bool := [301, 302, 303, 307, 308].contains status

/-- Statuses of success. -/
def isSuccess (status : Nat) : Bool := 200 ≤ status && status < 300

/-- What a request comes to in the end. -/
inductive Answer where
  | response (status : Nat) (body : String)
  | timedOut
  | broken (message : String)
  | silent
  | refused (fault : NetworkFault)
  deriving DecidableEq, Repr

/-! ### Where to ask -/

/-- The text before the last number sign, which may be missing. -/
def withoutFragment (cs : List Char) : List Char :=
  if cs.contains '#' then ((cs.reverse.dropWhile (· != '#')).drop 1).reverse else cs

/-- Refuses a URL that does not begin with a scheme. -/
def checkScheme (u : Url) : Except NetworkFault Unit :=
  let cs := u.text.toList
  match cutAt (fun c => c == ':' || c == '/') (withoutFragment cs) with
  | (_ :: _, ':' :: _) => .ok ()
  | _ =>
    .error (.schemeless
      (String.ofList (if cs.getLast? = some '#' then cs.dropLast else cs)))

/-- Looks at the hosts of two URLs, that of the second one first if their schemes are the
same. -/
def checkHosts (asked next : Url) : Except NetworkFault Unit := do
  let (first, second) := if asked.scheme = next.scheme then (next, asked) else (asked, next)
  discard (first.shownHost.mapError .host)
  discard (second.shownHost.mapError .host)

/-- A URL with a scheme but no host takes the host that was asked. -/
def completeHost (asked u : Url) : Except NetworkFault Url := do
  if u.scheme.isEmpty then .ok u
  else
    let host ← u.shownHost.mapError .host
    if host.isEmpty then
      let host ← asked.shownHost.mapError .host
      (u.withHost host).mapError .url
    else .ok u

/-- A URL without scheme or host is read from the one that was asked. -/
def completePlace (asked u : Url) : Except NetworkFault Url := do
  if u.isAbsolute then .ok u
  else
    let text ← (UrlParts.resolve asked.text.toList u.text.toList).mapError .reference
    (Url.read (String.ofList text)).mapError .url

/-- A URL without a fragment takes the one of the URL that was asked. -/
def completeFragment (asked u : Url) : Except NetworkFault Url :=
  let fragment := Percent.unescaped ((asked.fragment.getD "").toList)
  if fragment.isEmpty || !(u.fragment.getD "").isEmpty then .ok u
  else (u.withFragment fragment).mapError .url

/-- The URL that a place names when it is read from the URL that was asked. -/
def completeUrl (asked u : Url) : Except NetworkFault Url := do
  let u ← completeHost asked u
  let u ← completePlace asked u
  let u ← completeFragment asked u
  checkHosts asked u
  .ok u

/-- The URL to which a reply sends a request. -/
def nextUrl (asked : Url) (location : String) : Except Answer Url :=
  match Url.read location with
  | .error f => .error (.broken ("Invalid URL in location header: " ++ f.message ++ "."))
  | .ok u => (completeUrl asked u).mapError .refused

/-! ### Following -/

/-- Refuses a reply that cannot be taken. -/
def checkReply (asked : Url) (location : Option String) : Except NetworkFault Unit := do
  checkAscii (location.getD "")
  checkScheme asked

/-- The answer to a request that may be sent elsewhere so many times. -/
def followAtMost (network : Network) : Nat → Url → Answer
  | left, url =>
    match network url.text with
    | .response status body location =>
      match checkReply url location, location.filter fun _ => isRedirect status with
      | .error f, _ => .refused f
      | .ok (), none => .response status body
      | .ok (), some location =>
        match nextUrl url location, left with
        | .error answer, _ => answer
        | .ok _, 0 => .broken "Exceeded maximum allowed redirects."
        | .ok next, left + 1 => followAtMost network left next
    | .timedOut => .timedOut
    | .broken m => .broken m
    | .silent => .silent
  termination_by left _ => left

/-- The answer to a request for what a text names. -/
def follow (network : Network) (text : String) : Answer :=
  match Url.asked .empty text with
  | .error f => .refused f
  | .ok url => followAtMost network maxRedirects url

end Montage
