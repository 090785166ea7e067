import Montage.Text.Lines

/-! # Routes

An **endpoint** is what a path names, and a **route** is an endpoint with a method that it
takes.

A path that names nothing but would name something with or without a slash at its end is sent
there.
-/
namespace Montage.Http

/-- What a path can name. -/
inductive Endpoint where
  | render
  | job (id : String)
  | output (id : String)
  | upload (name : String)
  | health
  /-- A page that tells a reader how to use the service. -/
  | manual
  /-- The same for a program. -/
  | interface
  deriving DecidableEq, Repr

/-- A word, perhaps with a line feed behind it. -/
def isWord (word part : String) : Bool :=
  String.ofList (Text.dropFinalFeed part.toList) == word

/-- The endpoint that a path names. -/
def Endpoint.ofPath? (path : String) : Option Endpoint :=
  match (path.toList.splitOn '/').map String.ofList with
  | ["", a] =>
    if isWord "render" a then some .render
    else if isWord "health" a then some .health
    else if isWord "docs" a || isWord "redoc" a then some .manual
    else if isWord "openapi.json" a then some .interface
    else none
  | ["", "docs", a] => if isWord "oauth2-redirect" a then some .manual else none
  | ["", "jobs", id] => if id.isEmpty then none else some (.job id)
  | ["", "uploads", name] => if name.isEmpty then none else some (.upload name)
  | ["", "jobs", id, a] => if !id.isEmpty && isWord "output" a then some (.output id) else none
  | _ => none

/-- Whether the endpoint takes a method. -/
def Endpoint.takes (method : String) : Endpoint → Bool
  | render => method == "POST"
  | job _ => method == "GET" || method == "DELETE"
  | output _ => method == "GET"
  | upload _ => method == "PUT"
  | health => method == "GET"
  | manual | interface => method == "GET" || method == "HEAD"

/-- The path with the slash at its end taken away, or with one put there. -/
def otherSlash (path : String) : String :=
  let cs := path.toList
  if cs.getLast? = some '/' then String.ofList (cs.reverse.dropWhile (· == '/')).reverse
  else String.ofList (cs ++ ['/'])

/-- Whether a path that names nothing is sent to another one. -/
def isSentOn (path : String) : Bool :=
  path != "/" && (Endpoint.ofPath? (otherSlash path)).isSome

end Montage.Http
