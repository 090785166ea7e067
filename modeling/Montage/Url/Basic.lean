import Montage.Host.Name
import Montage.Text.Case
import Montage.Url.Parts
import Montage.Url.Path
import Montage.Url.Percent

/-! # URLs

A `Url` is what a request is sent to.  It is kept in a normal form: scheme and host are in lower
case, the host is ASCII, a port that goes without saying is left out, `.` and `..` are gone from
the path, and every part holds only characters that are safe in it, or escapes.

`Url.read` brings a text into that form or says what is wrong with it, and `Url.text` is the
text of a URL.  A URL with another host or fragment is assembled anew from its parts
(`Url.assemble`).
-/
namespace Montage

open Montage.Text

structure Url where
  scheme : String
  userinfo : String
  /-- A long address stands here without its brackets. -/
  host : String
  port : Option Int
  path : String
  query : Option String
  fragment : Option String
  deriving DecidableEq, Repr

namespace Url

/-- The parts of a URL that can be at fault by themselves. -/
inductive Part where
  | scheme
  | authority
  | path
  | query
  | fragment
  | host
  deriving DecidableEq, Repr

def Part.word : Part → String
  | scheme => "scheme"
  | authority => "authority"
  | path => "path"
  | query => "query"
  | fragment => "fragment"
  | host => "host"

/-- What is wrong with a text; a part is named if the URL was put together from parts. -/
inductive Fault where
  | long (part : Option Part)
  | control (part : Option Part) (c : Char) (position : Nat)
  | shortAddress (host : String)
  | longAddress (host : String)
  | host (name : String)
  | port (text : String)
  /-- The path behind an authority begins with a slash. -/
  | detachedPath
  /-- Without scheme and authority, the path would be read as an authority. -/
  | pathLikeAuthority
  /-- Without scheme and authority, the path would be read as having a scheme. -/
  | pathLikeScheme
  deriving DecidableEq, Repr

def Fault.message : Fault → String
  | long none => "URL too long"
  | long (some part) => "URL component " ++ quoted part.word ++ " too long"
  | control none c n =>
    "Invalid non-printable ASCII character in URL, " ++ quoted c.toString ++ " at position " ++
      toString n ++ "."
  | control (some part) c n =>
    "Invalid non-printable ASCII character in URL " ++ part.word ++ " component, " ++
      quoted c.toString ++ " at position " ++ toString n ++ "."
  | shortAddress h => "Invalid IPv4 address: " ++ quoted h
  | longAddress h => "Invalid IPv6 address: " ++ quoted h
  | host h => "Invalid IDNA hostname: " ++ quoted h
  | port t => "Invalid port: " ++ quoted t
  | detachedPath => "For absolute URLs, path must be empty or begin with '/'"
  | pathLikeAuthority => "Relative URLs cannot have a path starting with '//'"
  | pathLikeScheme => "Relative URLs cannot have a path starting with ':'"

/-- Greatest length of a URL and of its parts. -/
def longest : Nat := 65536

/-! ### Safe characters -/

/-- A visible character of ASCII that is not among those given. -/
def isVisibleBut (others : String) (c : Char) : Bool :=
  0x20 < c.toNat && c.toNat < 0x7f && !others.toList.contains c

def isFragmentChar (c : Char) : Bool := isVisibleBut "\"<>\x60" c

def isQueryChar (c : Char) : Bool := isVisibleBut "\"#<>" c

def isPathChar (c : Char) : Bool := isVisibleBut "\"#<>?\x60\x7b\x7d" c

def isUserChar (c : Char) : Bool := isVisibleBut "\"#<>?\x60\x7b\x7d/;=@[\\]^|" c

def isHostChar (c : Char) : Bool :=
  isAsciiAlphanumeric c || "-._~!$&'()*+,;=\"\x60\x7b\x7d%|\\".toList.contains c

/-! ### Hosts and ports -/

/-- Takes a character of a text that may be four runs of figures with one character between
two of them.  A place is even before the first figure of a run and odd behind a figure; the
next places are given. -/
def afterFigure (c : Char) (place : Nat) : List Nat :=
  let figure := isAsciiFigure c
  if place % 2 = 0 then if figure then [place + 1] else []
  else (if figure then [place] else []) ++ if place < 7 then [place + 1] else []

/-- Whether a host is meant as a short address: four runs of figures, with one character between
two of them. -/
def looksNumeric (host : List Char) : Bool :=
  (host.foldl (fun places c => (places.flatMap (afterFigure c)).eraseDups) [0]).contains 7

/-- What stands between brackets, if they enclose the text. -/
def bracketed? (host : List Char) : Option (List Char) :=
  match host, host.getLast? with
  | '[' :: rest, some ']' => some rest.dropLast
  | _, _ => none

/-- The normal form of a host. -/
def normalHost (host : List Char) : Except Fault (List Char) :=
  if host.isEmpty then .ok []
  else if looksNumeric host then
    if Address.isShort host then .ok host else .error (.shortAddress (String.ofList host))
  else match bracketed? host with
    | some inside =>
      if Address.isLong inside then .ok inside else .error (.longAddress (String.ofList host))
    | none =>
      if host.all isAscii then .ok (Percent.escaped isHostChar (host.map Char.toLower))
      else match Host.encode (lowerCase host) with
        | .ok name => .ok name
        | .error _ => .error (.host (String.ofList host))

/-- The port that goes without saying. -/
def standardPort? (scheme : String) : Option Int :=
  match scheme with
  | "ftp" => some 21
  | "http" | "ws" => some 80
  | "https" | "wss" => some 443
  | _ => none

/-- The normal form of a port; the scheme is given as it is written. -/
def normalPort (scheme : String) (port : List Char) : Except Fault (Option Int) :=
  if port.isEmpty then .ok none
  else match Number.measuredInteger? (String.ofList port) with
    | none => .error (.port (String.ofList port))
    | some n => .ok (if standardPort? scheme = some n then none else some n)

/-! ### Paths -/

/-- Checks how a path begins. -/
def checkPath (hasScheme hasAuthority : Bool) (path : List Char) : Except Fault Unit :=
  if hasAuthority then
    if path.isEmpty || path.head? == some '/' then .ok () else .error .detachedPath
  else if hasScheme then .ok ()
  else match path with
    | '/' :: '/' :: _ => .error .pathLikeAuthority
    | ':' :: _ => .error .pathLikeScheme
    | _ => .ok ()

/-! ### Reading -/

/-- Nothing is known. -/
def empty : Url := ⟨"", "", "", none, "", none, none⟩

/-- The parts of a URL as they are written. -/
structure Draft where
  scheme : List Char
  userinfo : List Char
  /-- With brackets, if there are any. -/
  host : List Char
  port : List Char
  path : List Char
  query : Option (List Char)
  fragment : Option (List Char)
  deriving DecidableEq, Repr

/-- What follows a separator, if it is there. -/
def behind? : List Char → Option (List Char)
  | [] => none
  | _ :: rest => some rest

/-- The scheme in front of a colon, which may be empty, and what follows. -/
def takeScheme (cs : List Char) : List Char × List Char :=
  match cutAt (!UrlParts.isSchemeChar ·) cs with
  | ([], ':' :: rest) => ([], rest)
  | (c :: scheme, ':' :: rest) => if isAsciiLetter c then (c :: scheme, rest) else ([], cs)
  | _ => ([], cs)

/-- The host in front, and the port behind it. -/
def takeHost (cs : List Char) : List Char × List Char :=
  let (host, rest) := match cs, cs.reverse.dropWhile (· != ']') with
    | '[' :: _, ']' :: inside => (inside.reverse ++ [']'], afterLast ']' cs)
    | _, _ => cutAt (· == ':') cs
  (host, if rest.head? = some ':' then rest.drop 1 else rest)

/-- The parts of a text. -/
def Draft.ofText (cs : List Char) : Draft :=
  let (scheme, rest) := takeScheme cs
  let (authority, rest) := match rest with
    | '/' :: '/' :: more => cutAt (fun c => c == '/' || c == '?' || c == '#') more
    | _ => ([], rest)
  let (rest, fragment) := cutAt (· == '#') rest
  let (path, query) := cutAt (· == '?') rest
  let named := afterLast '@' authority
  let userinfo := authority.take (authority.length - named.length - 1)
  let (host, port) := takeHost named
  { scheme, userinfo, host, port, path
    query := behind? query
    fragment := behind? fragment }

/-- A URL in its normal form. -/
def ofDraft (d : Draft) : Except Fault Url := do
  let scheme := String.ofList d.scheme
  let userinfo := Percent.escaped isUserChar d.userinfo
  let host ← normalHost d.host
  let port ← normalPort scheme d.port
  let hasScheme := !d.scheme.isEmpty
  let hasAuthority := !userinfo.isEmpty || !host.isEmpty || port.isSome
  checkPath hasScheme hasAuthority d.path
  let path := if hasScheme || hasAuthority then straight d.path else d.path
  .ok
    { scheme := String.ofList (d.scheme.map Char.toLower)
      userinfo := String.ofList userinfo
      host := String.ofList host
      port
      path := String.ofList (Percent.escaped isPathChar path)
      query := d.query.map fun q => String.ofList (Percent.escaped isQueryChar q)
      fragment := d.fragment.map fun f => String.ofList (Percent.escaped isFragmentChar f) }

/-- Checks the length and the characters of a text. -/
def checkText (part : Option Part) (cs : List Char) : Except Fault Unit :=
  if longest < cs.length then .error (.long part)
  else match cs.findIdx? isAsciiControl with
    | some i => .error (.control part (cs[i]?.getD ' ') i)
    | none => .ok ()

/-- The URL that a text stands for. -/
def read (text : String) : Except Fault Url := do
  checkText none text.toList
  ofDraft (.ofText text.toList)

/-! ### Text -/

/-- A host with the brackets that it needs. -/
def hostText (host : String) : String :=
  if host.toList.contains ':' then "[" ++ host ++ "]" else host

/-- Host and port. -/
def place (u : Url) : String :=
  hostText u.host ++ (u.port.map fun n => ":" ++ toString n).getD ""

def authority (u : Url) : String :=
  (if u.userinfo.isEmpty then "" else u.userinfo ++ "@") ++ u.place

/-- Text of a URL. -/
def text (u : Url) : String :=
  (if u.scheme.isEmpty then "" else u.scheme ++ ":") ++
    (if u.authority.isEmpty then "" else "//" ++ u.authority) ++ u.path ++
    (u.query.map ("?" ++ ·)).getD "" ++ (u.fragment.map ("#" ++ ·)).getD ""

/-- Scheme and host are known. -/
def isAbsolute (u : Url) : Bool := !u.scheme.isEmpty && !u.host.isEmpty

/-! ### Assembling -/

/-- The parts of a URL as they would be written. -/
def draft (u : Url) : Draft :=
  { scheme := u.scheme.toList
    userinfo := u.userinfo.toList
    host := (hostText u.host).toList
    port := (u.port.map fun n => (toString n).toList).getD []
    path := u.path.toList
    query := u.query.map String.toList
    fragment := u.fragment.map String.toList }

/-- A URL put together from parts; each of them is checked. -/
def assemble (authority : String) (d : Draft) : Except Fault Url := do
  checkText (some .scheme) d.scheme
  checkText (some .authority) authority.toList
  checkText (some .path) d.path
  checkText (some .query) (d.query.getD [])
  checkText (some .fragment) (d.fragment.getD [])
  checkText (some .host) d.host
  ofDraft d

/-- The URL with another host. -/
def withHost (u : Url) (host : String) : Except Fault Url :=
  assemble u.authority { u.draft with host := (hostText host).toList }

/-- What a text names that was read as a URL of its own: without scheme or host, only its path
and its query count, and the path begins at the base. -/
def under (base u : Url) : Except Fault Url :=
  if u.isAbsolute then .ok u
  else
    let path := '/' :: u.path.toList.dropWhile (· == '/')
    assemble base.authority
      { base.draft with path, query := u.query.map String.toList, fragment := none }

/-- The URL with another fragment. -/
def withFragment (u : Url) (fragment : String) : Except Fault Url :=
  assemble u.authority { u.draft with fragment := some fragment.toList }

/-! ### Names of hosts -/

/-- The host as people write it. -/
def shownHost (u : Url) : Except Host.Fault String :=
  if Host.marker.isPrefixOf u.host.toList then (Host.decode u.host.toList).map String.ofList
  else .ok u.host

end Url
end Montage
