import Montage.Url.Parts

/-! # References

A reference names a place from where one stands: it may leave out the scheme, the authority,
and the path up to a directory.  `resolve` gives the URL that a reference names when it is read
from another URL.  The parts `.` and `..` of the path are walked (`UrlParts.walk`).

References make sense for schemes whose paths are made of directories (`isHierarchical`).  With
any other scheme, and with another scheme than that of the place, a reference stands for itself.
-/
namespace Montage.UrlParts

/-- Schemes whose paths are made of directories. -/
def hierarchicalSchemes : List String :=
  ["", "ftp", "http", "gopher", "nntp", "imap", "wais", "file", "https", "shttp", "mms",
    "prospero", "rtsp", "rtsps", "rtspu", "sftp", "svn", "svn+ssh", "ws", "wss"]

def isHierarchical (scheme : List Char) : Bool :=
  hierarchicalSchemes.contains (String.ofList scheme)

/-- Walks through the parts of a path; `done` holds the last part first. -/
def walk (done : List (List Char)) : List (List Char) → List (List Char)
  | [] => done.reverse
  | part :: rest =>
    if part = ['.'] then walk done rest
    else if part = ['.', '.'] then walk done.tail rest
    else walk (part :: done) rest

/-- Drops empty parts, but neither the first part nor the last. -/
def dropEmptyInside : List (List Char) → List (List Char)
  | [] => []
  | first :: rest => first :: (rest.dropLast.filter (!List.isEmpty ·) ++ rest.getLast?.toList)

/-- The directory of a path, by its parts. -/
def directory (path : List Char) : List (List Char) :=
  let parts := path.splitOn '/'
  if parts.getLast? = some [] then parts else parts.dropLast

/-- The path that a path names when it is read from another one. -/
def resolvePath (base path : List Char) : List Char :=
  let parts := match path with
    | '/' :: _ => path.splitOn '/'
    | _ => dropEmptyInside (directory base ++ path.splitOn '/')
  let last := parts.getLastD []
  let walked := walk [] parts ++ if last = ['.'] ∨ last = ['.', '.'] then [[]] else []
  match ['/'].intercalate walked with
  | [] => ['/']
  | cs => cs

/-- The parts that a reference names when it is read from a place of the same scheme. -/
def follow (base reference : UrlParts) : UrlParts :=
  if !reference.authority.isEmpty then
    let (path, parameters) := reference.cutParameters
    { reference with path := path ++ behind ';' parameters }
  else
    let (path, parameters) := reference.cutParameters
    let (basePath, baseParameters) := base.cutParameters
    if path.isEmpty && parameters.isEmpty then
      { reference with
        authority := base.authority
        path := basePath ++ behind ';' baseParameters
        query := if reference.query.isEmpty then base.query else reference.query }
    else
      { reference with
        authority := base.authority
        path := resolvePath basePath path ++ behind ';' parameters }

/-- The URL that a reference names when it is read from another URL. -/
def resolve (base reference : List Char) : Except Fault (List Char) :=
  if base.isEmpty then .ok reference
  else if reference.isEmpty then .ok base
  else do
    let place ← read base
    let named ← readWith place.scheme reference
    if named.scheme = place.scheme ∧ isHierarchical named.scheme then
      .ok (place.follow named).write
    else .ok reference

end Montage.UrlParts
