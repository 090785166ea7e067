import Montage.Text.Case
import Montage.Timeline.Basic
import Montage.Url.Parts

/-! # Names of files

A fetched file gets a name with the suffix of its source, if that is a short run of letters
and figures, and otherwise with a suffix for its kind.  The suffix of a remote file is that
of the path of its URL, and a URL that does not fall into parts has no path.

An upload id becomes the path of a file directly inside the upload directory, or none: the
id is joined to the directory and normalised, and whatever leaves the directory on the way
has to come back into it.
-/
namespace Montage

open Montage.Text

/-! ### Suffixes -/

/-- The path of a URL, without parameters. -/
def urlPath (url : String) : Except UrlParts.Fault String :=
  (UrlParts.read url.toList).map fun p => String.ofList p.cutParameters.1

/-- The parts of a path; empty parts and single points do not count. -/
def pathParts (path : String) : List (List Char) :=
  (path.toList.splitOn '/').filter fun part => part != [] && part != ['.']

/-- The suffix of a name from its last point on; a name that begins or ends with that point
has none. -/
def nameSuffix (name : List Char) : List Char :=
  match name.reverse.span (· != '.') with
  | ([], _) => []
  | (_, []) => []
  | (suffix, '.' :: before) => if before.isEmpty then [] else '.' :: suffix.reverse
  | _ => []

/-- The suffix of the last part of a path. -/
def pathSuffix (path : String) : List Char :=
  match (pathParts path).getLast? with
  | none => []
  | some name => if name == ['.', '.'] then [] else nameSuffix name

/-- Suffix of a file of a kind that has none of its own. -/
def kindSuffix (kind : String) : String :=
  match kind with
  | "video" => ".mp4"
  | "audio" => ".mp3"
  | "image" => ".png"
  | _ => ".bin"

/-- Whether a suffix is short and made of letters and figures. -/
def isPlainSuffix : List Char → Bool
  | '.' :: rest => !rest.isEmpty && rest.length ≤ 5 && rest.all isAlphanumeric
  | _ => false

/-- The path whose suffix a fetched file takes over. -/
def MediaSource.path (s : MediaSource) : Except UrlParts.Fault String :=
  match s.remote? with
  | some url => urlPath url
  | none => .ok (s.uploadId.getD "")

/-- The suffix of a path if it is plain, and else the suffix of a kind. -/
def plainSuffixOr (kind path : String) : String :=
  let suffix := lowerCase (pathSuffix path)
  if isPlainSuffix suffix then String.ofList suffix else kindSuffix kind

/-- Suffix of the name under which a source is fetched. -/
def suffixFor (s : MediaSource) (kind : String) : Except UrlParts.Fault String :=
  s.path.map (plainSuffixOr kind)

/-! ### Uploads -/

/-- Walks a path from a directory, both given by their parts. -/
def walk (directory : List String) : List String → List String
  | [] => directory
  | part :: rest =>
    if part = "" ∨ part = "." then walk directory rest
    else if part = ".." then walk directory.dropLast rest
    else walk (directory ++ [part]) rest

/-- The parts that a text names, starting from a directory unless it begins at the root. -/
def resolve (directory : List String) (path : String) : List String :=
  let parts := (path.toList.splitOn '/').map String.ofList
  match path.toList with
  | '/' :: _ => walk [] parts
  | _ => walk directory parts

/-- The path of the file that an upload id stands for: it lies directly in the directory. -/
def uploadPath? (directory : List String) (id : String) : Option (List String) :=
  let full := resolve directory id
  if full.dropLast = directory then some full else none

end Montage
