import Montage.Asset.Name
import Montage.Files.Tree
import Montage.Job.Basic
import Montage.Problem
import Montage.Text.Ascii
import Montage.Text.Lines

/-! # Uploads

An upload is a body that arrives in pieces.  It is kept under an id of its own; of the name
that the client gives, only a short suffix goes into the id.  A body is kept if it has bytes
and does not exceed the limit, and otherwise nothing is left of it.

The pieces are collected beside the final place and moved there when all have arrived.  A body
that grows beyond the limit is given up at the piece with which it does.
-/
namespace Montage

open Text

/-- Where uploads are kept. -/
structure UploadArea where
  directory : Path
  /-- How many ids were given out. -/
  issued : Nat
  /-- Greatest size, in megabytes. -/
  limit : Int
  deriving DecidableEq, Repr

inductive UploadFault where
  | tooLarge (limit : Int)
  | empty
  | files (fault : FileFault)
  deriving DecidableEq, Repr

/-- The problem that a fault is, unless the disk fails. -/
def UploadFault.problem? : UploadFault → Option Problem
  | tooLarge n =>
    some (.saying .payloadTooLarge ("Upload exceeds " ++ toString n ++ " MB") none)
  | empty => some (.saying .validation "No file data provided" none)
  | files _ => none

/-- Whether a suffix goes into an id: a point, then one to five letters or figures; a line feed
at the end is overlooked. -/
def isUploadSuffix (suffix : List Char) : Bool :=
  match dropFinalFeed suffix with
  | '.' :: rest => !rest.isEmpty && rest.length ≤ 5 && rest.all isAsciiAlphanumeric
  | _ => false

/-- What the name of an upload gives to its id. -/
def uploadSuffix (name : String) : String :=
  let suffix := lowerCase (pathSuffix name)
  if isUploadSuffix suffix then String.ofList suffix else ""

namespace UploadArea

/-- Greatest size in bytes. -/
def bytes (a : UploadArea) : Int := a.limit * 1024 * 1024

/-- Collects pieces, starting with what has arrived. -/
def collect (a : UploadArea) (arrived : List UInt8) :
    List (List UInt8) → Except UploadFault (List UInt8)
  | [] => if a.bytes < arrived.length then .error (.tooLarge a.limit) else .ok arrived
  | piece :: rest =>
    let arrived := arrived ++ piece
    if a.bytes < arrived.length then .error (.tooLarge a.limit) else a.collect arrived rest

/-- The body that pieces make up. -/
def body (a : UploadArea) (pieces : List (List UInt8)) : Except UploadFault (List UInt8) := do
  let body ← a.collect [] pieces
  if body.isEmpty then .error .empty else .ok body

/-- Opens the part file for an upload, before anything has arrived. -/
def openPart (t : FileTree) (part : Path) : Except UploadFault FileTree :=
  (t.write part (.raw [])).mapError .files

/-- Keeps a body under an id: the part file first, then the final place. -/
def keep (t : FileTree) (part target : Path) (body : List UInt8) : Except UploadFault FileTree :=
  ((t.write part (.raw body)).bind fun t => t.rename part target).mapError .files

/-- Takes an upload: its id and size, or a fault.  The id is used up in either case. -/
def receive (a : UploadArea) (t : FileTree) (name : String) (pieces : List (List UInt8)) :
    Except UploadFault (String × Nat) × UploadArea × FileTree :=
  match t.ensureDirectory a.directory with
  | .error f => (.error (.files f), a, t)
  | .ok t =>
    let id := jobId (a.issued + 1) ++ uploadSuffix name
    let a := { a with issued := a.issued + 1 }
    let target := a.directory ++ [id]
    let part := a.directory ++ [id ++ ".part"]
    match openPart t part with
    | .error f => (.error f, a, t.discard part)
    | .ok opened =>
      match a.body pieces with
      | .error f => (.error f, a, opened.discard part)
      | .ok body =>
        match keep opened part target body with
        | .error f => (.error f, a, opened.discard part)
        | .ok t => (.ok (id, body.length), a, t)

end UploadArea
end Montage
