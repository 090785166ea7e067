import Montage.Asset.Name
import Montage.Asset.Redirect
import Montage.Files.Tree
import Montage.Problem

/-! # Fetching assets

A **download** brings one source to one path.  What arrives is written to a *part file* beside
that path; only a whole and non-empty part file is moved into place.  So a path holds either
what it held before or a complete asset, and a download that fails or is given up leaves no
part file behind.

A download is a small machine: `Download.step` takes one `DownloadEvent`.  What goes wrong
while a body arrives dooms the download; it fails, and its part file goes, when it is settled.
An upload is copied and settled in one event.

Several downloads take their events in any order (`Downloads.step`), and all of them run to
their end; then the paths are given in the order of the items, or the first fault in that order
(`Downloads.result?`).
-/
namespace Montage

/-- What a fetcher needs to know. -/
structure Fetcher where
  uploads : Path
  /-- Greatest time for a download, in seconds. -/
  limit : Problem.Quoted
  /-- Length of the pieces in which a body is taken. -/
  pieceLength : Int
  deriving DecidableEq, Repr

/-- Why a source was not fetched. -/
inductive FetchFault where
  | missing (url : String)
  | status (code : Nat) (url : String)
  | timedOut (limit : Problem.Quoted) (url : String)
  | broken (message url : String)
  | noUpload (id : String)
  | badUpload (id : String)
  | empty (source : MediaSource)
  | storing (fault : FileFault) (source : MediaSource)
  /-- No path can hold the id of an upload. -/
  | unspeakable
  | request (fault : NetworkFault)
  /-- The part file of a download that failed cannot be removed. -/
  | cleaning (fault : FileFault)
  deriving DecidableEq, Repr

namespace FetchFault

/-- What the fault is about, as a text. -/
def source : FetchFault → Option String
  | missing url | status _ url | timedOut _ url | broken _ url => some url
  | noUpload id | badUpload id => some id
  | empty s | storing _ s => some s.wording
  | unspeakable | request _ | cleaning _ => none

open Problem in
/-- The problem that a fault is, unless it is one of the program. -/
def problem? (f : FetchFault) : Option Problem :=
  match f with
  | missing url => some (fetching .assetNotFound none (some url))
  | status n url =>
    some (saying .transport ("HTTP " ++ toString n ++ " fetching " ++ url) none)
  | timedOut limit url =>
    some (saying .fetchTimeout ("Timed out after " ++ limit.wording ++ "s fetching " ++ url) none)
  | broken m url =>
    some (saying .transport ("Transport error fetching " ++ url ++ ": " ++ m) none)
  | noUpload id => some (saying .assetNotFound ("Upload not found: " ++ id) none)
  | badUpload id => some (saying .assetNotFound ("Invalid upload id: " ++ id) none)
  | empty s => some (fetching .emptyPayload none (some s.wording))
  | storing e s =>
    some (saying .transport ("Could not store asset " ++ s.wording ++ ": " ++ e.message) none)
  | unspeakable | request _ | cleaning _ => none

def message (f : FetchFault) : String :=
  match f with
  | unspeakable => FileCause.endedName.wording
  | request g => g.message
  | cleaning g => g.message
  | f => (f.problem?.map Problem.message).getD ""

end FetchFault

/-- How far a download has come. -/
inductive DownloadPhase where
  /-- Nothing was written. -/
  | waiting
  /-- The part file is open, and so many bytes were written. -/
  | receiving (part : Handle) (size : Nat)
  /-- The part file is whole. -/
  | received (size : Nat)
  /-- It will fail when it is settled. -/
  | doomed (fault : FetchFault)
  | stored
  | failed (fault : FetchFault)
  /-- It was given up. -/
  | abandoned
  deriving DecidableEq, Repr

namespace DownloadPhase

/-- The download will not move again. -/
def isOver : DownloadPhase → Bool
  | stored | failed _ | abandoned => true
  | _ => false

/-- The server is asked, or its body arrives. -/
def isOpen : DownloadPhase → Bool
  | waiting | receiving _ _ => true
  | _ => false

/-- Nothing is left but to settle the download. -/
def awaitsEnd : DownloadPhase → Bool
  | received _ | doomed _ => true
  | _ => false

end DownloadPhase

structure Download where
  source : MediaSource
  target : Path
  phase : DownloadPhase
  deriving DecidableEq, Repr

/-- What can happen to a download. -/
inductive DownloadEvent where
  /-- The server answers with a status. -/
  | answered (status : Nat)
  /-- A piece of the body arrives. -/
  | data (piece : List UInt8)
  /-- The body is complete. -/
  | ended
  | timedOut
  | broken (message : String)
  /-- The server cannot be asked, or its answer not be taken. -/
  | unasked (fault : NetworkFault)
  /-- The disk refuses. -/
  | refused (fault : FileFault)
  /-- An upload is copied and settled. -/
  | copied
  /-- The part file is moved into place or removed. -/
  | settled
  | abandoned
  deriving DecidableEq, Repr

namespace Fetcher

/-- Path of the upload with an id. -/
def uploadPath (f : Fetcher) (id : String) : Except FetchFault Path :=
  if Path.holdsEnd [id] then .error .unspeakable
  else match uploadPath? f.uploads id with
    | none => .error (.badUpload id)
    | some path => .ok path

/-- Path and content of an upload. -/
def upload (f : Fetcher) (t : FileTree) (id : String) (s : MediaSource) :
    Except FetchFault (Path × Content) :=
  match f.uploadPath id with
  | .error e => .error e
  | .ok path =>
    if longestName < path.name.utf8ByteSize then
      .error (.storing (.at .longName path) s)
    else match t.read? path with
      | none => .error (.noUpload id)
      | some c => .ok (path, c)

/-- No time is given for a download. -/
def isHopeless (f : Fetcher) : Bool :=
  match f.limit with
  | .int n => n ≤ 0
  | .number x => Number.le x (.finite 0)
  | .text s => (Number.measuredDecimal? s).any fun x => Number.le x (.finite 0)

/-- What is taken of a body.  Pieces lie side by side and make up the body.  With a negative
length the pieces overlap: each of them is the body without so many bytes, taken from its front
and its end in all ways that take at least one from the end. -/
def taken (f : Fetcher) (body : List UInt8) : List UInt8 :=
  if 0 ≤ f.pieceLength then body
  else
    let length := f.pieceLength.natAbs
    (List.range (min length body.length)).flatMap fun i =>
      (body.take (body.length + i - length)).drop i

end Fetcher

namespace Download

/-- The file beside the target that takes what arrives. -/
def part (d : Download) : Path := d.target.withName (d.target.name ++ ".part")

/-- Fails; the part file goes, and if it cannot go, that is the fault. -/
def fail (d : Download) (t : FileTree) (fault : FetchFault) : Download × FileTree :=
  match t.unlink d.part with
  | .ok t => ({ d with phase := .failed fault }, t)
  | .error e => ({ d with phase := .failed (.cleaning e) }, t)

/-- Will fail. -/
def doom (d : Download) (fault : FetchFault) : Download := { d with phase := .doomed fault }

/-- Moves a part file of so many bytes into place, unless it is empty. -/
def settle (d : Download) (t : FileTree) (size : Nat) : Download × FileTree :=
  if size = 0 then d.fail t (.empty d.source)
  else match t.rename d.part d.target with
    | .ok t => ({ d with phase := .stored }, t)
    | .error e => d.fail t (.storing e d.source)

/-- Copies an upload and settles the download. -/
def copy (d : Download) (f : Fetcher) (t : FileTree) : Download × FileTree :=
  match f.upload t (d.source.uploadId.getD "") d.source with
  | .error e => d.fail t e
  | .ok (path, c) =>
    if t.isSame path d.part then d.fail t (.storing (.sameFile path d.part) d.source)
    else match t.write d.part c with
    | .error e => d.fail t (.storing e d.source)
    | .ok t => d.settle t c.size

/-- Opens the part file. -/
def receive (d : Download) (t : FileTree) : Download × FileTree :=
  match t.openNew d.part with
  | .error e => (d.doom (.storing e d.source), t)
  | .ok (part, t) => ({ d with phase := .receiving part 0 }, t)

/-- Takes the status of an answer. -/
def begin (d : Download) (t : FileTree) (status : Nat) (url : String) : Download × FileTree :=
  if status = 404 then (d.doom (.missing url), t)
  else if isSuccess status then d.receive t
  else (d.doom (.status status url), t)

/-- Writes a piece of the body. -/
def append (d : Download) (t : FileTree) (part : Handle) (size : Nat) (piece : List UInt8) :
    Download × FileTree :=
  ({ d with phase := .receiving part (size + piece.length) },
    match t.content? part with
    | some c => t.fill part (c.extended piece)
    | none => t)

/-- Takes an event; an event that cannot happen in the phase changes nothing. -/
def step (d : Download) (f : Fetcher) (t : FileTree) (e : DownloadEvent) :
    Download × FileTree :=
  if d.phase.isOver then (d, t)
  else match e with
  | .abandoned => ({ d with phase := .abandoned }, t.discard d.part)
  | .refused e => (d.doom (.storing e d.source), t)
  | .settled =>
    match d.phase with
    | .received size => d.settle t size
    | .doomed fault => d.fail t fault
    | _ => (d, t)
  | .copied =>
    match d.phase, d.source.remote? with
    | .waiting, none => d.copy f t
    | _, _ => (d, t)
  | .answered status =>
    match d.phase, d.source.remote? with
    | .waiting, some url => d.begin t status url
    | _, _ => (d, t)
  | .data piece =>
    match d.phase with
    | .receiving part size => d.append t part size piece
    | _ => (d, t)
  | .ended =>
    match d.phase with
    | .receiving _ size => ({ d with phase := .received size }, t)
    | _ => (d, t)
  | .timedOut =>
    match d.phase.isOpen, d.source.remote? with
    | true, some url => (d.doom (.timedOut f.limit url), t)
    | _, _ => (d, t)
  | .broken m =>
    match d.phase.isOpen, d.source.remote? with
    | true, some url => (d.doom (.broken m url), t)
    | _, _ => (d, t)
  | .unasked fault =>
    match d.phase.isOpen, d.source.remote? with
    | true, some _ => (d.doom (.request fault), t)
    | _, _ => (d, t)

theorem step_of_isOver {d : Download} {f : Fetcher} {t : FileTree} {e : DownloadEvent}
    (h : d.phase.isOver = true) : d.step f t e = (d, t) := by
  unfold step
  rw [if_pos h]

end Download

/-- The downloads of one call, in the order of its items. -/
abbrev Downloads := List Download

namespace Downloads

/-- Nothing has happened yet. -/
def begin (items : List (MediaSource × Path)) : Downloads :=
  items.map fun i => ⟨i.1, i.2, .waiting⟩

/-- One of the downloads takes an event. -/
def step (ds : Downloads) (f : Fetcher) (t : FileTree) (index : Nat) (e : DownloadEvent) :
    Downloads × FileTree :=
  match ds[index]? with
  | none => (ds, t)
  | some d =>
    let (d, t) := d.step f t e
    (ds.set index d, t)

/-- All downloads are given up. -/
def abandon (ds : Downloads) (f : Fetcher) (t : FileTree) : Downloads × FileTree :=
  match ds with
  | [] => ([], t)
  | d :: rest =>
    let (d, t) := d.step f t .abandoned
    let (rest, t) := abandon rest f t
    (d :: rest, t)

/-- No download will move again. -/
def areOver (ds : Downloads) : Bool := ds.all fun d => d.phase.isOver

/-- The first fault in the order of the items. -/
def fault? (ds : Downloads) : Option FetchFault :=
  ds.findSome? fun d => match d.phase with
    | .failed f => some f
    | _ => none

/-- The paths of all items, or the first fault; nothing before all downloads are over. -/
def result? (ds : Downloads) : Option (Except FetchFault (List Path)) :=
  if ds.areOver then
    match ds.fault? with
    | some f => some (.error f)
    | none => some (.ok (ds.map Download.target))
  else none

/-! ### In a network -/

/-- What an answer does to a download. -/
def eventsOfAnswer (f : Fetcher) : Answer → List DownloadEvent
  | .response status body => [.answered status, .data (f.taken body.toUTF8.toList), .ended]
  | .timedOut => [.timedOut]
  | .broken m => [.broken m]
  | .refused fault => [.unasked fault]
  | .silent => []

/-- What happens to a download of an upload that waits. -/
def uploadEvents (d : Download) : List DownloadEvent :=
  match d.phase, d.source.remote? with
  | .waiting, none => [.copied]
  | _, _ => []

/-- What happens to a download that waits for a server; without time nobody is asked. -/
def remoteEvents (network : Network) (f : Fetcher) (d : Download) : List DownloadEvent :=
  match d.phase, d.source.remote? with
  | .waiting, some url =>
    if f.isHopeless then [.timedOut] else eventsOfAnswer f (follow network url)
  | _, _ => []

/-- What happens to a download that is only to be settled. -/
def finalEvents (d : Download) : List DownloadEvent :=
  if d.phase.awaitsEnd then [.settled] else []

/-- The rounds in which downloads come to their end: uploads are copied, servers answer, and
all downloads are settled; one that was never answered meets the limit. -/
def rounds (network : Network) (f : Fetcher) : List (Download → List DownloadEvent) :=
  [uploadEvents, remoteEvents network f, finalEvents, fun _ => [.timedOut, .settled]]

/-- Plays events of one download. -/
def play (ds : Downloads) (f : Fetcher) (t : FileTree) (index : Nat) :
    List DownloadEvent → Downloads × FileTree
  | [] => (ds, t)
  | e :: rest =>
    let (ds, t) := ds.step f t index e
    play ds f t index rest

/-- Plays a round in which each download from an index on takes its events. -/
def round (events : Download → List DownloadEvent) (f : Fetcher) (ds : Downloads) (t : FileTree)
    (index : Nat) : Nat → Downloads × FileTree
  | 0 => (ds, t)
  | left + 1 =>
    let (ds, t) := ds.play f t index ((ds[index]?.map events).getD [])
    round events f ds t (index + 1) left

/-- Runs all downloads to their end. -/
def run (network : Network) (f : Fetcher) (ds : Downloads) (t : FileTree) :
    Downloads × FileTree :=
  (rounds network f).foldl (fun (ds, t) events => round events f ds t 0 ds.length) (ds, t)

end Downloads
end Montage
