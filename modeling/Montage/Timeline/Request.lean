import Montage.Problem
import Montage.Timeline.Reader

/-! # Request bodies

A request body comes in two shapes.  One is the timeline itself.  The other is a pair of
**media lists**: videos to be shown one after the other, and audio files to be laid over
them.  The second shape is taken when the body has no `clips` and has one of the lists.

Media lists denote a timeline (`MediaLists.timeline`): with audio files the videos are
silent, and without videos the first audio file is the only clip.
-/
namespace Montage

open Schema

/-- Two lists of URLs. -/
structure MediaLists where
  videos : List String
  audios : List String
  deriving DecidableEq, Repr

namespace MediaLists

def readItem : Reader String := fun v => do
  let fields ← record "LegacyMediaItem" v
  required fields (.plain "url") text

def read : Reader MediaLists := fun v => do
  let fields ← record "LegacyRenderRequest" v
  let videos ← optional fields ⟨"videoMedia", "video_media"⟩ [] (listOf readItem)
  let audios ← optional fields ⟨"audioMedia", "audio_media"⟩ [] (listOf readItem)
  .ok ⟨videos, audios⟩

/-- A whole file as a clip; the URL has to say something. -/
def clip (mediaType : MediaType) (volume : Number) (url : String) : Except Fault Clip :=
  (MediaSource.ofParts (some url) none).map fun s => Clip.whole s mediaType volume

/-- The clips of a list of URLs. -/
def clips (mediaType : MediaType) (volume : Number) : List String → Except Fault (List Clip)
  | [] => .ok []
  | url :: rest => do
    let c ← clip mediaType volume url
    let cs ← clips mediaType volume rest
    .ok (c :: cs)

/-- The timeline that media lists denote. -/
def timeline (m : MediaLists) : Except Fault Timeline := do
  let audio ← clips .audio (.finite 1) m.audios
  let video ← clips .video (if m.audios.isEmpty then .finite 1 else .finite 0) m.videos
  if video.isEmpty && !audio.isEmpty then
    let rest ← Soundtrack.ofClips (audio.drop 1)
    .ok (rest.under (audio.take 1) .unset)
  else
    let all ← Soundtrack.ofClips audio
    .ok (all.under video .unset)

end MediaLists

/-- Kinds of JSON values, as messages name them. -/
def Json.kindName : Json → String
  | .null => "NoneType"
  | .bool _ => "bool"
  | .int _ => "int"
  | .float _ => "float"
  | .string _ => "str"
  | .arr _ => "list"
  | .obj _ => "dict"

/-- Whether a text contains another one. -/
def containsText (part : List Char) : List Char → Bool
  | [] => part.isEmpty
  | c :: rest => part.isPrefixOf (c :: rest) || containsText part rest

/-- Whether a value mentions a word: as a field of an object, an item of an array, or a part
of a text.  Nothing can be asked of other values. -/
def Json.mentions? (word : String) : Json → Option Bool
  | .obj fields => some ((Json.lookup word fields).isSome)
  | .arr items => some (items.any fun
      | .str s => s == word
      | _ => false)
  | .string t => some (containsText word.toList t.shown.toList)
  | _ => none

/-- Why a request body is no timeline. -/
inductive RequestFault where
  /-- Nothing can be looked up in a value of this kind. -/
  | noContainer (kind : String)
  | schema (fault : Fault)
  deriving DecidableEq, Repr

def RequestFault.message : RequestFault → String
  | noContainer kind => "argument of type '" ++ kind ++ "' is not iterable"
  | schema f => "Invalid timeline: " ++ f.message

/-- The problem that a body of the wrong form gives rise to. -/
def Schema.Fault.problem (f : Fault) : Problem :=
  .saying .validation ("Invalid timeline: " ++ f.message)
    (if f.place.isEmpty then none else some f.place)

/-- Whether a body has the shape of media lists. -/
def Json.isMediaLists? (body : Json) : Option Bool :=
  match body.mentions? "clips", body.mentions? "videoMedia", body.mentions? "audioMedia" with
  | some c, some v, some a => some (!c && (v || a))
  | _, _, _ => none

/-- The timeline of a request body in either shape. -/
def Timeline.ofRequest (body : Json) : Except RequestFault Timeline :=
  match body.isMediaLists? with
  | none => .error (.noContainer body.kindName)
  | some true =>
    match MediaLists.read body with
    | .error f => .error (.schema f)
    | .ok m => m.timeline.mapError .schema
  | some false => (Timeline.read body).mapError .schema

end Montage
