import Montage.Number.Decimal

/-! # Timelines

A **timeline** is a list of clips that follow each other, a list of audio clips laid under
them (the soundtrack), and settings of the output.  A clip refers to a media file, takes a
range out of it, changes its speed and look, and carries overlays.

What every timeline that was read satisfies is part of the types: a media reference is
either a URL or the id of an upload, a scale has a side, a text overlay has words and an
image overlay a source, and the soundtrack is audio.
-/
namespace Montage

inductive MediaType where
  | video
  | audio
  deriving DecidableEq, Repr, Inhabited

def MediaType.word : MediaType → String
  | video => "video"
  | audio => "audio"

/-- A text that is there and not empty. -/
def isGiven (s : Option String) : Bool :=
  match s with
  | some s => !s.isEmpty
  | none => false

/-- A reference to a media file: a remote one by its URL, or an uploaded one by its id. -/
structure MediaSource where
  url : Option String
  uploadId : Option String
  exactlyOne : isGiven url ≠ isGiven uploadId
  deriving DecidableEq, Repr

namespace MediaSource

/-- The URL of a remote file. -/
def remote? (s : MediaSource) : Option String := if isGiven s.url then s.url else none

/-- Identity of the file; the two kinds of reference never share one. -/
def key (s : MediaSource) : String :=
  match s.remote? with
  | some u => "url:" ++ u
  | none => "upload:" ++ s.uploadId.getD ""

/-- How messages name the file. -/
def wording (s : MediaSource) : String :=
  match s.remote? with
  | some u => u
  | none => "upload " ++ s.uploadId.getD ""

/-- A remote file. -/
def ofUrl? (url : String) : Option MediaSource :=
  if h : isGiven (some url) ≠ isGiven none then some ⟨some url, none, h⟩ else none

end MediaSource

/-- A range of a media file in seconds; end and length are alternatives. -/
structure Trim where
  start : Number
  finish : Option Number
  duration : Option Number
  deriving DecidableEq, Repr

inductive FilterType where
  | brightness
  | contrast
  | saturation
  | hue
  | blur
  | sharpen
  | invert
  | grayscale
  deriving DecidableEq, Repr

namespace FilterType

def word : FilterType → String
  | brightness => "brightness"
  | contrast => "contrast"
  | saturation => "saturation"
  | hue => "hue"
  | blur => "blur"
  | sharpen => "sharpen"
  | invert => "invert"
  | grayscale => "grayscale"

/-- All kinds, in the order in which they are listed. -/
def all : List FilterType :=
  [brightness, contrast, saturation, hue, blur, sharpen, invert, grayscale]

end FilterType

/-- A change of a clip's look. -/
structure VisualFilter where
  type : FilterType
  value : Option Number
  deriving DecidableEq, Repr

/-- The part of the picture that is kept, in pixels. -/
structure Crop where
  x : Int
  y : Int
  width : Int
  height : Int
  deriving DecidableEq, Repr

/-- A size of the picture; a side that is missing follows the aspect ratio. -/
structure Scale where
  width : Option Int
  height : Option Int
  oneSide : (width.isSome || height.isSome) = true
  deriving DecidableEq, Repr

structure OverlayStyle where
  fontSize : Int
  color : String
  opacity : Number
  boxColor : Option String
  /-- Width of an image in pixels. -/
  width : Option Int
  deriving DecidableEq, Repr

/-- White text of 48 points without a box. -/
def OverlayStyle.standard : OverlayStyle := ⟨48, "white", .finite 1, none, none⟩

/-- What an overlay draws.  Each kind may carry what the other one needs; it is not drawn. -/
inductive OverlayContent where
  | text (words : String) (written : words.isEmpty = false) (source : Option MediaSource)
  | image (source : MediaSource) (caption : Option String)
  deriving DecidableEq, Repr

namespace OverlayContent

/-- The media file that the overlay refers to. -/
def source? : OverlayContent → Option MediaSource
  | text _ _ s => s
  | image s _ => some s

def words? : OverlayContent → Option String
  | text w _ _ => some w
  | image _ c => c

def word : OverlayContent → String
  | text .. => "text"
  | image .. => "image"

end OverlayContent

/-- Text or an image, drawn over a clip from `start` until before `finish`. -/
structure Overlay where
  content : OverlayContent
  /-- Offset of the left edge; centred if missing. -/
  x : Option Int
  /-- Offset of the upper edge; centred if missing. -/
  y : Option Int
  start : Number
  /-- The clip's end if missing. -/
  finish : Option Number
  style : OverlayStyle
  deriving DecidableEq, Repr

structure Clip where
  source : MediaSource
  mediaType : MediaType
  trim : Option Trim
  speed : Number
  visualFilters : List VisualFilter
  crop : Option Crop
  scale : Option Scale
  overlays : List Overlay
  audioVolume : Number
  deriving DecidableEq, Repr

/-- A whole media file as it is. -/
def Clip.whole (source : MediaSource) (mediaType : MediaType) (volume : Number) : Clip :=
  ⟨source, mediaType, none, .finite 1, [], none, none, [], volume⟩

/-- The media files of a clip: its own, then those of its overlays. -/
def Clip.sources (c : Clip) : List MediaSource :=
  c.source :: c.overlays.filterMap fun o => o.content.source?

/-- Settings of the output; what is missing is filled in when the timeline is compiled. -/
structure OutputSettings where
  width : Option Int
  height : Option Int
  fps : Option Int
  videoBitrate : Option String
  audioBitrate : Option String
  deriving DecidableEq, Repr

/-- Nothing is set. -/
def OutputSettings.unset : OutputSettings := ⟨none, none, none, none, none⟩

structure Timeline where
  clips : List Clip
  settings : OutputSettings
  /-- Audio laid under the sound of the clips. -/
  soundtrack : List Clip
  soundtrack_audio : (soundtrack.all fun c => c.mediaType == .audio) = true
  deriving DecidableEq, Repr

namespace Timeline

/-- Keeps the first element with each key. -/
def firstByKey (seen : List String) : List MediaSource → List MediaSource
  | [] => []
  | s :: rest =>
    if seen.contains s.key then firstByKey seen rest else s :: firstByKey (s.key :: seen) rest

/-- Every media file of the timeline once, in the order of first use. -/
def sources (t : Timeline) : List MediaSource :=
  firstByKey [] ((t.clips ++ t.soundtrack).flatMap Clip.sources)

end Timeline
end Montage
