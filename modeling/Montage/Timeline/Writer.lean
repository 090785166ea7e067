import Montage.Json.Basic
import Montage.Timeline.Basic

/-! # The stored form of a timeline

`Timeline.toJson` gives a timeline as a JSON value in which every field that is set stands
under its first spelling, in the order of declaration, and a field that is not set is left
out.  Reading the value gives the timeline back, so a timeline is stored once and for all
in this form, whatever form the request had.
-/
namespace Montage

open Json

/-- A field that is always there. -/
def always (name : String) (v : Json) : List (String × Json) := [(name, v)]

/-- A field that is there if it is set. -/
def ifSet (name : String) (f : α → Json) : Option α → List (String × Json)
  | none => []
  | some a => [(name, f a)]

def MediaSource.toJson (s : MediaSource) : Json :=
  .ofFields (ifSet "url" .str s.url ++ ifSet "uploadId" .str s.uploadId)

def Trim.toJson (t : Trim) : Json :=
  .ofFields (always "start" (.float t.start) ++ ifSet "end" .float t.finish ++
    ifSet "duration" .float t.duration)

def VisualFilter.toJson (f : VisualFilter) : Json :=
  .ofFields (always "type" (.str f.type.word) ++ ifSet "value" .float f.value)

def Crop.toJson (c : Crop) : Json :=
  .ofFields [("x", .int c.x), ("y", .int c.y), ("width", .int c.width), ("height", .int c.height)]

def Scale.toJson (s : Scale) : Json :=
  .ofFields (ifSet "width" .int s.width ++ ifSet "height" .int s.height)

def OverlayStyle.toJson (s : OverlayStyle) : Json :=
  .ofFields (always "fontSize" (.int s.fontSize) ++ always "color" (.str s.color) ++
    always "opacity" (.float s.opacity) ++ ifSet "boxColor" .str s.boxColor ++
    ifSet "width" .int s.width)

def Overlay.toJson (o : Overlay) : Json :=
  .ofFields (always "type" (.str o.content.word) ++ ifSet "text" .str o.content.words? ++
    ifSet "source" MediaSource.toJson o.content.source? ++ ifSet "x" .int o.x ++
    ifSet "y" .int o.y ++ always "start" (.float o.start) ++ ifSet "end" .float o.finish ++
    always "style" o.style.toJson)

def Clip.toJson (c : Clip) : Json :=
  .ofFields (always "source" c.source.toJson ++ always "mediaType" (.str c.mediaType.word) ++
    ifSet "trim" Trim.toJson c.trim ++ always "speed" (.float c.speed) ++
    always "visualFilters" (.arr (c.visualFilters.map VisualFilter.toJson)) ++
    ifSet "crop" Crop.toJson c.crop ++ ifSet "scale" Scale.toJson c.scale ++
    always "overlays" (.arr (c.overlays.map Overlay.toJson)) ++
    always "audioVolume" (.float c.audioVolume))

def OutputSettings.toJson (s : OutputSettings) : Json :=
  .ofFields (ifSet "width" .int s.width ++ ifSet "height" .int s.height ++ ifSet "fps" .int s.fps ++
    ifSet "videoBitrate" .str s.videoBitrate ++ ifSet "audioBitrate" .str s.audioBitrate)

def Timeline.toJson (t : Timeline) : Json :=
  .ofFields [("clips", .arr (t.clips.map Clip.toJson)), ("settings", t.settings.toJson),
    ("soundtrack", .arr (t.soundtrack.map Clip.toJson))]

end Montage
