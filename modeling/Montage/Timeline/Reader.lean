import Montage.Schema.Basic
import Montage.Timeline.Basic

/-! # Reading a timeline

Each record of a timeline has a reader that takes its fields in the order of their
declaration and then checks the rule of the whole record; the first fault ends the reading.
A media reference may also be a plain text: a web address stands for a remote file, any
other text for the id of an upload.
-/
namespace Montage

open Schema

namespace MediaSource

def urlName : FieldName := .plain "url"
def uploadIdName : FieldName := ⟨"uploadId", "upload_id"⟩

/-- A reference with one of its two parts. -/
def ofParts (url uploadId : Option String) : Except Fault MediaSource :=
  if h : isGiven url ≠ isGiven uploadId then .ok ⟨url, uploadId, h⟩
  else .error (.here (.rule "source needs exactly one of url or uploadId"))

/-- The reference that a plain text stands for. -/
def ofText (s : String) : Except Fault MediaSource :=
  if s.startsWith "http://" || s.startsWith "https://" then ofParts (some s) none
  else ofParts none (some s)

def read : Reader MediaSource
  | .string t => ofText t.shown
  | v => do
    let fields ← record "MediaSource" v
    let url ← maybe fields urlName text
    let uploadId ← maybe fields uploadIdName text
    ofParts url uploadId

end MediaSource

def Trim.read : Reader Trim := fun v => do
  let fields ← record "Trim" v
  let start ← optional fields (.plain "start") (.finite 0) decimal
  let finish ← maybe fields (.plain "end") decimal
  let duration ← maybe fields (.plain "duration") decimal
  .ok ⟨start, finish, duration⟩

def VisualFilter.read : Reader VisualFilter := fun v => do
  let fields ← record "VisualFilter" v
  let type ← required fields (.plain "type") (Schema.word (FilterType.all.map fun t => (t.word, t)))
  let value ← maybe fields (.plain "value") decimal
  .ok ⟨type, value⟩

def Crop.read : Reader Crop := fun v => do
  let fields ← record "Crop" v
  let x ← optional fields (.plain "x") 0 integer
  let y ← optional fields (.plain "y") 0 integer
  let width ← required fields (.plain "width") integer
  let height ← required fields (.plain "height") integer
  .ok ⟨x, y, width, height⟩

def Scale.read : Reader Scale := fun v => do
  let fields ← record "Scale" v
  let width ← maybe fields (.plain "width") integer
  let height ← maybe fields (.plain "height") integer
  if h : (width.isSome || height.isSome) = true then .ok ⟨width, height, h⟩
  else .error (.here (.rule "scale needs width or height"))

def OverlayStyle.read : Reader OverlayStyle := fun v => do
  let d := OverlayStyle.standard
  let fields ← record "OverlayStyle" v
  let fontSize ← optional fields ⟨"fontSize", "font_size"⟩ d.fontSize integer
  let color ← optional fields (.plain "color") d.color text
  let opacity ← optional fields (.plain "opacity") d.opacity decimal
  let boxColor ← maybe fields ⟨"boxColor", "box_color"⟩ text
  let width ← maybe fields (.plain "width") integer
  .ok ⟨fontSize, color, opacity, boxColor, width⟩

namespace OverlayContent

/-- The content of an overlay that says it is text. -/
def ofText (words : Option String) (source : Option MediaSource) : Except Fault OverlayContent :=
  match words with
  | none => .error (.here (.rule "text overlay needs text"))
  | some w =>
    if h : w.isEmpty = false then .ok (.text w h source)
    else .error (.here (.rule "text overlay needs text"))

/-- The content of an overlay that says it is an image. -/
def ofImage (words : Option String) (source : Option MediaSource) : Except Fault OverlayContent :=
  match source with
  | none => .error (.here (.rule "image overlay needs source"))
  | some s => .ok (.image s words)

end OverlayContent

def Overlay.read : Reader Overlay := fun v => do
  let fields ← record "Overlay" v
  let isText ← required fields (.plain "type") (Schema.word [("text", true), ("image", false)])
  let words ← maybe fields (.plain "text") text
  let source ← maybe fields (.plain "source") MediaSource.read
  let x ← maybe fields (.plain "x") integer
  let y ← maybe fields (.plain "y") integer
  let start ← optional fields (.plain "start") (.finite 0) decimal
  let finish ← maybe fields (.plain "end") decimal
  let style ← optional fields (.plain "style") .standard OverlayStyle.read
  let content ← if isText then OverlayContent.ofText words source
    else OverlayContent.ofImage words source
  .ok ⟨content, x, y, start, finish, style⟩

def Clip.read : Reader Clip := fun v => do
  let fields ← record "Clip" v
  let source ← required fields (.plain "source") MediaSource.read
  let mediaType ← optional fields ⟨"mediaType", "media_type"⟩ .video
    (Schema.word [("video", .video), ("audio", .audio)])
  let trim ← maybe fields (.plain "trim") Trim.read
  let speed ← optional fields (.plain "speed") (.finite 1) decimal
  let visualFilters ← optional fields ⟨"visualFilters", "visual_filters"⟩ []
    (listOf VisualFilter.read)
  let crop ← maybe fields (.plain "crop") Crop.read
  let scale ← maybe fields (.plain "scale") Scale.read
  let overlays ← optional fields (.plain "overlays") [] (listOf Overlay.read)
  let audioVolume ← optional fields ⟨"audioVolume", "audio_volume"⟩ (.finite 1) decimal
  .ok ⟨source, mediaType, trim, speed, visualFilters, crop, scale, overlays, audioVolume⟩

def OutputSettings.read : Reader OutputSettings := fun v => do
  let fields ← record "OutputSettings" v
  let width ← maybe fields (.plain "width") integer
  let height ← maybe fields (.plain "height") integer
  let fps ← maybe fields (.plain "fps") integer
  let videoBitrate ← maybe fields ⟨"videoBitrate", "video_bitrate"⟩ text
  let audioBitrate ← maybe fields ⟨"audioBitrate", "audio_bitrate"⟩ text
  .ok ⟨width, height, fps, videoBitrate, audioBitrate⟩

/-- A list of audio clips. -/
abbrev Soundtrack := { clips : List Clip // (clips.all fun c => c.mediaType == .audio) = true }

/-- Accepts a list of clips as a soundtrack. -/
def Soundtrack.ofClips (clips : List Clip) : Except Fault Soundtrack :=
  if h : (clips.all fun c => c.mediaType == .audio) = true then .ok ⟨clips, h⟩
  else .error (.here (.rule "soundtrack clips must have mediaType 'audio'"))

def Soundtrack.read : Reader Soundtrack := fun v => do
  let clips ← listOf Clip.read v
  Soundtrack.ofClips clips

/-- A timeline over a soundtrack. -/
def Soundtrack.under (s : Soundtrack) (clips : List Clip) (settings : OutputSettings) : Timeline :=
  ⟨clips, settings, s.1, s.2⟩

def Timeline.read : Reader Timeline := fun v => do
  let fields ← record "Timeline" v
  let clips ← optional fields (.plain "clips") [] (listOf Clip.read)
  let settings ← optional fields (.plain "settings") .unset OutputSettings.read
  let soundtrack ← optional fields (.plain "soundtrack") ⟨[], rfl⟩ Soundtrack.read
  .ok (soundtrack.under clips settings)

end Montage
