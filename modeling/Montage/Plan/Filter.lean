import Montage.Number.Decimal
import Montage.Plan.Escape

/-! # Labels and filters with a meaning

The compiler does not write texts.  Its labels say which stream they stand for (`Label`),
and its filters what they do (`Filter`); `Label.text` and `Filter.text` write them for the
engine.

The options of a text overlay are a list of names and values (`DrawText.options`).  A value
that comes from the request is escaped, the time window stands between quotes, and the
other values consist of characters that no reader takes for more than themselves.
-/
namespace Montage

/-- The streams of a file that are used. -/
inductive Channel where
  | video
  | audio
  deriving DecidableEq, Repr

def Channel.word : Channel → String
  | video => "v"
  | audio => "a"

/-- A stream inside a plan. -/
inductive Label where
  /-- A stream of an input file. -/
  | stream (input : Nat) (channel : Channel)
  | clipVideo (clip : Nat)
  | clipAudio (clip : Nat)
  /-- The picture below an image overlay. -/
  | base (clip overlay : Nat)
  /-- The image of an overlay. -/
  | image (clip overlay : Nat)
  | soundtrack (item : Nat)
  /-- The sound of all clips, before the soundtrack is mixed in. -/
  | programAudio
  | outputVideo
  | outputAudio
  deriving DecidableEq, Repr

namespace Label

def text : Label → String
  | stream i c => toString i ++ ":" ++ c.word
  | clipVideo i => "v" ++ toString i
  | clipAudio i => "a" ++ toString i
  | base i o => "c" ++ toString i ++ "o" ++ toString o
  | image i o => "img" ++ toString i ++ "o" ++ toString o
  | soundtrack i => "s" ++ toString i
  | programAudio => "program_a"
  | outputVideo => "outv"
  | outputAudio => "outa"

/-- The input file whose stream a label names. -/
def input? : Label → Option Nat
  | stream i _ => some i
  | _ => none

end Label

/-- The time in which an overlay is shown: from `start`, and until before `finish`. -/
structure Window where
  start : Number
  finish : Option Number
  deriving DecidableEq, Repr

/-- The window as a condition on the time; an overlay that is always shown has none. -/
def Window.expression? (w : Window) : Option String :=
  match w.finish with
  | none =>
    if w.start.isZero then none else some ("gte(t," ++ w.start.sixPlaces ++ ")")
  | some e => some ("gte(t," ++ w.start.sixPlaces ++ ")*lt(t," ++ e.sixPlaces ++ ")")

/-- Text drawn over the picture. -/
structure DrawText where
  words : String
  fontFile : Option String
  fontSize : Int
  color : String
  opacity : Number
  x : Option Int
  y : Option Int
  boxColor : Option String
  window : Window
  deriving DecidableEq, Repr

/-- How the value of an option is written. -/
inductive OptionValue where
  | plain (text : String)
  | escaped (text : String)
  | quoted (text : String)
  deriving DecidableEq, Repr

namespace OptionValue

/-- The value that the engine sees. -/
def meaning : OptionValue → String
  | plain s | escaped s | quoted s => s

def text : OptionValue → String
  | plain s => s
  | escaped s => Plan.escapeValue s
  | quoted s => "'" ++ s ++ "'"

end OptionValue

/-- A text that says something. -/
def nonempty? (s : Option String) : Option String := s.filter fun s => !s.isEmpty

/-- An opacity that lets something through. -/
def isTranslucent (x : Number) : Bool := Number.lt x (.finite 1)

/-- An offset, or the expression that centres. -/
def offset (given : Option Int) (centre : String) : String :=
  match given with
  | some n => toString n
  | none => centre

/-- Names and values of the options, in order. -/
def DrawText.options (d : DrawText) : List (String × OptionValue) :=
  let color := Plan.engineColor d.color ++
    (if isTranslucent d.opacity then "@" ++ d.opacity.sixPlaces else "")
  [("text", .escaped (Plan.oneLine d.words)), ("expansion", .plain "none")] ++
    (match nonempty? d.fontFile with
      | some f => [("fontfile", .escaped f)]
      | none => []) ++
    [("fontsize", .plain (toString d.fontSize)), ("fontcolor", .plain color),
      ("x", .plain (offset d.x "(w-text_w)/2")), ("y", .plain (offset d.y "(h-text_h)/2"))] ++
    (match nonempty? d.boxColor with
      | some b =>
        [("box", .plain "1"), ("boxcolor", .plain (Plan.engineColor b)),
          ("boxborderw", .plain "10")]
      | none => []) ++
    (match d.window.expression? with
      | some e => [("enable", .quoted e)]
      | none => [])

/-- Brightness, contrast and saturation. -/
inductive ToneSetting where
  | brightness
  | contrast
  | saturation
  deriving DecidableEq, Repr

def ToneSetting.word : ToneSetting → String
  | brightness => "brightness"
  | contrast => "contrast"
  | saturation => "saturation"

inductive Filter where
  /-- Cuts a range out of the picture. -/
  | trim (start finish : Number)
  /-- Lets the picture's clock start at nought. -/
  | resetVideo
  | videoSpeed (factor : Number)
  | tone (settings : List (ToneSetting × Number))
  | hue (degrees : Number)
  | blur (sigma : Number)
  | sharpen (amount : Number)
  | invert
  | grayscale
  | crop (width height x y : Int)
  /-- A new size; a side that is missing becomes the even number nearest to the ratio. -/
  | scale (width height : Option Int)
  /-- The greatest size of the same ratio inside a canvas. -/
  | fit (width height : Int)
  /-- A black border that fills the canvas. -/
  | pad (width height : Int)
  | squarePixels
  | frameRate (fps : Int)
  | pixelFormat
  /-- A black picture instead of a file. -/
  | black (width height fps : Int) (duration : Number)
  | drawText (text : DrawText)
  /-- Lays the second stream over the first one. -/
  | overlay (x y : Option Int) (window : Window)
  | imageWidth (width : Int)
  | withAlpha
  | opacity (factor : Number)
  /-- Cuts a range out of the sound. -/
  | audioTrim (start : Number) (finish : Option Number)
  /-- Lets the sound's clock start at nought. -/
  | resetAudio
  | tempo (factor : Number)
  | volume (factor : Number)
  | audioFormat (rate : Int)
  /-- Silence at the end up to a length. -/
  | audioPad (duration : Number)
  /-- Nothing beyond a length. -/
  | audioLength (duration : Number)
  /-- Silence instead of a file. -/
  | silence (rate : Int)
  | passVideo
  | passAudio
  | concatVideo (count : Nat)
  | concatAudio (count : Nat)
  | mix (count : Nat)
  deriving DecidableEq, Repr

namespace Filter

/-- A condition on the time as the last option of an overlay. -/
def enableOption (w : Window) : String :=
  match w.expression? with
  | some e => ":enable='" ++ e ++ "'"
  | none => ""

def text : Filter → String
  | trim s e => "trim=start=" ++ s.sixPlaces ++ ":end=" ++ e.sixPlaces
  | resetVideo => "setpts=PTS-STARTPTS"
  | videoSpeed f => "setpts=PTS/" ++ f.sixPlaces
  | tone settings =>
    "eq=" ++ ":".intercalate (settings.map fun (t, x) => t.word ++ "=" ++ x.sixPlaces)
  | hue x => "hue=h=" ++ x.sixPlaces
  | blur x => "gblur=sigma=" ++ x.sixPlaces
  | sharpen x => "unsharp=5:5:" ++ x.sixPlaces
  | invert => "negate"
  | grayscale => "hue=s=0"
  | crop w h x y =>
    "crop=" ++ toString w ++ ":" ++ toString h ++ ":" ++ toString x ++ ":" ++ toString y
  | scale w h => "scale=" ++ toString (w.getD (-2)) ++ ":" ++ toString (h.getD (-2))
  | fit w h =>
    "scale=" ++ toString w ++ ":" ++ toString h ++ ":force_original_aspect_ratio=decrease"
  | pad w h =>
    "pad=" ++ toString w ++ ":" ++ toString h ++ ":(ow-iw)/2:(oh-ih)/2:color=black"
  | squarePixels => "setsar=1"
  | frameRate n => "fps=" ++ toString n
  | pixelFormat => "format=yuv420p"
  | black w h r d =>
    "color=c=black:s=" ++ toString w ++ "x" ++ toString h ++ ":r=" ++ toString r ++ ":d=" ++
      d.sixPlaces
  | drawText d =>
    "drawtext=" ++ ":".intercalate (d.options.map fun (n, v) => n ++ "=" ++ v.text)
  | overlay x y w =>
    "overlay=x=" ++ offset x "(main_w-overlay_w)/2" ++ ":y=" ++ offset y "(main_h-overlay_h)/2" ++
      enableOption w
  | imageWidth w => "scale=" ++ toString w ++ ":-1"
  | withAlpha => "format=rgba"
  | opacity f => "colorchannelmixer=aa=" ++ f.sixPlaces
  | audioTrim s e =>
    "atrim=start=" ++ s.sixPlaces ++
      (match e with
        | some e => ":end=" ++ e.sixPlaces
        | none => "")
  | resetAudio => "asetpts=PTS-STARTPTS"
  | tempo f => "atempo=" ++ f.sixPlaces
  | volume f => "volume=" ++ f.sixPlaces
  | audioFormat r =>
    "aformat=sample_fmts=fltp:sample_rates=" ++ toString r ++ ":channel_layouts=stereo"
  | audioPad d => "apad=whole_dur=" ++ d.sixPlaces
  | audioLength d => "atrim=duration=" ++ d.sixPlaces
  | silence r => "anullsrc=channel_layout=stereo:sample_rate=" ++ toString r
  | passVideo => "null"
  | passAudio => "anull"
  | concatVideo n => "concat=n=" ++ toString n ++ ":v=1:a=0"
  | concatAudio n => "concat=n=" ++ toString n ++ ":v=0:a=1"
  | mix n =>
    "amix=inputs=" ++ toString n ++ ":duration=first:dropout_transition=0:normalize=0"

end Filter
end Montage
