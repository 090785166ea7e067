import Montage.Engine.Run
import Montage.Json.Reader
import Montage.Timeline.Request

/-! # Probing a media file

The probe program describes a file as JSON.  From its answer are taken the length and the
first stream of each kind.  Output that is no JSON, a failed program, and a file without any
stream are faults of the **file** (`Fault.isOfFile`); the other faults say that the program
answered something of another shape, and are not blamed on the file.
-/
namespace Montage.Probe

/-- What the probe program did. -/
inductive Outcome where
  | notFound (program : String)
  | ran (output errors : String) (exitCode : Int)
  deriving DecidableEq, Repr

/-- What is known of a media file; widths and codecs are kept as they were given. -/
structure MediaInfo where
  duration : Option Number
  width : Json
  height : Json
  videoCodec : Json
  audioCodec : Json
  hasVideo : Bool
  hasAudio : Bool
  deriving Inhabited

inductive Fault where
  | unavailable (program : String)
  | failed (errors : String)
  | notJson (fault : Json.TextFault)
  | noStream (path : String)
  /-- A field was asked of a value that is no record. -/
  | noRecord (kind : String)
  /-- A value was searched that has no members. -/
  | noContainer (kind : String)
  /-- The streams are no list. -/
  | noList (kind : String)
  /-- The description of the file is a text. -/
  | textIndex
  /-- The description of the file is a list. -/
  | listIndex
  /-- The length is neither a number nor a text. -/
  | lengthKind (kind : String)
  /-- The length is a whole number beyond every number. -/
  | lengthRange
  deriving DecidableEq, Repr

/-- Whether a fault is blamed on the file. -/
def Fault.isOfFile : Fault → Bool
  | unavailable _ | failed _ | noStream _ => true
  | notJson f => !f.cause.isLimit || f.cause.isDepth
  | _ => false

def Fault.message : Fault → String
  | unavailable p => "ffprobe not available: " ++ Engine.noSuchFile p
  | failed e => "ffprobe failed: " ++ e
  | notJson f =>
    if f.cause.isLimit then f.message else "Failed to parse ffprobe output: " ++ f.message
  | noStream p => "No audio or video stream found in: " ++ p
  | noRecord k => "'" ++ k ++ "' object has no attribute 'get'"
  | noContainer k => "argument of type '" ++ k ++ "' is not iterable"
  | noList k => "'" ++ k ++ "' object is not iterable"
  | textIndex => "string indices must be integers, not 'str'"
  | listIndex => "list indices must be integers or slices, not str"
  | lengthKind k => "float() argument must be a string or a real number, not '" ++ k ++ "'"
  | lengthRange => "int too large to convert to float"

/-- The length that a value gives; a text that is no number gives none. -/
def lengthOf : Json → Except Fault (Option Number)
  | .string t => .ok (t.plain?.bind Number.measuredDecimal?)
  | .float x => .ok (some x)
  | .bool b => .ok (some (.finite (if b then 1 else 0)))
  | .int n =>
    match Number.ofInt? n with
    | some x => .ok (some x)
    | none => .error .lengthRange
  | v => .error (.lengthKind v.kindName)

/-- The length in the description of the file. -/
def duration (description : Json) : Except Fault (Option Number) :=
  match description.mentions? "duration" with
  | none => .error (.noContainer description.kindName)
  | some false => .ok none
  | some true =>
    match description with
    | .obj fields =>
      match Json.lookup "duration" fields with
      | some v => lengthOf v
      | none => .ok none
    | .arr _ => .error .listIndex
    | _ => .error .textIndex

/-- The streams that a value lists; the members of a record are its names. -/
def streamsOf : Json → Except Fault (List Json)
  | .arr items => .ok items
  | .obj fields => .ok (fields.map fun f => .string f.1)
  | .string t => .ok (t.codes.map fun n => .string (.ofCodes [n]))
  | v => .error (.noList v.kindName)

/-- Whether a field holds a word. -/
def holds (fields : List (JsonText × Json)) (name word : String) : Bool :=
  match Json.lookup name fields with
  | some (.str s) => s == word
  | _ => false

/-- The value of a field, null if it is missing. -/
def valueOf (fields : List (JsonText × Json)) (name : String) : Json :=
  (Json.lookup name fields).getD .null

/-- Takes one stream; only the first one of each kind counts. -/
def MediaInfo.addStream (i : MediaInfo) : Json → Except Fault MediaInfo
  | .obj fields =>
    if holds fields "codec_type" "video" && !i.hasVideo then
      .ok { i with hasVideo := true, width := valueOf fields "width"
                   height := valueOf fields "height", videoCodec := valueOf fields "codec_name" }
    else if holds fields "codec_type" "audio" && !i.hasAudio then
      .ok { i with hasAudio := true, audioCodec := valueOf fields "codec_name" }
    else .ok i
  | v => .error (.noRecord v.kindName)

/-- Takes streams one after the other. -/
def MediaInfo.addStreams (i : MediaInfo) : List Json → Except Fault MediaInfo
  | [] => .ok i
  | s :: rest =>
    match i.addStream s with
    | .error f => .error f
    | .ok i => i.addStreams rest

/-- What the answer of the probe program says about a file. -/
def read (path : String) (answer : Json) : Except Fault MediaInfo :=
  match answer with
  | .obj fields => do
    let length ← duration ((Json.lookup "format" fields).getD (.obj []))
    let streams ← streamsOf ((Json.lookup "streams" fields).getD (.arr []))
    let start : MediaInfo := ⟨length, .null, .null, .null, .null, false, false⟩
    let info ← start.addStreams streams
    if info.hasVideo || info.hasAudio then .ok info else .error (.noStream path)
  | v => .error (.noRecord v.kindName)

/-- What the outcome of the probe program says about a file. -/
def probe (path : String) : Outcome → Except Fault MediaInfo
  | .notFound program => .error (.unavailable program)
  | .ran output errors exitCode =>
    if exitCode ≠ 0 then .error (.failed errors)
    else match Json.read output with
      | .error f => .error (.notJson f)
      | .ok answer => read path answer

end Montage.Probe
