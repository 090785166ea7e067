import Montage.Plan.Filter
import Montage.Plan.Label
import Montage.Plan.Tempo
import Montage.Timeline.Check

/-! # Compiling a timeline

A compiler lowers a timeline and the files fetched for it to a plan.  For each clip there
is a stage with a picture and a sound of the same length; the stages are concatenated (a
single one is passed on), the soundtrack is mixed in, and the result is encoded.

The filters of a picture always stand in one order, whatever the order of the request: range
and clock, speed, tone, hue, blur, sharpen, invert, grayscale, crop, scale, canvas, then the
overlays as given.  A file without a picture gives a black one, a file without sound gives
silence, so every clip hands on exactly one of each.

Compiling fails for three reasons only, tried in this order: the timeline does not pass its
check, a file was not fetched, or what is known of a file does not fit the timeline.
-/
namespace Montage

/-- A fetched file and what is known of it. -/
structure Asset where
  path : String
  hasVideo : Bool
  hasAudio : Bool
  duration : Option Number
  deriving DecidableEq, Repr

/-- Settings of the output for what a timeline leaves open. -/
structure Defaults where
  width : Int
  height : Int
  fps : Int
  videoBitrate : String
  audioBitrate : String
  sampleRate : Int
  /-- Length of a clip of which neither trim nor file give one. -/
  fallbackDuration : Number
  videoCodec : String
  audioCodec : String
  preset : String
  deriving DecidableEq, Repr

def Defaults.standard : Defaults :=
  { width := 1280, height := 720, fps := 30, videoBitrate := "4M", audioBitrate := "160k"
    sampleRate := 48000, fallbackDuration := .finite 10, videoCodec := "libx264"
    audioCodec := "aac", preset := "fast" }

structure Compiler where
  defaults : Defaults
  fontFile : Option String
  rounding : Rounding

/-- Machine arithmetic, standard settings, no font of its own. -/
def Compiler.standard : Compiler := ⟨.standard, none, .binary64⟩

/-- Fetched files by the key of their source. -/
abbrev Assets := String → Option Asset

/-- Why a timeline has no plan. -/
inductive CompileFault where
  | check (fault : TimelineFault)
  | missingAsset (place : String) (source : MediaSource)
  | startPastEnd (clip : Nat) (start duration : Number)
  | silentSoundtrack (item : Nat)
  | labels (fault : LabelFault Label)
  deriving DecidableEq, Repr

open Problem in
def CompileFault.problem : CompileFault → Problem
  | check f => f.problem
  | missingAsset place s => Problem.missingAsset (some s.wording) (some place)
  | startPastEnd i s d =>
    invalidTrim (some ("Trim start " ++ s.report ++ "s is past the end of the asset (" ++
        d.report ++ "s)")) none none (some (clipPlace .clips i ++ ".trim.start"))
  | silentSoundtrack i =>
    invalidParameter (some "Soundtrack source has no audio stream")
      (some (clipPlace .soundtrack i ++ ".source")) none none none
  | labels f => (f.map Label.text).problem

/-! ### Files -/

/-- The file of a source, which is needed at a place. -/
def need (assets : Assets) (place : String) (s : MediaSource) : Except CompileFault Asset :=
  match assets s.key with
  | some a => .ok a
  | none => .error (.missingAsset place s)

/-- Asks for the files of a clip. -/
def needClip (assets : Assets) (place : String) (c : Clip) : Except CompileFault Unit := do
  let _ ← need assets (place ++ ".source") c.source
  checkItems (fun i o => ifGiven o.content.source? fun s => do
      let _ ← need assets (place ++ "." ++ itemPlace "overlays" i ++ ".source") s
      .ok ()) 0 c.overlays

/-- Asks for the files of a timeline. -/
def needAll (assets : Assets) (t : Timeline) : Except CompileFault Unit := do
  checkItems (fun i c => needClip assets (clipPlace .clips i) c) 0 t.clips
  checkItems (fun i c => needClip assets (clipPlace .soundtrack i) c) 0 t.soundtrack

/-! ### Time -/

/-- The range of a file that a clip shows, and its speed. -/
structure Timing where
  start : Number
  finish : Number
  speed : Number
  deriving DecidableEq, Repr

/-- Length on the output. -/
def Timing.duration (r : Rounding) (t : Timing) : Number :=
  Number.div r (Number.sub r t.finish t.start) t.speed

/-- Where a clip starts in its file. -/
def Clip.start (c : Clip) : Number :=
  match c.trim with
  | some t => t.start
  | none => .finite 0

/-- Where a clip asks to end in its file. -/
def Clip.requestedEnd? (r : Rounding) (c : Clip) : Option Number :=
  match c.trim with
  | none => none
  | some t =>
    match t.finish, t.duration with
    | some e, _ => some e
    | none, some d => some (Number.add r t.start d)
    | none, none => none

/-- The range that a clip shows, and what is to be said about it. -/
def Compiler.timing (k : Compiler) (index : Nat) (c : Clip) (a : Asset) :
    Except CompileFault (Timing × List String) :=
  match a.duration with
  | some d =>
    if Number.le d c.start then .error (.startPastEnd index c.start d)
    else
      let finish := match c.requestedEnd? k.rounding with
        | none => d
        | some e => Number.min e d
      .ok (⟨c.start, finish, c.speed⟩, [])
  | none =>
    match c.requestedEnd? k.rounding with
    | some e => .ok (⟨c.start, e, c.speed⟩, [])
    | none =>
      let fallback := k.defaults.fallbackDuration
      .ok (⟨c.start, Number.add k.rounding c.start fallback, c.speed⟩,
        [clipPlace .clips index ++ ": duration unknown, using " ++ fallback.sixPlaces ++ "s"])

/-! ### Picture -/

/-- The value of a filter, if the clip asks for it. -/
def Clip.filterValue? (c : Clip) (t : FilterType) : Option Number :=
  (c.visualFilters.reverse.find? fun f => f.type == t).map fun f =>
    f.value.getD (.finite ((t.range?.map FilterType.Range.standard).getD 0))

/-- Brightness, contrast and saturation as far as the clip asks for them. -/
def Clip.tones (c : Clip) : List (ToneSetting × Number) :=
  [(ToneSetting.brightness, FilterType.brightness), (.contrast, .contrast),
    (.saturation, .saturation)].filterMap fun (s, t) => (c.filterValue? t).map fun x => (s, x)

/-- A filter for a value, if the clip asks for it. -/
def Clip.filterFor (c : Clip) (t : FilterType) (filter : Number → Filter) : List Filter :=
  ((c.filterValue? t).map filter).toList

/-- A filter that does something only for a value above zero. -/
def Clip.filterAbove (c : Clip) (t : FilterType) (filter : Number → Filter) : List Filter :=
  match c.filterValue? t with
  | some x => if Number.lt (.finite 0) x then [filter x] else []
  | none => []

/-- Filters from the file's picture to the clip's, before the canvas. -/
def Clip.videoFilters (c : Clip) (t : Timing) : List Filter :=
  [.trim t.start t.finish, .resetVideo] ++
    (if Number.same c.speed (.finite 1) then [] else [.videoSpeed c.speed]) ++
    (if c.tones.isEmpty then [] else [.tone c.tones]) ++
    c.filterFor .hue .hue ++ c.filterAbove .blur .blur ++ c.filterAbove .sharpen .sharpen ++
    c.filterFor .invert (fun _ => .invert) ++ c.filterFor .grayscale (fun _ => .grayscale) ++
    (c.crop.map fun k => Filter.crop k.width k.height k.x k.y).toList ++
    (c.scale.map fun s => Filter.scale s.width s.height).toList

/-- Filters that bring every picture to the canvas of the output. -/
def Defaults.canvas (out : Defaults) : List Filter :=
  [.fit out.width out.height, .pad out.width out.height, .squarePixels, .frameRate out.fps,
    .pixelFormat]

/-- A black picture on the canvas. -/
def Defaults.blackFrame (out : Defaults) (duration : Number) : List Filter :=
  [.black out.width out.height out.fps duration, .squarePixels, .pixelFormat]

/-- What a text overlay draws. -/
def Compiler.drawText (k : Compiler) (o : Overlay) (words : String) : DrawText :=
  { words, fontFile := k.fontFile, fontSize := o.style.fontSize, color := o.style.color
    opacity := o.style.opacity, x := o.x, y := o.y, boxColor := o.style.boxColor
    window := ⟨o.start, o.finish⟩ }

/-- Filters of an overlay's image. -/
def Overlay.imageFilters (o : Overlay) : List Filter :=
  (o.style.width.map Filter.imageWidth).toList ++ [.withAlpha] ++
    (if isTranslucent o.style.opacity then [.opacity o.style.opacity] else [])

/-- Filters of a chain; a chain has at least one. -/
def atLeastOne (filters : List Filter) : List Filter :=
  if filters.isEmpty then [.passVideo] else filters

/-- Chains from a picture through the overlays to the clip's picture, and the files that they
need.  Texts are drawn in the current chain; an image ends it, and the next chain lays the
image over what it wrote.  `index` counts overlays, `next` input files. -/
def Compiler.overlayChains (k : Compiler) (assets : Assets) (clip : Nat) (index next : Nat)
    (inputs : List Label) (filters : List Filter) :
    List Overlay → Except CompileFault (List (Chain Label Filter) × List EngineInput)
  | [] => .ok ([⟨inputs, atLeastOne filters, .clipVideo clip⟩], [])
  | o :: rest =>
    match o.content with
    | .text words _ _ =>
      k.overlayChains assets clip (index + 1) next inputs
        (filters ++ [.drawText (k.drawText o words)]) rest
    | .image source _ =>
      let place := clipPlace .clips clip ++ "." ++ itemPlace "overlays" index ++ ".source"
      match need assets place source with
      | .error f => .error f
      | .ok asset =>
        match k.overlayChains assets clip (index + 1) (next + 1)
            [.base clip index, .image clip index]
            [.overlay o.x o.y ⟨o.start, o.finish⟩] rest with
        | .error f => .error f
        | .ok (chains, files) =>
          .ok (⟨inputs, atLeastOne filters, .base clip index⟩ ::
              ⟨[.stream next .video], o.imageFilters, .image clip index⟩ :: chains,
            ⟨asset.path, []⟩ :: files)

/-! ### Sound -/

/-- Filters from a file's sound to the sound of a clip. -/
def Clip.audioFilters (c : Clip) (r : Rounding) (finish : Option Number) (rate : Int) :
    List Filter :=
  [.audioTrim c.start finish, .resetAudio] ++ (Tempo.factors r c.speed).map .tempo ++
    (if Number.same c.audioVolume (.finite 1) then [] else [.volume c.audioVolume]) ++
    [.audioFormat rate]

/-- The chain of a clip's sound, which has the length of its picture. -/
def Clip.audioChain (c : Clip) (r : Rounding) (clip : Nat) (a : Asset) (t : Timing) (input : Nat)
    (rate : Int) : Chain Label Filter :=
  let duration := t.duration r
  if a.hasAudio then
    ⟨[.stream input .audio],
      c.audioFilters r (some t.finish) rate ++ [.audioPad duration, .audioLength duration],
      .clipAudio clip⟩
  else
    ⟨[], [.silence rate, .audioLength duration, .audioFormat rate], .clipAudio clip⟩

/-! ### Stages -/

/-- What a clip adds to a plan. -/
structure Section where
  stage : Stage Label Filter
  inputs : List EngineInput
  duration : Number
  warnings : List String
  deriving DecidableEq, Repr

/-- The stage of a clip, whose file becomes input `next`. -/
def Compiler.clipSection (k : Compiler) (out : Defaults) (assets : Assets) (index next : Nat)
    (c : Clip) : Except CompileFault Section := do
  let a ← need assets (clipPlace .clips index ++ ".source") c.source
  let (t, said) ← k.timing index c a
  let duration := t.duration k.rounding
  let shown := c.mediaType == .video && a.hasVideo
  let (inputs, filters) :=
    if shown then ([Label.stream next .video], c.videoFilters t ++ out.canvas)
    else ([], out.blackFrame duration)
  let blank := if c.mediaType == .video && !a.hasVideo then
      [clipPlace .clips index ++ ": source has no video stream, using a black frame"]
    else []
  let (chains, files) ← k.overlayChains assets index 0 (next + 1) inputs filters c.overlays
  .ok
    { stage :=
        { kind := .clip, name := "clip" ++ toString index
          chains := chains ++ [c.audioChain k.rounding index a t next out.sampleRate]
          maps := [], options := [] }
      inputs := ⟨a.path, []⟩ :: files
      duration
      warnings := said ++ blank }

/-- Makes the sections of clips from an index on, one after the other; each takes the input
files from `next` on. -/
def sectionsFrom (make : Nat → Nat → Clip → Except CompileFault Section) (index next : Nat) :
    List Clip → Except CompileFault (List Section)
  | [] => .ok []
  | c :: rest => do
    let s ← make index next c
    let more ← sectionsFrom make (index + 1) (next + s.inputs.length) rest
    .ok (s :: more)

/-- The stage of an item of the soundtrack, whose file becomes input `next`. -/
def Compiler.soundtrackSection (k : Compiler) (out : Defaults) (assets : Assets)
    (index next : Nat) (c : Clip) : Except CompileFault Section := do
  let a ← need assets (clipPlace .soundtrack index ++ ".source") c.source
  ensure a.hasAudio (.silentSoundtrack index)
  let chain : Chain Label Filter :=
    ⟨[.stream next .audio],
      c.audioFilters k.rounding (c.requestedEnd? k.rounding) out.sampleRate,
      .soundtrack index⟩
  .ok
    { stage :=
        { kind := .soundtrack, name := "soundtrack" ++ toString index, chains := [chain]
          maps := [], options := [] }
      inputs := [⟨a.path, []⟩]
      duration := .finite 0
      warnings := [] }

/-- The stage that puts the clips one after the other; one clip alone is passed on. -/
def joinStage (count : Nat) (sound : Label) : Stage Label Filter :=
  if 1 < count then
    { kind := .concat, name := "concat", maps := [], options := []
      chains :=
        [⟨(List.range count).map .clipVideo, [.concatVideo count], .outputVideo⟩,
          ⟨(List.range count).map .clipAudio, [.concatAudio count], sound⟩] }
  else
    { kind := .copy, name := "copy", maps := [], options := []
      chains :=
        [⟨[.clipVideo 0], [.passVideo], .outputVideo⟩, ⟨[.clipAudio 0], [.passAudio], sound⟩] }

/-- The stage that lays the soundtrack under the sound of the clips. -/
def mixStage (count : Nat) : Stage Label Filter :=
  { kind := .mix, name := "mix", maps := [], options := []
    chains :=
      [⟨.programAudio :: (List.range count).map .soundtrack, [.mix (count + 1)], .outputAudio⟩] }

/-- The stage that encodes. -/
def Defaults.encodeStage (out : Defaults) : Stage Label Filter :=
  { kind := .encode, name := "encode", chains := [], maps := [.outputVideo, .outputAudio]
    options :=
      ["-c:v", out.videoCodec, "-preset", out.preset, "-b:v", out.videoBitrate,
        "-r", toString out.fps, "-pix_fmt", "yuv420p", "-c:a", out.audioCodec,
        "-b:a", out.audioBitrate, "-ar", toString out.sampleRate, "-movflags", "+faststart"] }

/-- A side or a rate that says something. -/
def orElseInt (given : Option Int) (d : Int) : Int := (given.filter (· ≠ 0)).getD d

/-- The settings of a timeline, with the defaults for what they leave open. -/
def Defaults.under (d : Defaults) (s : OutputSettings) : Defaults :=
  { d with
    width := orElseInt s.width d.width
    height := orElseInt s.height d.height
    fps := orElseInt s.fps d.fps
    videoBitrate := (nonempty? s.videoBitrate).getD d.videoBitrate
    audioBitrate := (nonempty? s.audioBitrate).getD d.audioBitrate }

/-- Sum of lengths. -/
def total (r : Rounding) (durations : List Number) : Number :=
  durations.foldl (Number.add r) (.finite 0)

/-- The plan made of the sections of clips and soundtrack. -/
def Compiler.assemble (k : Compiler) (out : Defaults) (clips soundtrack : List Section) :
    Plan Label Filter :=
  let sound := if soundtrack.isEmpty then Label.outputAudio else .programAudio
  { inputs := (clips ++ soundtrack).flatMap Section.inputs
    stages := clips.map Section.stage ++ soundtrack.map Section.stage ++
      [joinStage clips.length sound] ++
      (if soundtrack.isEmpty then [] else [mixStage soundtrack.length]) ++ [out.encodeStage]
    outputName := "output.mp4"
    duration := Number.roundSix k.rounding (total k.rounding (clips.map Section.duration))
    warnings := clips.flatMap Section.warnings }

/-- The plan of a timeline. -/
def Compiler.compile (k : Compiler) (t : Timeline) (assets : Assets) :
    Except CompileFault (Plan Label Filter) := do
  (t.check k.rounding).mapError .check
  needAll assets t
  let out := k.defaults.under t.settings
  let clips ← sectionsFrom (k.clipSection out assets) 0 0 t.clips
  let next := (clips.flatMap Section.inputs).length
  let soundtrack ← sectionsFrom (k.soundtrackSection out assets) 0 next t.soundtrack
  let plan := k.assemble out clips soundtrack
  (plan.checkLabels Label.input?).mapError .labels
  .ok plan

/-- A compiled plan as texts. -/
def Plan.toText (p : Plan Label Filter) : TextPlan := p.map Label.text Filter.text

end Montage
