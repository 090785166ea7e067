import Montage.Number.Binary64
import Montage.Problem
import Montage.Timeline.Basic
import Montage.Timeline.Pattern

/-! # Checking a timeline

`Timeline.check` tests everything that can be known without the media files.  It goes
through the clips, then the soundtrack, then the settings, and stops at the first fault.

A fault is told in three layers.  A `ClipFault` is about one clip alone, an `OverlayFault`
about one overlay alone; a `TimelineFault` adds where in the timeline it was found.  The
check of a clip sees nothing but the clip, so whether a clip is valid does not depend on
the others.
-/
namespace Montage

/-- The two lists of clips. -/
inductive Group where
  | clips
  | soundtrack
  deriving DecidableEq, Repr

def Group.word : Group → String
  | clips => "clips"
  | soundtrack => "soundtrack"

/-- Place of a list item. -/
def itemPlace (list : String) (index : Nat) : String := list ++ "[" ++ toString index ++ "]"

/-- Place of a clip. -/
def clipPlace (g : Group) (index : Nat) : String := itemPlace g.word index

namespace FilterType

/-- The values that a filter admits and the one that it takes by itself; the last two
filters have none. -/
structure Range where
  low : Rat
  high : Rat
  standard : Rat
  deriving DecidableEq, Repr

def range? : FilterType → Option Range
  | brightness => some ⟨-1, 1, 0⟩
  | contrast => some ⟨0, 4, 1⟩
  | saturation => some ⟨0, 3, 1⟩
  | hue => some ⟨-360, 360, 0⟩
  | blur => some ⟨0, 100, 2⟩
  | sharpen => some ⟨0, 5, 1⟩
  | invert | grayscale => none

end FilterType

/-- Greatest speed. -/
def maxSpeed : Rat := 100

/-- Greatest volume. -/
def maxVolume : Rat := 10

/-- Greatest frame rate. -/
def maxFps : Int := 120

inductive OverlayFault where
  | start (value : Number)
  | window (start finish : Number)
  | fontSize (value : Int)
  | opacity (value : Number)
  | width (value : Int)
  | color (value : String)
  | boxColor (value : String)
  deriving DecidableEq, Repr

inductive ClipFault where
  | trimStart (value : Number)
  | trimEnd (start finish : Number)
  | trimDuration (value : Number)
  | trimDisagrees
  | speed (value : Number)
  | volume (value : Number)
  /-- An audio clip has filters, a crop or a scale. -/
  | visualsOnAudio
  | filterRepeated (index : Nat) (type : FilterType)
  | filterNotFinite (index : Nat) (value : Number)
  | filterRange (index : Nat) (value : Number) (range : FilterType.Range)
  | crop (crop : Crop)
  | scale (side : Int)
  | overlay (index : Nat) (fault : OverlayFault)
  deriving DecidableEq, Repr

inductive SettingsFault where
  | width (value : Int)
  | height (value : Int)
  | fps (value : Int)
  | videoBitrate (value : String)
  | audioBitrate (value : String)
  deriving DecidableEq, Repr

inductive TimelineFault where
  | noClips
  | clip (group : Group) (index : Nat) (fault : ClipFault)
  | overlaysOnSoundtrack (index : Nat)
  | settings (fault : SettingsFault)
  deriving DecidableEq, Repr

/-! ### Wording -/

open Problem in
/-- The problem of an overlay at a place. -/
def OverlayFault.problem (place : String) : OverlayFault → Problem
  | start x => invalidParameter none (some (place ++ ".start")) (some (.number x)) none none
  | window s e =>
    invalidParameter (some ("Overlay window [" ++ s.report ++ ", " ++ e.report ++ ") is empty"))
      (some (place ++ ".end")) none none none
  | fontSize n =>
    invalidParameter none (some (place ++ ".style.fontSize")) (some (.int n)) none none
  | opacity x =>
    invalidParameter none (some (place ++ ".style.opacity")) (some (.number x)) (some (.int 0))
      (some (.int 1))
  | width n => invalidParameter none (some (place ++ ".style.width")) (some (.int n)) none none
  | color s => invalidParameter none (some (place ++ ".style.color")) (some (.text s)) none none
  | boxColor s =>
    invalidParameter none (some (place ++ ".style.boxColor")) (some (.text s)) none none

open Problem in
/-- The problem of a clip at a place. -/
def ClipFault.problem (place : String) : ClipFault → Problem
  | trimStart x =>
    invalidTrim (some ("Trim start must be >= 0, got " ++ x.report)) none none
      (some (place ++ ".trim.start"))
  | trimEnd s e => invalidTrim none (some s) (some e) (some (place ++ ".trim.end"))
  | trimDuration x =>
    invalidTrim (some ("Trim duration must be > 0, got " ++ x.report)) none none
      (some (place ++ ".trim.duration"))
  | trimDisagrees =>
    invalidTrim (some "Trim end and duration disagree") none none (some (place ++ ".trim"))
  | speed x =>
    invalidParameter none (some (place ++ ".speed")) (some (.number x)) (some (.int 0))
      (some (.number (.finite maxSpeed)))
  | volume x =>
    invalidParameter none (some (place ++ ".audioVolume")) (some (.number x)) (some (.int 0))
      (some (.number (.finite maxVolume)))
  | visualsOnAudio =>
    invalidParameter (some "Audio clips take no visual filters, crop or scale")
      (some (place ++ ".mediaType")) none none none
  | filterRepeated i t =>
    invalidParameter (some ("Filter '" ++ t.word ++ "' given more than once"))
      (some (place ++ "." ++ itemPlace "visualFilters" i)) none none none
  | filterNotFinite i x =>
    invalidParameter none (some (place ++ "." ++ itemPlace "visualFilters" i))
      (some (.number x)) none none
  | filterRange i x r =>
    invalidParameter none (some (place ++ "." ++ itemPlace "visualFilters" i))
      (some (.number x)) (some (.number (.finite r.low))) (some (.number (.finite r.high)))
  | crop c =>
    invalidParameter (some ("Crop needs positive size and non-negative offset, got " ++
        toString c.width ++ "x" ++ toString c.height ++ "+" ++ toString c.x ++ "+" ++
        toString c.y))
      (some (place ++ ".crop")) none none none
  | scale n => invalidParameter none (some (place ++ ".scale")) (some (.int n)) none none
  | overlay i f => f.problem (place ++ "." ++ itemPlace "overlays" i)

open Problem in
/-- The problem of a side of the output. -/
def sideProblem (name : String) (value : Int) : Problem :=
  invalidParameter
    (some ("Output " ++ name ++ " must be a positive even number, got " ++ toString value))
    (some ("settings." ++ name)) none none none

open Problem in
def SettingsFault.problem : SettingsFault → Problem
  | width n => sideProblem "width" n
  | height n => sideProblem "height" n
  | fps n =>
    invalidParameter none (some "settings.fps") (some (.int n)) (some (.int 1))
      (some (.int maxFps))
  | videoBitrate s =>
    invalidParameter none (some "settings.videoBitrate") (some (.text s)) none none
  | audioBitrate s =>
    invalidParameter none (some "settings.audioBitrate") (some (.text s)) none none

open Problem in
def TimelineFault.problem : TimelineFault → Problem
  | noClips => plain .emptyTimeline
  | clip g i f => f.problem (clipPlace g i)
  | overlaysOnSoundtrack i =>
    invalidParameter (some "Soundtrack clips take no overlays")
      (some (clipPlace .soundtrack i ++ ".overlays")) none none none
  | settings f => f.problem

/-! ### The checks -/

/-- Refuses unless a condition holds. -/
def ensure (holds : Bool) (fault : ε) : Except ε Unit :=
  if holds then .ok () else .error fault

/-- Checks a value if it is there. -/
def ifGiven (v : Option α) (check : α → Except ε Unit) : Except ε Unit :=
  match v with
  | none => .ok ()
  | some a => check a

/-- Checks the items of a list from an index on. -/
def checkItems (check : Nat → α → Except ε Unit) (index : Nat) : List α → Except ε Unit
  | [] => .ok ()
  | a :: rest =>
    match check index a with
    | .error e => .error e
    | .ok () => checkItems check (index + 1) rest

namespace Number

/-- Finite and at least zero. -/
def isNatural (x : Number) : Bool := x.isFinite && !lt x (.finite 0)

/-- Finite and above zero. -/
def isPositive (x : Number) : Bool := x.isFinite && !le x (.finite 0)

/-- Finite and between two bounds. -/
def isWithin (low high : Rat) (x : Number) : Bool :=
  x.isFinite && le (.finite low) x && le x (.finite high)

end Number

/-- A trim starts in the file, ends after its start, and its length agrees with its end up to
a millionth. -/
def Trim.check (r : Rounding) (t : Trim) : Except ClipFault Unit := do
  ensure t.start.isNatural (.trimStart t.start)
  ifGiven t.finish fun e =>
    ensure (e.isFinite && !Number.le e t.start) (.trimEnd t.start e)
  ifGiven t.duration fun d => do
    ensure d.isPositive (.trimDuration d)
    ifGiven t.finish fun e =>
      ensure (Number.isClose r (Number.add r t.start d) e (1 / 1000000000) (1 / 1000000)) .trimDisagrees

/-- Checks one filter, given the kinds before it. -/
def VisualFilter.check (seen : List FilterType) (index : Nat) (f : VisualFilter) :
    Except ClipFault Unit := do
  ensure (!seen.contains f.type) (.filterRepeated index f.type)
  ifGiven f.value fun x => do
    ensure x.isFinite (.filterNotFinite index x)
    ifGiven f.type.range? fun r => ensure (x.isWithin r.low r.high) (.filterRange index x r)

/-- Checks filters from an index on, given the kinds before them. -/
def checkFilters (seen : List FilterType) (index : Nat) : List VisualFilter → Except ClipFault Unit
  | [] => .ok ()
  | f :: rest =>
    match f.check seen index with
    | .error e => .error e
    | .ok () => checkFilters (f.type :: seen) (index + 1) rest

def Crop.isValid (c : Crop) : Bool := 0 < c.width && 0 < c.height && 0 ≤ c.x && 0 ≤ c.y

def Overlay.check (o : Overlay) : Except OverlayFault Unit := do
  ensure o.start.isNatural (.start o.start)
  ifGiven o.finish fun e => ensure (e.isFinite && !Number.le e o.start) (.window o.start e)
  ensure (0 < o.style.fontSize) (.fontSize o.style.fontSize)
  ensure (o.style.opacity.isWithin 0 1) (.opacity o.style.opacity)
  ifGiven o.style.width fun w => ensure (0 < w) (.width w)
  ensure (isColor o.style.color) (.color o.style.color)
  ifGiven o.style.boxColor fun c => ensure (isColor c) (.boxColor c)

/-- Whether a clip changes its picture. -/
def Clip.hasVisuals (c : Clip) : Bool :=
  !c.visualFilters.isEmpty || c.crop.isSome || c.scale.isSome

/-- Everything that can be known of a clip on its own. -/
def Clip.check (r : Rounding) (c : Clip) : Except ClipFault Unit := do
  ifGiven c.trim (Trim.check r)
  ensure (c.speed.isPositive && Number.le c.speed (.finite maxSpeed)) (.speed c.speed)
  ensure (c.audioVolume.isWithin 0 maxVolume) (.volume c.audioVolume)
  ensure (!(c.mediaType == .audio && c.hasVisuals)) .visualsOnAudio
  checkFilters [] 0 c.visualFilters
  ifGiven c.crop fun k => ensure k.isValid (.crop k)
  ifGiven c.scale fun s => do
    ifGiven s.width fun n => ensure (0 < n) (.scale n)
    ifGiven s.height fun n => ensure (0 < n) (.scale n)
  checkItems (fun i o => (Overlay.check o).mapError (.overlay i)) 0 c.overlays

/-- A side of the output; the pixel format needs even ones. -/
def isEvenSide (n : Int) : Bool := 0 < n && n % 2 == 0

def OutputSettings.check (s : OutputSettings) : Except SettingsFault Unit := do
  ifGiven s.width fun n => ensure (isEvenSide n) (.width n)
  ifGiven s.height fun n => ensure (isEvenSide n) (.height n)
  ifGiven s.fps fun n => ensure (0 < n && n ≤ maxFps) (.fps n)
  ifGiven s.videoBitrate fun b => ensure (isBitrate b) (.videoBitrate b)
  ifGiven s.audioBitrate fun b => ensure (isBitrate b) (.audioBitrate b)

/-- A clip of the soundtrack carries no overlays. -/
def checkSoundtrackClip (r : Rounding) (index : Nat) (c : Clip) : Except TimelineFault Unit := do
  (c.check r).mapError (.clip .soundtrack index)
  ensure c.overlays.isEmpty (.overlaysOnSoundtrack index)

/-- Everything that can be known of a timeline without its media files. -/
def Timeline.check (r : Rounding) (t : Timeline) : Except TimelineFault Unit := do
  ensure (!t.clips.isEmpty) .noClips
  checkItems (fun i c => (Clip.check r c).mapError (.clip .clips i)) 0 t.clips
  checkItems (checkSoundtrackClip r) 0 t.soundtrack
  t.settings.check.mapError .settings

end Montage
