import Montage.Proofs.FilterOrder
import Montage.Proofs.FiniteNumbers
import Montage.Proofs.FixedForms

/-! # Which timelines are valid

Which values a clip, an overlay and the settings may have is said here without the check
(`Clip.Valid`, `Overlay.Valid`, `OutputSettings.Valid`), each of them about its own values alone.  The
check accepts a timeline if and only if it has a clip and all of its elements are valid
(`Timeline.check_eq_ok_iff`).

The check goes through the elements in an order, the clips, then the items of the soundtrack, then the
settings, and the path of what it finds leads into the first one that is not valid
(`firstOffending_of_check`).  No other element has such a path (`Element.eq_of_isNamedBy`).  A timeline
without clips is refused before the check comes to an element, and then there is no path.
-/
namespace Montage

open Number

/-! ### What is valid on its own -/

/-- A trim starts in the file and ends behind its start; a length that stands beside an end agrees with
it. -/
structure Trim.Valid (r : Rounding) (t : Trim) : Prop where
  start : t.start.isFinite = true ∧ 0 ≤ t.start.rat
  finish : ∀ e, t.finish = some e → e.isFinite = true ∧ t.start.rat < e.rat
  duration : ∀ d, t.duration = some d → d.isFinite = true ∧ 0 < d.rat
  agree : ∀ e d, t.finish = some e → t.duration = some d →
    Number.isClose r (Number.add r t.start d) e (1 / 1000000000) (1 / 1000000) = true

/-- An overlay has a window that is not empty, and a style that can be drawn. -/
structure Overlay.Valid (o : Overlay) : Prop where
  start : o.start.isFinite = true ∧ 0 ≤ o.start.rat
  finish : ∀ e, o.finish = some e → e.isFinite = true ∧ o.start.rat < e.rat
  fontSize : 0 < o.style.fontSize
  opacity : o.style.opacity.isFinite = true ∧ 0 ≤ o.style.opacity.rat ∧ o.style.opacity.rat ≤ 1
  width : ∀ n, o.style.width = some n → 0 < n
  color : Form.color.Holds o.style.color
  boxColor : ∀ s, o.style.boxColor = some s → Form.color.Holds s

/-- A clip has a range, a speed and a volume that can be played; if it is audio, it does nothing to a
picture, and if not, each filter comes once and with a value in its range. -/
structure Clip.Valid (r : Rounding) (c : Clip) : Prop where
  trim : ∀ t, c.trim = some t → t.Valid r
  speed : c.speed.isFinite = true ∧ 0 < c.speed.rat ∧ c.speed.rat ≤ 100
  volume : c.audioVolume.isFinite = true ∧ 0 ≤ c.audioVolume.rat ∧ c.audioVolume.rat ≤ 10
  visuals : c.mediaType = .audio → c.visualFilters = [] ∧ c.crop = none ∧ c.scale = none
  once : (c.visualFilters.map VisualFilter.type).Nodup
  values : ∀ f ∈ c.visualFilters, ∀ x, f.value = some x → x.isFinite = true ∧
    ∀ range, f.type.range? = some range → range.low ≤ x.rat ∧ x.rat ≤ range.high
  crop : ∀ k, c.crop = some k → 0 < k.width ∧ 0 < k.height ∧ 0 ≤ k.x ∧ 0 ≤ k.y
  scale : ∀ s, c.scale = some s →
    (∀ n, s.width = some n → 0 < n) ∧ ∀ n, s.height = some n → 0 < n
  overlays : ∀ o ∈ c.overlays, o.Valid

/-- An item of the soundtrack is a valid clip without overlays. -/
def Clip.ValidItem (r : Rounding) (c : Clip) : Prop := c.Valid r ∧ c.overlays = []

/-- Sides are even, as the pixel format needs them, rates are neither nought nor too high, and bit rates
have their form. -/
structure OutputSettings.Valid (s : OutputSettings) : Prop where
  width : ∀ n, s.width = some n → 0 < n ∧ n % 2 = 0
  height : ∀ n, s.height = some n → 0 < n ∧ n % 2 = 0
  fps : ∀ n, s.fps = some n → 0 < n ∧ n ≤ 120
  videoBitrate : ∀ b, s.videoBitrate = some b → Form.bitRate.Holds b
  audioBitrate : ∀ b, s.audioBitrate = some b → Form.bitRate.Holds b

/-! ### What the check accepts -/

section Accepted
variable {r : Rounding}

theorem isColor_eq_true_iff {s : String} : isColor s = true ↔ Form.color.Holds s :=
  Form.accepts_iff (f := .color)

theorem isBitrate_eq_true_iff {s : String} : isBitrate s = true ↔ Form.bitRate.Holds s :=
  Form.accepts_iff (f := .bitRate)

theorem checkItems_eq_ok_iff_forall {α ε : Type} {check : Nat → α → Except ε Unit} {P : α → Prop}
    (h : ∀ i a, check i a = .ok () ↔ P a) {l : List α} :
    checkItems check 0 l = .ok () ↔ ∀ a ∈ l, P a := by
  simp only [checkItems_eq_ok_iff, h]
  constructor
  · intro hall a ha
    obtain ⟨i, hi⟩ := List.getElem?_of_mem ha
    exact hall i a hi
  · intro hall i a ha
    exact hall a (List.mem_of_getElem? ha)

theorem Trim.check_eq_ok_iff {t : Trim} : t.check r = .ok () ↔ t.Valid r := by
  simp only [Trim.check, andThen_eq_ok_iff, ifGiven_eq_ok_iff, ensure_eq_ok_iff, isNatural_iff,
    isPositive_iff]
  constructor
  · rintro ⟨start, finish, duration⟩
    exact ⟨start, fun e he => (isLater_iff start.1).mp (finish e he),
      fun d hd => (duration d hd).1, fun e d he hd => (duration d hd).2 e he⟩
  · intro h
    exact ⟨h.start, fun e he => (isLater_iff h.start.1).mpr (h.finish e he),
      fun d hd => ⟨h.duration d hd, fun e he => h.agree e d he hd⟩⟩

theorem Overlay.check_eq_ok_iff {o : Overlay} : o.check = .ok () ↔ o.Valid := by
  simp only [Overlay.check, andThen_eq_ok_iff, ifGiven_eq_ok_iff, ensure_eq_ok_iff, isNatural_iff,
    isWithin_iff, decide_eq_true_eq, isColor_eq_true_iff]
  constructor
  · rintro ⟨start, finish, fontSize, opacity, width, color, boxColor⟩
    exact ⟨start, fun e he => (isLater_iff start.1).mp (finish e he), fontSize, opacity, width,
      color, boxColor⟩
  · intro h
    exact ⟨h.start, fun e he => (isLater_iff h.start.1).mpr (h.finish e he), h.fontSize, h.opacity,
      h.width, h.color, h.boxColor⟩

theorem Clip.hasVisuals_eq_false_iff {c : Clip} :
    c.hasVisuals = false ↔ c.visualFilters = [] ∧ c.crop = none ∧ c.scale = none := by
  simp [Clip.hasVisuals, and_assoc]

/-- **A clip passes if and only if it is valid.** -/
theorem Clip.check_eq_ok_iff {c : Clip} : c.check r = .ok () ↔ c.Valid r := by
  have hvisuals : (!(c.mediaType == .audio && c.hasVisuals)) = true ↔
      (c.mediaType = .audio → c.visualFilters = [] ∧ c.crop = none ∧ c.scale = none) := by
    rw [← hasVisuals_eq_false_iff]
    cases c.mediaType <;> simp
  have hfilters : checkFilters [] 0 c.visualFilters = .ok () ↔
      (c.visualFilters.map VisualFilter.type).Nodup ∧ ∀ f ∈ c.visualFilters, ∀ x,
        f.value = some x → x.isFinite = true ∧
          ∀ range, f.type.range? = some range → range.low ≤ x.rat ∧ x.rat ≤ range.high := by
    rw [checkFilters_eq_ok_iff]
    refine and_congr_right fun _ => ?_
    simp only [List.not_mem_nil, not_false_eq_true, implies_true, true_and]
    refine forall₂_congr fun f _ => forall₂_congr fun x _ => and_congr_right fun hx => ?_
    simp only [isWithin_iff, hx, true_and]
  have hoverlays : checkItems (fun i o => (Overlay.check o).mapError (ClipFault.overlay i)) 0
      c.overlays = .ok () ↔ ∀ o ∈ c.overlays, o.Valid :=
    checkItems_eq_ok_iff_forall (P := Overlay.Valid) fun _ _ =>
      mapError_eq_ok_iff.trans Overlay.check_eq_ok_iff
  simp only [Clip.check, andThen_eq_ok_iff, ifGiven_eq_ok_iff, ensure_eq_ok_iff,
    Trim.check_eq_ok_iff, hvisuals, hfilters, hoverlays, isWithin_iff, Bool.and_eq_true,
    isPositive_iff, Crop.isValid, decide_eq_true_eq, and_assoc]
  have hspeed (hx : c.speed.isFinite = true) :
      Number.le c.speed (.finite maxSpeed) = true ↔ c.speed.rat ≤ 100 := by
    rw [le_of_isFinite hx rfl, decide_eq_true_eq]
    rfl
  constructor
  · rintro ⟨trim, hfinite, hpositive, hmax, hvolume, hlow, hhigh, visuals, once, values, crop,
      scale, overlays⟩
    exact ⟨trim, ⟨hfinite, hpositive, (hspeed hfinite).mp hmax⟩, ⟨hvolume, hlow, hhigh⟩, visuals,
      once, values, crop, scale, overlays⟩
  · intro h
    exact ⟨h.trim, h.speed.1, h.speed.2.1, (hspeed h.speed.1).mpr h.speed.2.2, h.volume.1,
      h.volume.2.1, h.volume.2.2, h.visuals, h.once, h.values, h.crop, h.scale, h.overlays⟩

theorem checkSoundtrackClip_eq_ok_iff {i : Nat} {c : Clip} :
    checkSoundtrackClip r i c = .ok () ↔ c.ValidItem r := by
  simp only [checkSoundtrackClip, andThen_eq_ok_iff, mapError_eq_ok_iff, ensure_eq_ok_iff,
    Clip.check_eq_ok_iff, Clip.ValidItem, List.isEmpty_iff]

theorem OutputSettings.check_eq_ok_iff {s : OutputSettings} : s.check = .ok () ↔ s.Valid := by
  have hfps (n : Int) : (0 < n && decide (n ≤ maxFps)) = true ↔ 0 < n ∧ n ≤ 120 := by
    rw [Bool.and_eq_true, decide_eq_true_eq, decide_eq_true_eq]
    rfl
  simp only [OutputSettings.check, andThen_eq_ok_iff, ifGiven_eq_ok_iff, ensure_eq_ok_iff, hfps,
    isEvenSide, Bool.and_eq_true, decide_eq_true_eq, beq_iff_eq, isBitrate_eq_true_iff]
  constructor
  · rintro ⟨width, height, fps, videoBitrate, audioBitrate⟩
    exact ⟨width, height, fps, videoBitrate, audioBitrate⟩
  · intro h
    exact ⟨h.width, h.height, h.fps, h.videoBitrate, h.audioBitrate⟩

/-- **A timeline passes if and only if it has a clip and all of its elements are valid.** -/
theorem Timeline.check_eq_ok_iff {t : Timeline} : t.check r = .ok () ↔
    t.clips ≠ [] ∧ (∀ c ∈ t.clips, c.Valid r) ∧ (∀ c ∈ t.soundtrack, c.ValidItem r) ∧
      t.settings.Valid := by
  have hclips : checkItems (fun i c => (Clip.check r c).mapError (TimelineFault.clip .clips i)) 0
      t.clips = .ok () ↔ ∀ c ∈ t.clips, c.Valid r :=
    checkItems_eq_ok_iff_forall (P := Clip.Valid r) fun _ _ =>
      mapError_eq_ok_iff.trans Clip.check_eq_ok_iff
  have hitems : checkItems (checkSoundtrackClip r) 0 t.soundtrack = .ok () ↔
      ∀ c ∈ t.soundtrack, c.ValidItem r :=
    checkItems_eq_ok_iff_forall (P := Clip.ValidItem r) fun _ _ => checkSoundtrackClip_eq_ok_iff
  rw [Timeline.check, andThen_eq_ok_iff, andThen_eq_ok_iff, andThen_eq_ok_iff, ensure_eq_ok_iff,
    Bool.not_eq_true', List.isEmpty_eq_false_iff, mapError_eq_ok_iff, OutputSettings.check_eq_ok_iff,
    hclips, hitems]

end Accepted

/-! ### Elements and paths -/

/-- What the check of a timeline goes through. -/
inductive Element where
  | clip (index : Nat)
  /-- An item of the soundtrack. -/
  | item (index : Nat)
  | settings
  deriving DecidableEq, Repr

namespace Element

/-- The place of an element in a request. -/
def place : Element → String
  | clip i => clipPlace .clips i
  | item i => clipPlace .soundtrack i
  | settings => "settings"

/-- A path leads to something in an element. -/
def IsNamedBy (e : Element) (path : String) : Prop := ∃ rest, path = e.place ++ "." ++ rest

/-- The check comes to an element before it comes to another one: to the clips in order, to the items in
order, and to the settings. -/
def Precedes : Element → Element → Prop
  | clip i, clip j => i < j
  | item i, item j => i < j
  | clip _, item _ => True
  | clip _, settings => True
  | item _, settings => True
  | _, _ => False

theorem precedes_cases (a b : Element) : a.Precedes b ∨ a = b ∨ b.Precedes a := by
  cases a <;> cases b <;> simp [Precedes, Nat.lt_trichotomy]

theorem toList_place (e : Element) : e.place.toList =
    match e with
    | clip i => "clips[".toList ++ (Nat.toDigits 10 i ++ [']'])
    | item i => "soundtrack[".toList ++ (Nat.toDigits 10 i ++ [']'])
    | settings => "settings".toList := by
  cases e <;> simp [place, clipPlace, itemPlace, Group.word]

/-- **A path leads into one element only.** -/
theorem eq_of_isNamedBy {e e' : Element} {path : String} (h : e.IsNamedBy path)
    (h' : e'.IsNamedBy path) : e = e' := by
  obtain ⟨rest, rfl⟩ := h
  obtain ⟨rest', hpath⟩ := h'
  have hchars := congrArg String.toList hpath
  simp only [String.toList_append, toList_place] at hchars
  have hbracket (rest : List Char) : Number.DigitsEnd (']' :: rest) := by
    intro c hc
    cases hc
    decide
  -- the words in front tell clips, items and settings apart, and digits end at the bracket
  cases e <;> cases e' <;> simp at hchars
  · rw [(Number.digits_append_inj (hbracket _) (hbracket _) hchars).1]
  · rw [(Number.digits_append_inj (hbracket _) (hbracket _) hchars).1]
  · rfl

end Element

/-! ### Where faults are found -/

namespace Problem

@[simp] theorem field_invalidParameter (message field : Option String)
    (value low high : Option Quoted) :
    (invalidParameter message field value low high).field = field := by
  unfold invalidParameter
  split <;> rfl

@[simp] theorem field_invalidTrim (message : Option String) (start finish : Option Number)
    (field : Option String) : (invalidTrim message start finish field).field = field := by
  unfold invalidTrim
  split <;> rfl

end Problem

/-- What of an overlay a fault is about, as paths name it. -/
def OverlayFault.member : OverlayFault → String
  | start _ => "start"
  | window .. => "end"
  | fontSize _ => "style.fontSize"
  | opacity _ => "style.opacity"
  | width _ => "style.width"
  | color _ => "style.color"
  | boxColor _ => "style.boxColor"

/-- What of a clip a fault is about, as paths name it. -/
def ClipFault.member : ClipFault → String
  | trimStart _ => "trim.start"
  | trimEnd .. => "trim.end"
  | trimDuration _ => "trim.duration"
  | trimDisagrees => "trim"
  | speed _ => "speed"
  | volume _ => "audioVolume"
  | visualsOnAudio => "mediaType"
  | filterRepeated i _ | filterNotFinite i _ | filterRange i _ _ => itemPlace "visualFilters" i
  | crop _ => "crop"
  | scale _ => "scale"
  | overlay i f => itemPlace "overlays" i ++ "." ++ f.member

/-- Which of the settings a fault is about. -/
def SettingsFault.member : SettingsFault → String
  | width _ => "width"
  | height _ => "height"
  | fps _ => "fps"
  | videoBitrate _ => "videoBitrate"
  | audioBitrate _ => "audioBitrate"

theorem OverlayFault.field_problem (place : String) (f : OverlayFault) :
    (f.problem place).field = some (place ++ "." ++ f.member) := by
  cases f <;> simp [problem, member, String.append_assoc]

/-- **The path of a fault leads to what is wrong with a clip.** -/
theorem ClipFault.field_problem (place : String) (f : ClipFault) :
    (f.problem place).field = some (place ++ "." ++ f.member) := by
  cases f with
  | overlay i f => simp [problem, member, f.field_problem, String.append_assoc]
  | _ => simp [problem, member, String.append_assoc]

theorem SettingsFault.field_problem (f : SettingsFault) :
    f.problem.field = some ("settings" ++ "." ++ f.member) := by
  cases f <;> simp [problem, sideProblem, member]

namespace TimelineFault

/-- The element that a fault is about; that there are no clips is about none of them. -/
def element? : TimelineFault → Option Element
  | noClips => none
  | clip .clips i _ => some (.clip i)
  | clip .soundtrack i _ => some (.item i)
  | overlaysOnSoundtrack i => some (.item i)
  | settings _ => some .settings

/-- **The path of a fault leads into the element that it is about.** -/
theorem exists_isNamedBy {f : TimelineFault} {e : Element} (h : f.element? = some e) :
    ∃ path, f.problem.field = some path ∧ e.IsNamedBy path := by
  cases f with
  | noClips => cases h
  | clip g i f =>
    refine ⟨_, f.field_problem (clipPlace g i), f.member, ?_⟩
    cases g <;> cases h <;> rfl
  | overlaysOnSoundtrack i =>
    cases h
    refine ⟨_, Problem.field_invalidParameter .., "overlays", ?_⟩
    simp [Element.place, String.append_assoc]
  | settings f =>
    cases h
    exact ⟨_, f.field_problem, f.member, rfl⟩

theorem element?_of_checkSoundtrackClip {r : Rounding} {i : Nat} {c : Clip} {f : TimelineFault}
    (h : checkSoundtrackClip r i c = .error f) : f.element? = some (.item i) := by
  rcases bind_eq_error_iff.mp h with h | ⟨_, -, h⟩
  · obtain ⟨fault, -, rfl⟩ := mapError_eq_error_iff.mp h
    rfl
  · obtain ⟨-, rfl⟩ := ensure_eq_error_iff.mp h
    rfl

end TimelineFault

/-! ### The first element that is not valid -/

namespace Timeline
variable {r : Rounding} {t u : Timeline} {e e' : Element} {f : TimelineFault}

/-- Nothing is wrong in a timeline at an element. -/
def Admits (r : Rounding) (t : Timeline) : Element → Prop
  | .clip i => ∀ c, t.clips[i]? = some c → c.Valid r
  | .item i => ∀ c, t.soundtrack[i]? = some c → c.ValidItem r
  | .settings => t.settings.Valid

/-- An element is not valid, and all that come before it are. -/
structure FirstOffending (r : Rounding) (t : Timeline) (e : Element) : Prop where
  offends : ¬t.Admits r e
  before : ∀ b : Element, b.Precedes e → t.Admits r b

/-- Two timelines have the same at an element. -/
def AgreesAt (t u : Timeline) : Element → Prop
  | .clip i => t.clips[i]? = u.clips[i]?
  | .item i => t.soundtrack[i]? = u.soundtrack[i]?
  | .settings => t.settings = u.settings

/-- Another element is put into the place of one; all others stay. -/
structure ExchangedAt (t u : Timeline) (e : Element) : Prop where
  clips : t.clips.length = u.clips.length
  soundtrack : t.soundtrack.length = u.soundtrack.length
  others : ∀ b, b ≠ e → t.AgreesAt u b

theorem AgreesAt.admits_iff (h : t.AgreesAt u e) : t.Admits r e ↔ u.Admits r e := by
  cases e with
  | clip i => exact forall_congr' fun c => by rw [show t.clips[i]? = u.clips[i]? from h]
  | item i =>
    exact forall_congr' fun c => by rw [show t.soundtrack[i]? = u.soundtrack[i]? from h]
  | settings => exact iff_of_eq (congrArg OutputSettings.Valid h)

theorem admits_clip_of_check {i : Nat}
    (h : checkItems (fun i c => (Clip.check r c).mapError (TimelineFault.clip .clips i)) 0
      t.clips = .ok ()) : t.Admits r (.clip i) := by
  intro c hc
  have hcheck := checkItems_eq_ok_iff.mp h i c hc
  exact Clip.check_eq_ok_iff.mp (mapError_eq_ok_iff.mp hcheck)

theorem admits_item_of_check {i : Nat}
    (h : checkItems (checkSoundtrackClip r) 0 t.soundtrack = .ok ()) : t.Admits r (.item i) := by
  intro c hc
  exact checkSoundtrackClip_eq_ok_iff.mp (checkItems_eq_ok_iff.mp h i c hc)

/-- **What the check finds is about the first element that is not valid.** -/
theorem firstOffending_of_check (h : t.check r = .error f) (hclips : t.clips ≠ []) :
    ∃ e, f.element? = some e ∧ t.FirstOffending r e := by
  have hfilled : ensure (!t.clips.isEmpty) TimelineFault.noClips = .ok () := by
    simpa [ensure_eq_ok_iff] using hclips
  simp only [Timeline.check, hfilled, bind_eq_error_iff, reduceCtorEq, false_or, exists_const,
    true_and] at h
  obtain hclip | ⟨_, hvalid, hitem | ⟨_, hvalidItems, hsettings⟩⟩ := h
  · obtain ⟨i, c, hc, hfault, hbefore⟩ := checkItems_eq_error hclip
    rw [Nat.zero_add] at hfault
    obtain ⟨fault, hcheck, rfl⟩ := mapError_eq_error_iff.mp hfault
    refine ⟨.clip i, rfl, ?_, ?_⟩
    · intro hadmits
      cases hcheck.symm.trans (Clip.check_eq_ok_iff.mpr (hadmits c hc))
    · intro b hb
      cases b with
      | clip j =>
        intro d hd
        exact Clip.check_eq_ok_iff.mp (mapError_eq_ok_iff.mp (hbefore j d hd hb))
      | item j => exact False.elim hb
      | settings => exact False.elim hb
  · obtain ⟨i, c, hc, hfault, hbefore⟩ := checkItems_eq_error hitem
    rw [Nat.zero_add] at hfault
    refine ⟨.item i, TimelineFault.element?_of_checkSoundtrackClip hfault, ?_, ?_⟩
    · intro hadmits
      cases hfault.symm.trans (checkSoundtrackClip_eq_ok_iff.mpr (hadmits c hc))
    · intro b hb
      cases b with
      | clip j => exact admits_clip_of_check hvalid
      | item j =>
        intro d hd
        exact checkSoundtrackClip_eq_ok_iff.mp (hbefore j d hd hb)
      | settings => exact False.elim hb
  · obtain ⟨fault, hcheck, rfl⟩ := mapError_eq_error_iff.mp hsettings
    refine ⟨.settings, rfl, ?_, ?_⟩
    · intro hadmits
      cases hcheck.symm.trans (OutputSettings.check_eq_ok_iff.mpr hadmits)
    · intro b hb
      cases b with
      | clip j => exact admits_clip_of_check hvalid
      | item j => exact admits_item_of_check hvalidItems
      | settings => exact False.elim hb

/-- **With a valid element in the place of the first one that is not, the check accepts the timeline or
fails later.** -/
theorem check_of_exchangedAt (hfirst : t.FirstOffending r e) (hclips : t.clips ≠ [])
    (hu : t.ExchangedAt u e) (hadmits : u.Admits r e) :
    u.check r = .ok () ∨ ∃ f path e', u.check r = .error f ∧ f.problem.field = some path ∧
      e'.IsNamedBy path ∧ e.Precedes e' := by
  have hclips' : u.clips ≠ [] := by
    rwa [← List.length_pos_iff, ← hu.clips, List.length_pos_iff]
  cases hcheck : u.check r with
  | ok => exact .inl rfl
  | error f =>
    right
    obtain ⟨e', helement, hfirst'⟩ := firstOffending_of_check hcheck hclips'
    obtain ⟨path, hfield, hnamed⟩ := f.exists_isNamedBy helement
    refine ⟨f, path, e', rfl, hfield, hnamed, ?_⟩
    rcases Element.precedes_cases e e' with hlater | rfl | hearlier
    · exact hlater
    · exact absurd hadmits hfirst'.offends
    · -- what comes before the exchanged element is as it was
      have hvalid : t.Admits r e' := hfirst.before e' hearlier
      have hother : e' ≠ e := by
        rintro rfl
        exact hfirst.offends hvalid
      exact absurd ((hu.others e' hother).admits_iff.mp hvalid) hfirst'.offends

end Timeline

namespace Sample

/-- A song that stands still. -/
def stillSong : Clip := { Clip.whole (file "song.mp3") .audio (.finite 1) with speed := .finite 0 }

/-- A clip as it was shot, then one at a speed, over a song that stands still. -/
def twoTakes (speed : Rat) : Timeline :=
  { clips :=
      [Clip.whole (file "beach.mp4") .video (.finite 1),
        { Clip.whole (file "beach.mp4") .video (.finite 1) with speed := .finite speed }]
    settings := .unset
    soundtrack := [stillSong]
    soundtrack_audio := rfl }

/-- A song that stands still, and no clips. -/
def songAlone : Timeline := ⟨[], .unset, [stillSong], rfl⟩

theorem twoTakes_exchangedAt (x y : Rat) : (twoTakes x).ExchangedAt (twoTakes y) (.clip 1) where
  clips := rfl
  soundtrack := rfl
  others
    | .clip 0, _ => rfl
    | .clip 1, h => absurd rfl h
    | .clip (_ + 2), _ => rfl
    | .item _, _ => rfl
    | .settings, _ => rfl

end Sample

end Montage
