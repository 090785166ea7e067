import Montage.Proofs.AlikeClips
import Montage.Proofs.PlanWays

/-! # The order of visual filters

A clip lists its visual filters in any order, and a filter may leave out its value.  Neither matters: the
check asks of a list of filters only that no kind comes twice and that each value is admitted
(`checkFilters_eq_ok_iff`), and the compiler looks a kind up instead of going through the list
(`filterValue?_eq_some_iff`).  So timelines that differ in nothing else are accepted together and have the
same plan (`compile_of_sameButFilters`).

What the compiler writes for them follows an order of its own, `PictureStep.all`: of these steps a picture
goes through those that its clip asks for (`steps_videoFilters`).
-/
namespace Montage

/-! ### Filters up to order and defaults -/

namespace VisualFilter

/-- The value that a filter takes. -/
def level (f : VisualFilter) : Number :=
  f.value.getD (.finite ((f.type.range?.map FilterType.Range.standard).getD 0))

/-- The filter with the value written out that it takes by itself, if its kind has values. -/
def explicit (f : VisualFilter) : VisualFilter :=
  { f with value := f.value.or (f.type.range?.map fun r => .finite r.standard) }

/-- A value is finite and in the range of its kind. -/
def IsAdmitted (f : VisualFilter) : Prop :=
  ∀ x, f.value = some x →
    x.isFinite = true ∧ ∀ r, f.type.range? = some r → x.isWithin r.low r.high = true

end VisualFilter

/-- Two lists have the same filters, in whatever order and with defaults written out or not. -/
def SameFilters (fs gs : List VisualFilter) : Prop :=
  (fs.map VisualFilter.explicit).Perm (gs.map VisualFilter.explicit)

instance (fs gs : List VisualFilter) : Decidable (SameFilters fs gs) :=
  inferInstanceAs (Decidable (List.Perm _ _))

section Filters
variable {f : VisualFilter} {fs gs : List VisualFilter}

theorem level_explicit : f.explicit.level = f.level := by
  unfold VisualFilter.level VisualFilter.explicit
  cases f.value with
  | some x => rfl
  | none => cases f.type.range? <;> rfl

/-- What a filter takes by itself is admitted. -/
theorem standard_isWithin {t : FilterType} {r : FilterType.Range} (h : t.range? = some r) :
    (Number.finite r.standard).isWithin r.low r.high = true := by
  cases t <;> cases h <;> decide +kernel

theorem isAdmitted_explicit_iff : f.explicit.IsAdmitted ↔ f.IsAdmitted := by
  cases hvalue : f.value with
  | some x => simp [VisualFilter.IsAdmitted, VisualFilter.explicit, hvalue]
  | none =>
    have hadmitted : f.IsAdmitted := fun x hx => nomatch hvalue.symm.trans hx
    refine iff_of_true (fun x hx => ?_) hadmitted
    simp only [VisualFilter.explicit, hvalue, Option.none_or] at hx
    obtain ⟨r, hr, rfl⟩ := Option.map_eq_some_iff.mp hx
    refine ⟨rfl, fun r' hr' => ?_⟩
    obtain rfl := Option.some.inj (hr.symm.trans hr')
    exact standard_isWithin hr

theorem check_eq_ok_iff {seen : List FilterType} {index : Nat} :
    f.check seen index = .ok () ↔ f.type ∉ seen ∧ f.IsAdmitted := by
  simp [VisualFilter.check, VisualFilter.IsAdmitted, andThen_eq_ok_iff, ensure_eq_ok_iff,
    ifGiven_eq_ok_iff]

/-- **Filters pass if and only if no kind comes twice and all values are admitted**, wherever they
stand in their list. -/
theorem checkFilters_eq_ok_iff {seen : List FilterType} {index : Nat} :
    checkFilters seen index fs = .ok () ↔
      (fs.map VisualFilter.type).Nodup ∧ (∀ f ∈ fs, f.type ∉ seen) ∧ ∀ f ∈ fs, f.IsAdmitted := by
  -- what has been seen grows by one kind, which none of the filters behind may have
  induction fs generalizing seen index with
  | nil => simp [checkFilters]
  | cons f rest ih =>
    have hcons : checkFilters seen index (f :: rest) = .ok () ↔
        f.check seen index = .ok () ∧ checkFilters (f.type :: seen) (index + 1) rest = .ok () := by
      cases h : f.check seen index <;> simp [checkFilters, h]
    rw [hcons, check_eq_ok_iff, ih, List.forall_mem_cons, List.forall_mem_cons]
    simp only [List.map_cons, List.nodup_cons, List.mem_map, not_exists, not_and, List.mem_cons,
      not_or]
    constructor
    · rintro ⟨⟨hseen, hadmitted⟩, hnodup, hrest, hall⟩
      exact ⟨⟨fun g hg => (hrest g hg).1, hnodup⟩, ⟨hseen, fun g hg => (hrest g hg).2⟩,
        hadmitted, hall⟩
    · rintro ⟨⟨hnew, hnodup⟩, ⟨hseen, hrest⟩, hadmitted, hall⟩
      exact ⟨⟨hseen, hadmitted⟩, hnodup, fun g hg => ⟨hnew g hg, hrest g hg⟩, hall⟩

/-- The check does not see the order, nor whether a default is written out. -/
theorem checkFilters_iff_of_same (h : SameFilters fs gs) :
    checkFilters [] 0 fs = .ok () ↔ checkFilters [] 0 gs = .ok () := by
  have hexplicit (fs : List VisualFilter) : checkFilters [] 0 fs = .ok () ↔
      ((fs.map VisualFilter.explicit).map VisualFilter.type).Nodup ∧
        ∀ f ∈ fs.map VisualFilter.explicit, f.IsAdmitted := by
    rw [checkFilters_eq_ok_iff, List.map_map, List.forall_mem_map]
    simp only [isAdmitted_explicit_iff, List.not_mem_nil, not_false_eq_true, implies_true, true_and]
    rfl
  rw [hexplicit, hexplicit, (h.map VisualFilter.type).nodup_iff]
  exact and_congr_right fun _ => forall_congr' fun f => imp_congr_left h.mem_iff

end Filters

/-! ### Clips and timelines up to their filters -/

/-- The clip with other filters. -/
def Clip.withFilters (c : Clip) (fs : List VisualFilter) : Clip := { c with visualFilters := fs }

/-- Two clips differ in the order of their filters and in defaults that are written out. -/
def Clip.SameButFilters (c d : Clip) : Prop :=
  ∃ fs, SameFilters c.visualFilters fs ∧ d = c.withFilters fs

/-- Two timelines differ in the order of the filters of their clips and in defaults that are written
out. -/
structure Timeline.SameButFilters (t u : Timeline) : Prop where
  clips : List.Forall₂ Clip.SameButFilters t.clips u.clips
  soundtrack : List.Forall₂ Clip.SameButFilters t.soundtrack u.soundtrack
  settings : t.settings = u.settings

variable {r : Rounding} {c : Clip} {fs : List VisualFilter}

theorem Clip.check_withFilters (h : SameFilters c.visualFilters fs) :
    (c.withFilters fs).check r = .ok () ↔ c.check r = .ok () := by
  have hempty : fs.isEmpty = c.visualFilters.isEmpty := by
    have hlength := h.length_eq
    rw [List.length_map, List.length_map] at hlength
    rw [Bool.eq_iff_iff, List.isEmpty_iff_length_eq_zero, List.isEmpty_iff_length_eq_zero, hlength]
  have hvisuals : (c.withFilters fs).hasVisuals = c.hasVisuals := by
    simp only [Clip.hasVisuals, Clip.withFilters, hempty]
  simp only [Clip.check, andThen_eq_ok_iff, hvisuals]
  have hfilters := (checkFilters_iff_of_same h).symm
  simp only [Clip.withFilters, hfilters]

/-! ### Values that are looked up -/

/-- A clip lists a filter of a kind that takes a value. -/
def Clip.Lists (c : Clip) (t : FilterType) (x : Number) : Prop :=
  ∃ f ∈ c.visualFilters, f.type = t ∧ f.level = x

/-- No kind of filter comes twice. -/
def Clip.FiltersOnce (c : Clip) : Prop := (c.visualFilters.map VisualFilter.type).Nodup

theorem filtersOnce_of_check (h : c.check r = .ok ()) : c.FiltersOnce := by
  simp only [Clip.check, andThen_eq_ok_iff] at h
  obtain ⟨-, -, -, -, hfilters, -⟩ := h
  exact (checkFilters_eq_ok_iff.mp hfilters).1

/-- **A value is looked up by its kind.**  The filter may stand anywhere, and its default may be
written out. -/
theorem filterValue?_eq_some_iff (once : c.FiltersOnce) {t : FilterType} {x : Number} :
    c.filterValue? t = some x ↔ c.Lists t x := by
  have hlevel {f : VisualFilter} (hf : f.type = t) :
      f.value.getD (.finite ((t.range?.map FilterType.Range.standard).getD 0)) = f.level := by
    rw [← hf]
    rfl
  constructor
  · intro h
    obtain ⟨f, hfind, hx⟩ := Option.map_eq_some_iff.mp h
    have htype : f.type = t := by simpa using List.find?_some hfind
    exact ⟨f, List.mem_reverse.mp (List.mem_of_find?_eq_some hfind), htype, hlevel htype ▸ hx⟩
  · rintro ⟨f, hf, htype, rfl⟩
    have hsome : (c.visualFilters.reverse.find? fun f => f.type == t).isSome = true :=
      List.find?_isSome.mpr ⟨f, List.mem_reverse.mpr hf, by simpa using htype⟩
    obtain ⟨g, hfind⟩ := Option.isSome_iff_exists.mp hsome
    have hgtype : g.type = t := by simpa using List.find?_some hfind
    have hg := List.mem_reverse.mp (List.mem_of_find?_eq_some hfind)
    -- the only filter of its kind
    obtain rfl := List.inj_on_of_nodup_map once hg hf (hgtype.trans htype.symm)
    rw [Clip.filterValue?, hfind, Option.map_some, hlevel htype]

theorem filterValue?_withFilters (once : c.FiltersOnce) (h : SameFilters c.visualFilters fs)
    (t : FilterType) : (c.withFilters fs).filterValue? t = c.filterValue? t := by
  have hkinds : (fs.map VisualFilter.type).Perm (c.visualFilters.map VisualFilter.type) := by
    have hperm := (h.map VisualFilter.type).symm
    rwa [List.map_map, List.map_map] at hperm
  have hlists (d : Clip) (x : Number) : d.Lists t x ↔
      ∃ f ∈ d.visualFilters.map VisualFilter.explicit, f.type = t ∧ f.level = x := by
    simp only [Clip.Lists, List.mem_map, exists_exists_and_eq_and, level_explicit]
    rfl
  have honce : (c.withFilters fs).FiltersOnce := hkinds.nodup_iff.mpr once
  refine Option.ext fun x => ?_
  rw [filterValue?_eq_some_iff honce, filterValue?_eq_some_iff once, hlists, hlists]
  refine exists_congr fun f => and_congr_left fun _ => ?_
  exact h.mem_iff.symm

/-! ### Plans -/

section Plans
variable {k : Compiler} {out : Defaults} {assets : Assets} {t u : Timeline}

/-- The compiler sees the values of filters only by looking them up. -/
theorem clipSection_withFilters (once : c.FiltersOnce) (h : SameFilters c.visualFilters fs)
    (index next : Nat) :
    k.clipSection out assets index next (c.withFilters fs) =
      k.clipSection out assets index next c := by
  have hfilters (tm : Timing) : (c.withFilters fs).videoFilters tm = c.videoFilters tm := by
    simp only [Clip.videoFilters, Clip.tones, Clip.filterFor, Clip.filterAbove,
      filterValue?_withFilters once h]
    rfl
  simp only [Compiler.clipSection, hfilters]
  rfl

theorem Clip.SameButFilters.alike {d : Clip} (h : c.SameButFilters d) : k.Alike assets c d := by
  obtain ⟨fs, hfs, rfl⟩ := h
  exact
    { source := rfl
      overlays := rfl
      check_iff := (Clip.check_withFilters hfs).symm
      asClip := fun hcheck _ index next =>
        (clipSection_withFilters (filtersOnce_of_check hcheck) hfs index next).symm
      asItem := fun _ _ _ _ => rfl }

theorem Timeline.SameButFilters.alikeThroughout (h : t.SameButFilters u) :
    k.AlikeThroughout assets t u where
  clips := h.clips.imp fun _ _ => Clip.SameButFilters.alike
  soundtrack := h.soundtrack.imp fun _ _ => Clip.SameButFilters.alike
  settings := h.settings

theorem Timeline.SameButFilters.check_iff (h : t.SameButFilters u) :
    t.check k.rounding = .ok () ↔ u.check k.rounding = .ok () := by
  have alike : k.AlikeThroughout (fun _ => none) t u := h.alikeThroughout
  exact alike.check_iff

/-- **Timelines that differ in the order of filters and in defaults written out have the same
plan**, or neither has one. -/
theorem compile_of_sameButFilters (h : t.SameButFilters u) (p : Plan Label Filter) :
    k.compile t assets = .ok p ↔ k.compile u assets = .ok p :=
  h.alikeThroughout.compile_iff p

end Plans

/-! ### The order of the compiler -/

/-- What is done to a picture before it comes to the canvas. -/
inductive PictureStep where
  | trim
  | reset
  | speed
  | tone
  | hue
  | blur
  | sharpen
  | invert
  | grayscale
  | crop
  | scale
  deriving DecidableEq, Repr

/-- All steps, in the order in which a picture goes through them. -/
def PictureStep.all : List PictureStep :=
  [trim, reset, speed, tone, hue, blur, sharpen, invert, grayscale, crop, scale]

/-- The step that a filter is. -/
def Filter.pictureStep? : Filter → Option PictureStep
  | trim .. => some .trim
  | resetVideo => some .reset
  | videoSpeed _ => some .speed
  | tone _ => some .tone
  | hue _ => some .hue
  | blur _ => some .blur
  | sharpen _ => some .sharpen
  | invert => some .invert
  | grayscale => some .grayscale
  | crop .. => some .crop
  | scale .. => some .scale
  | _ => none

/-- The kind of filter that asks for a change of tone. -/
def ToneSetting.kind : ToneSetting → FilterType
  | brightness => .brightness
  | contrast => .contrast
  | saturation => .saturation

def ToneSetting.all : List ToneSetting := [brightness, contrast, saturation]

namespace Clip

/-- A clip lists a kind of filter. -/
def asks (c : Clip) (t : FilterType) : Bool := c.visualFilters.any fun f => f.type == t

/-- A clip lists a kind of filter with a value above zero. -/
def asksAbove (c : Clip) (t : FilterType) : Bool :=
  c.visualFilters.any fun f => f.type == t && Number.lt (.finite 0) f.level

/-- A clip asks for a step, and the step does something.  Every clip has a range in its file and a
clock of its own. -/
def asksFor (c : Clip) : PictureStep → Bool
  | .trim | .reset => true
  | .speed => !Number.same c.speed (.finite 1)
  | .tone => ToneSetting.all.any fun s => c.asks s.kind
  | .hue => c.asks .hue
  | .blur => c.asksAbove .blur
  | .sharpen => c.asksAbove .sharpen
  | .invert => c.asks .invert
  | .grayscale => c.asks .grayscale
  | .crop => c.crop.isSome
  | .scale => c.scale.isSome

/-- The values of a filter are those of the clip and of its range. -/
def Says (c : Clip) (tm : Timing) : Filter → Prop
  | .trim s e => s = tm.start ∧ e = tm.finish
  | .videoSpeed x => x = c.speed
  | .tone settings =>
    settings.map Prod.fst = ToneSetting.all.filter (fun s => c.asks s.kind) ∧
      ∀ s ∈ settings, c.Lists s.1.kind s.2
  | .hue x => c.Lists .hue x
  | .blur x => c.Lists .blur x
  | .sharpen x => c.Lists .sharpen x
  | .crop w h x y => c.crop = some ⟨x, y, w, h⟩
  | .scale w h => ∃ side, c.scale = some ⟨w, h, side⟩
  | _ => True

end Clip

section Steps
variable {t : FilterType} {step : PictureStep} {filter : Number → Filter}

theorem filter_map_eq_flatMap {α β : Type} (p : α → Bool) (f : α → β) (l : List α) :
    (l.filter p).map f = l.flatMap fun a => if p a then [f a] else [] := by
  induction l with
  | nil => rfl
  | cons a rest ih =>
    rw [List.filter_cons, List.flatMap_cons]
    split
    · rw [List.map_cons, ih]
      rfl
    · rw [ih]
      rfl

theorem asks_eq_isSome (once : c.FiltersOnce) : c.asks t = (c.filterValue? t).isSome := by
  rw [Bool.eq_iff_iff, Clip.asks, List.any_eq_true, Option.isSome_iff_exists]
  simp only [filterValue?_eq_some_iff once, Clip.Lists, beq_iff_eq]
  constructor
  · rintro ⟨f, hf, htype⟩
    exact ⟨f.level, f, hf, htype, rfl⟩
  · rintro ⟨x, f, hf, htype, -⟩
    exact ⟨f, hf, htype⟩

theorem asksAbove_iff (once : c.FiltersOnce) :
    c.asksAbove t = true ↔ ∃ x, c.filterValue? t = some x ∧ Number.lt (.finite 0) x = true := by
  simp only [Clip.asksAbove, List.any_eq_true, Bool.and_eq_true, beq_iff_eq,
    filterValue?_eq_some_iff once, Clip.Lists]
  constructor
  · rintro ⟨f, hf, htype, hlt⟩
    exact ⟨f.level, ⟨f, hf, htype, rfl⟩, hlt⟩
  · rintro ⟨x, ⟨f, hf, htype, rfl⟩, hlt⟩
    exact ⟨f, hf, htype, hlt⟩

/-- A filter for a value that may be missing. -/
theorem steps_given {α : Type} (value : Option α) {filter : α → Filter}
    (hstep : ∀ x, (filter x).pictureStep? = some step) :
    (value.map filter).toList.map Filter.pictureStep? =
      if value.isSome then [some step] else [] := by
  cases value with
  | none => rfl
  | some x => exact congrArg (fun s => [s]) (hstep x)

theorem steps_filterFor (once : c.FiltersOnce) (hstep : ∀ x, (filter x).pictureStep? = some step) :
    (c.filterFor t filter).map Filter.pictureStep? = if c.asks t then [some step] else [] := by
  rw [asks_eq_isSome once]
  exact steps_given _ hstep

theorem steps_filterAbove (once : c.FiltersOnce)
    (hstep : ∀ x, (filter x).pictureStep? = some step) :
    (c.filterAbove t filter).map Filter.pictureStep? =
      if c.asksAbove t then [some step] else [] := by
  have hasks := asksAbove_iff once (t := t)
  cases hvalue : c.filterValue? t with
  | none =>
    rw [hvalue] at hasks
    rw [Clip.filterAbove, hvalue, if_neg fun h => by simpa using hasks.mp h]
    rfl
  | some x =>
    simp only [hvalue, Option.some.injEq, exists_eq_left'] at hasks
    rw [Clip.filterAbove, hvalue]
    by_cases hlt : Number.lt (.finite 0) x = true
    · rw [if_pos (hasks.mpr hlt)]
      simp only [hlt, if_true]
      exact congrArg (fun s => [s]) (hstep x)
    · rw [if_neg fun h => hlt (hasks.mp h)]
      simp only [hlt]
      rfl

theorem map_fst_filterMap {α β : Type} (g : α → Option β) (l : List α) :
    (l.filterMap fun a => (g a).map fun b => (a, b)).map Prod.fst =
      l.filter fun a => (g a).isSome := by
  induction l with
  | nil => rfl
  | cons a rest ih => cases h : g a <;> simp [h, ih]

/-- The tones of a clip are looked up one after the other. -/
theorem tones_eq (c : Clip) :
    c.tones = ToneSetting.all.filterMap fun s => (c.filterValue? s.kind).map fun x => (s, x) := rfl

theorem tones_kinds (once : c.FiltersOnce) :
    c.tones.map Prod.fst = ToneSetting.all.filter fun s => c.asks s.kind := by
  rw [tones_eq, map_fst_filterMap]
  exact List.filter_congr fun s _ => (asks_eq_isSome once).symm

theorem steps_tone (once : c.FiltersOnce) :
    (if c.tones.isEmpty then [] else [Filter.tone c.tones]).map Filter.pictureStep? =
      if c.asksFor .tone then [some .tone] else [] := by
  have hempty : c.tones.isEmpty = true ↔ ¬ c.asksFor .tone = true := by
    rw [← List.isEmpty_map (f := Prod.fst), tones_kinds once, List.isEmpty_iff,
      List.filter_eq_nil_iff, Clip.asksFor, List.any_eq_true]
    simp only [not_exists, not_and]
  by_cases htone : c.asksFor .tone = true
  · rw [if_neg fun h => hempty.mp h htone, if_pos htone]
    rfl
  · rw [if_pos (hempty.mpr htone), if_neg htone]
    rfl

/-- **The steps of a picture are those that its clip asks for, in one order.** -/
theorem steps_videoFilters (once : c.FiltersOnce) (tm : Timing) :
    (c.videoFilters tm).map Filter.pictureStep? =
      (PictureStep.all.filter c.asksFor).map some := by
  have hspeed : (if Number.same c.speed (.finite 1) then [] else [Filter.videoSpeed c.speed]).map
      Filter.pictureStep? = if c.asksFor .speed then [some .speed] else [] := by
    by_cases hsame : Number.same c.speed (.finite 1) = true <;>
      simp [Clip.asksFor, hsame, Filter.pictureStep?]
  have hhue : (c.filterFor .hue .hue).map Filter.pictureStep? =
      if c.asks .hue then [some .hue] else [] := steps_filterFor once fun _ => rfl
  have hblur : (c.filterAbove .blur .blur).map Filter.pictureStep? =
      if c.asksAbove .blur then [some .blur] else [] := steps_filterAbove once fun _ => rfl
  have hsharpen : (c.filterAbove .sharpen .sharpen).map Filter.pictureStep? =
      if c.asksAbove .sharpen then [some .sharpen] else [] := steps_filterAbove once fun _ => rfl
  have hinvert : (c.filterFor .invert fun _ => .invert).map Filter.pictureStep? =
      if c.asks .invert then [some .invert] else [] := steps_filterFor once fun _ => rfl
  have hgrayscale : (c.filterFor .grayscale fun _ => .grayscale).map Filter.pictureStep? =
      if c.asks .grayscale then [some .grayscale] else [] := steps_filterFor once fun _ => rfl
  have hcrop : (c.crop.map fun k => Filter.crop k.width k.height k.x k.y).toList.map
      Filter.pictureStep? = if c.crop.isSome then [some .crop] else [] := steps_given _ fun _ => rfl
  have hscale : (c.scale.map fun s => Filter.scale s.width s.height).toList.map
      Filter.pictureStep? = if c.scale.isSome then [some .scale] else [] :=
    steps_given _ fun _ => rfl
  simp only [Clip.videoFilters, List.map_append, hspeed, steps_tone once, hhue, hblur, hsharpen,
    hinvert, hgrayscale, hcrop, hscale, filter_map_eq_flatMap, PictureStep.all, List.flatMap_cons,
    List.flatMap_nil, List.append_nil, List.append_assoc]
  rfl

theorem mem_filterFor {f : Filter} (hf : f ∈ c.filterFor t filter) :
    ∃ x, c.filterValue? t = some x ∧ f = filter x := by
  obtain ⟨x, hx, rfl⟩ := Option.map_eq_some_iff.mp (Option.mem_toList.mp hf)
  exact ⟨x, hx, rfl⟩

theorem mem_filterAbove {f : Filter} (hf : f ∈ c.filterAbove t filter) :
    ∃ x, c.filterValue? t = some x ∧ f = filter x := by
  unfold Clip.filterAbove at hf
  split at hf
  · rename_i x hx
    split at hf
    · exact ⟨x, hx, List.mem_singleton.mp hf⟩
    · cases hf
  · cases hf

/-- The filters of a picture have the values that the clip lists. -/
theorem says_of_mem_videoFilters (once : c.FiltersOnce) {tm : Timing} {f : Filter}
    (hf : f ∈ c.videoFilters tm) : c.Says tm f := by
  have hlists {t : FilterType} {x : Number} (hx : c.filterValue? t = some x) : c.Lists t x :=
    (filterValue?_eq_some_iff once).mp hx
  simp only [Clip.videoFilters, List.mem_append, or_assoc] at hf
  rcases hf with hf | hf | hf | hf | hf | hf | hf | hf | hf | hf
  · rcases List.mem_pair.mp hf with rfl | rfl
    · exact ⟨rfl, rfl⟩
    · trivial
  · split at hf
    · cases hf
    · rw [List.mem_singleton.mp hf]
      rfl
  · split at hf
    · cases hf
    · rw [List.mem_singleton.mp hf]
      refine ⟨tones_kinds once, fun s hs => ?_⟩
      rw [tones_eq] at hs
      obtain ⟨kind, -, hkind⟩ := List.mem_filterMap.mp hs
      obtain ⟨x, hx, rfl⟩ := Option.map_eq_some_iff.mp hkind
      exact hlists hx
  · obtain ⟨x, hx, rfl⟩ := mem_filterFor hf
    exact hlists hx
  · obtain ⟨x, hx, rfl⟩ := mem_filterAbove hf
    exact hlists hx
  · obtain ⟨x, hx, rfl⟩ := mem_filterAbove hf
    exact hlists hx
  · obtain ⟨x, -, rfl⟩ := mem_filterFor hf
    trivial
  · obtain ⟨x, -, rfl⟩ := mem_filterFor hf
    trivial
  · obtain ⟨k, hk, rfl⟩ := Option.map_eq_some_iff.mp (Option.mem_toList.mp hf)
    exact hk
  · obtain ⟨s, hs, rfl⟩ := Option.map_eq_some_iff.mp (Option.mem_toList.mp hf)
    exact ⟨s.oneSide, hs⟩

end Steps

/-! ### Pictures of a plan -/

/-- Drawing is no step of the picture itself. -/
theorem pictureStep?_drawn {k : Compiler} {clip : Nat} {o : Overlay × Nat} :
    (k.drawn clip o).1.pictureStep? = none := by
  unfold Compiler.drawn
  split <;> rfl

/-- **The order of filters and defaults written out do not matter, and a plan has an order of its
own.**  Two timelines that differ in nothing else pass the check together and have the same plan, or
neither has one.  A picture that comes from a file goes through the steps that its clip asks for, in the
order of `PictureStep.all`, each with the values of the clip, and only then onto the canvas; a black picture
stands for a file without one, and goes through no step. -/
theorem filters_in_order (k : Compiler) (assets : Assets) {t u : Timeline}
    (same : t.SameButFilters u) :
    (t.check k.rounding = .ok () ↔ u.check k.rounding = .ok ()) ∧
    (∀ p, k.compile t assets = .ok p ↔ k.compile u assets = .ok p) ∧
    ∀ p, k.compile t assets = .ok p → ∀ (i : Nat) (c : Clip) (a : Asset), t.clips[i]? = some c →
      assets c.source.key = some a →
      (c.isShown a = true → ∃ before, filtersTo (.clipVideo i) p.chains =
          before ++ (k.defaults.under t.settings).canvas ++
            (c.overlays.zipIdx.map (k.drawn i)).map Prod.fst ∧
        before.map Filter.pictureStep? = (PictureStep.all.filter c.asksFor).map some ∧
        ∀ f ∈ before, c.Says ⟨c.start, k.finishOf c a, c.speed⟩ f) ∧
      (c.isShown a = false → filtersTo (.clipVideo i) p.chains =
          (k.defaults.under t.settings).blackFrame (k.lengthOf c a) ++
            (c.overlays.zipIdx.map (k.drawn i)).map Prod.fst ∧
        ∀ f ∈ filtersTo (.clipVideo i) p.chains, f.pictureStep? = none) := by
  refine ⟨same.check_iff, compile_of_sameButFilters same, fun p hp i c a hc ha => ?_⟩
  have hcheck := clips_checked (compile_eq_ok_iff.mp hp).1 c
    (List.mem_append_left _ (List.mem_of_getElem? hc))
  have once := filtersOnce_of_check hcheck
  obtain ⟨clips, soundtrack, hs, rfl⟩ := exists_sectionsOf hp
  refine ⟨fun shown => ⟨c.videoFilters ⟨c.start, k.finishOf c a, c.speed⟩, ?_,
    steps_videoFilters once _, fun f hf => says_of_mem_videoFilters once hf⟩, fun hidden => ?_⟩
  · rw [hs.picture_filters hc ha, Compiler.pictureFilters, if_pos shown]
  · have hblack : filtersTo (.clipVideo i) (k.planOf t clips soundtrack).chains =
        (k.defaults.under t.settings).blackFrame (k.lengthOf c a) ++
          (c.overlays.zipIdx.map (k.drawn i)).map Prod.fst := by
      rw [hs.picture_filters hc ha, Compiler.pictureFilters, if_neg (by simp [hidden])]
    refine ⟨hblack, fun f hf => ?_⟩
    rw [hblack] at hf
    rcases List.mem_append.mp hf with hf | hf
    · simp only [Defaults.blackFrame, List.mem_cons, List.not_mem_nil, or_false] at hf
      rcases hf with rfl | rfl | rfl <;> rfl
    · obtain ⟨d, hd, rfl⟩ := List.mem_map.mp hf
      obtain ⟨o, -, rfl⟩ := List.mem_map.mp hd
      exact pictureStep?_drawn

namespace Sample

/-- One clip with filters. -/
def look (fs : List VisualFilter) : Timeline :=
  { clips := [{ Clip.whole (file "beach.mp4") .video (.finite 1) with visualFilters := fs }]
    settings := .unset
    soundtrack := []
    soundtrack_audio := noSoundtrack }

/-- A blur that takes the value of its own, a hue and a contrast. -/
def tint : List VisualFilter :=
  [⟨.blur, none⟩, ⟨.hue, some (.finite 90)⟩, ⟨.contrast, some (.finite (6 / 5))⟩]

/-- The same in another order, with the value of the blur written out. -/
def tintInOrder : List VisualFilter :=
  [⟨.contrast, some (.finite (6 / 5))⟩, ⟨.hue, some (.finite 90)⟩, ⟨.blur, some (.finite 2)⟩]

end Sample

theorem filters_in_order_sample :
    (Sample.look Sample.tint).SameButFilters (Sample.look Sample.tintInOrder) ∧
    ∃ p, Compiler.standard.compile (Sample.look Sample.tint) (Sample.files 8 true) = .ok p ∧
      Compiler.standard.compile (Sample.look Sample.tintInOrder) (Sample.files 8 true) = .ok p ∧
      ∃ before, filtersTo (.clipVideo 0) p.chains =
          before ++ Compiler.standard.defaults.canvas ∧
        before.map Filter.pictureStep? =
          [some .trim, some .reset, some .tone, some .hue, some .blur] := by
  have same : (Sample.look Sample.tint).SameButFilters (Sample.look Sample.tintInOrder) :=
    ⟨.cons ⟨Sample.tintInOrder, (by decide +kernel : SameFilters Sample.tint Sample.tintInOrder),
      rfl⟩ .nil, .nil, rfl⟩
  obtain ⟨p, hp⟩ : ∃ p, Compiler.standard.compile (Sample.look Sample.tint)
      (Sample.files 8 true) = .ok p :=
    exists_plan (by decide +kernel) (by decide +kernel) (by decide +kernel) (by decide +kernel)
  obtain ⟨-, hplans, hpictures⟩ := filters_in_order .standard (Sample.files 8 true) same
  obtain ⟨hshown, -⟩ := hpictures p hp 0 _ _ rfl rfl
  obtain ⟨before, hfilters, hsteps, -⟩ := hshown rfl
  refine ⟨same, p, hp, (hplans p).mp hp, before, ?_, hsteps⟩
  rw [hfilters]
  exact List.append_nil _

end Montage
