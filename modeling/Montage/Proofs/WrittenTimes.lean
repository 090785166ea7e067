import Montage.Proofs.FiniteNumbers
import Montage.Proofs.ReadFilters
import Montage.Proofs.Shares

/-! # Ranges, lengths and windows in a graph

What a compiled plan says about time it says for its clips and for the items of the soundtrack
(`mem_times_iff`).  A clip that shows or plays its file is cut out of it in one range, its sound has the
length of the clip, and each overlay that ends adds a window.

The check of a timeline compares these times as they are, and the graph gives them with six places.
Two times that are different can be read as one there, and a length above nought as nought;
`times_strict_iff` says when that does not happen.
-/
namespace Montage

open Plan Number

/-! ### Filters -/

section Filters
variable {c : Clip} {tm : Timing}

/-- None of the filters says anything about time. -/
def Timeless (filters : List Filter) : Prop := ∀ f ∈ filters, f.times? = none

namespace Timeless
variable {filters more : List Filter}

theorem nil : Timeless [] := fun _ h => absurd h List.not_mem_nil

theorem cons {f : Filter} (hf : f.times? = none) (h : Timeless filters) : Timeless (f :: filters) :=
  List.forall_mem_cons.mpr ⟨hf, h⟩

theorem append (h : Timeless filters) (hmore : Timeless more) : Timeless (filters ++ more) :=
  List.forall_mem_append.mpr ⟨h, hmore⟩

theorem ite {holds : Prop} [Decidable holds] (h : Timeless filters) (hmore : Timeless more) :
    Timeless (if holds then filters else more) := by
  split
  · exact h
  · exact hmore

theorem given {α : Type} {value : Option α} {filter : α → Filter}
    (h : ∀ x, (filter x).times? = none) : Timeless (value.map filter).toList := by
  cases value with
  | none => exact nil
  | some x => exact cons (h x) nil

theorem above {t : FilterType} {filter : Number → Filter} (h : ∀ x, (filter x).times? = none) :
    Timeless (c.filterAbove t filter) := by
  unfold Clip.filterAbove
  cases c.filterValue? t with
  | none => exact nil
  | some x => exact ite (cons (h x) nil) nil

/-- Nothing is said in front of what else is said. -/
theorem times_append (h : Timeless more) :
    (filters ++ more).filterMap Filter.times? = filters.filterMap Filter.times? := by
  rw [List.filterMap_append, List.filterMap_eq_nil_iff.mpr h, List.append_nil]

end Timeless

/-- The divisor of the clock of a clip's picture. -/
def Clip.divisors (c : Clip) : List (Times Number) :=
  if Number.same c.speed (.finite 1) then [] else [.divisor c.speed]

/-- A picture is cut out of its file, and its clock goes with its speed. -/
theorem times_videoFilters (c : Clip) (tm : Timing) :
    (c.videoFilters tm).filterMap Filter.times? = .range tm.start tm.finish :: c.divisors := by
  have hspeed : (if Number.same c.speed (.finite 1) then []
      else [Filter.videoSpeed c.speed]).filterMap Filter.times? = c.divisors := by
    unfold Clip.divisors
    split <;> rfl
  unfold Clip.videoFilters
  simp only [List.append_assoc]
  -- all that stands behind the speed is about the picture alone
  rw [← List.append_assoc, Timeless.times_append, List.filterMap_append, hspeed]
  · rfl
  · exact .append (.ite .nil (.cons rfl .nil)) <| .append (.given fun _ => rfl) <|
      .append (.above fun _ => rfl) <| .append (.above fun _ => rfl) <|
      .append (.given fun _ => rfl) <| .append (.given fun _ => rfl) <|
      .append (.given fun _ => rfl) (.given fun _ => rfl)

/-- A sound is cut out of its file if it ends. -/
theorem times_audioFilters (r : Rounding) (finish : Option Number) (rate : Int) :
    (c.audioFilters r finish rate).filterMap Filter.times? =
      (finish.map (Times.range c.start ·)).toList := by
  have htempo : Timeless ((Tempo.factors r c.speed).map Filter.tempo) := by
    intro f hf
    obtain ⟨x, -, rfl⟩ := List.mem_map.mp hf
    rfl
  unfold Clip.audioFilters
  rw [Timeless.times_append (.cons rfl .nil), Timeless.times_append (.ite .nil (.cons rfl .nil)),
    Timeless.times_append htempo]
  cases finish <;> rfl

/-- The window of an overlay, if it ends. -/
def Overlay.times? (o : Overlay) : Option (Times Number) := Window.times? ⟨o.start, o.finish⟩

theorem timeless_imageFilters (o : Overlay) : Timeless o.imageFilters :=
  .append (.append (.given fun _ => rfl) (.cons rfl .nil)) (.ite (.cons rfl .nil) .nil)

theorem times_atLeastOne (filters : List Filter) :
    (atLeastOne filters).filterMap Filter.times? = filters.filterMap Filter.times? := by
  unfold atLeastOne
  split
  · rename_i h
    rw [List.isEmpty_iff.mp h]
    rfl
  · rfl

/-- **Every overlay adds its window** to what is said of a picture. -/
theorem times_layers {k : Compiler} {clip index next : Nat} {inputs : List Label}
    {filters : List Filter} {os : List Overlay} :
    (k.layers clip index next inputs filters os).flatMap Chain.times =
      filters.filterMap Filter.times? ++ os.filterMap Overlay.times? := by
  -- a text joins the filters of the chain at hand; an image closes that chain and opens one of its own
  induction os generalizing index next inputs filters with
  | nil => simp [Compiler.layers, Chain.times, times_atLeastOne]
  | cons o rest ih =>
    cases hcontent : o.content with
    | text words written source =>
      have hwindow : Filter.times? (.drawText (k.drawText o words)) = o.times? := rfl
      simp only [Compiler.layers, hcontent]
      rw [ih, List.filterMap_append, List.append_assoc]
      cases htimes : o.times? <;> simp [hwindow, htimes]
    | image source caption =>
      have hwindow : Filter.times? (.overlay o.x o.y ⟨o.start, o.finish⟩) = o.times? := rfl
      simp only [Compiler.layers, hcontent]
      rw [List.flatMap_cons, List.flatMap_cons, ih, Chain.times, Chain.times, times_atLeastOne,
        List.filterMap_eq_nil_iff.mpr (timeless_imageFilters o), List.nil_append]
      cases htimes : o.times? <;> simp [hwindow, htimes]

end Filters

/-! ### Sections -/

section Sections
variable {k : Compiler} {out : Defaults} {assets : Assets} {i n : Nat} {c : Clip} {a : Asset}
  {said : List String}

/-- What is said about time in the picture of a clip. -/
def Compiler.pictureTimes (k : Compiler) (c : Clip) (a : Asset) : List (Times Number) :=
  (if c.isShown a then .range c.start (k.finishOf c a) :: c.divisors
    else [.length (k.lengthOf c a)]) ++ c.overlays.filterMap Overlay.times?

/-- What is said about time in the sound of a clip. -/
def Compiler.soundTimes (k : Compiler) (c : Clip) (a : Asset) : List (Times Number) :=
  if a.hasAudio then
    [.range c.start (k.finishOf c a), .length (k.lengthOf c a), .length (k.lengthOf c a)]
  else [.length (k.lengthOf c a)]

theorem times_audioChain {r : Rounding} {tm : Timing} {rate : Int} :
    (c.audioChain r i a tm n rate).times =
      if a.hasAudio then
        [.range c.start tm.finish, .length (tm.duration r), .length (tm.duration r)]
      else [.length (tm.duration r)] := by
  unfold Clip.audioChain
  split
  · rw [Chain.times, List.filterMap_append, times_audioFilters]
    rfl
  · rfl

/-- The chains of a clip's picture. -/
def Compiler.pictureChains (k : Compiler) (out : Defaults) (i n : Nat) (c : Clip) (a : Asset) :
    List (Chain Label Filter) :=
  k.layers i 0 (n + 1) (if c.isShown a then [.stream n .video] else [])
    (if c.isShown a then c.videoFilters ⟨c.start, k.finishOf c a, c.speed⟩ ++ out.canvas
      else out.blackFrame (k.lengthOf c a)) c.overlays

theorem times_pictureChains :
    (k.pictureChains out i n c a).flatMap Chain.times = k.pictureTimes c a := by
  have hcanvas : Timeless out.canvas :=
    .cons rfl (.cons rfl (.cons rfl (.cons rfl (.cons rfl .nil))))
  rw [Compiler.pictureChains, times_layers, Compiler.pictureTimes]
  split
  · rw [hcanvas.times_append, times_videoFilters]
  · rfl

theorem clipPart_chains :
    (k.clipPart out assets i n c a ⟨c.start, k.finishOf c a, c.speed⟩ said).stage.chains =
      k.pictureChains out i n c a ++
        [c.audioChain k.rounding i a ⟨c.start, k.finishOf c a, c.speed⟩ n out.sampleRate] := rfl

/-- What is said about time for a clip. -/
theorem forall_clipPart_times_iff {P : Times Number → Prop} :
    (∀ ch ∈ (k.clipPart out assets i n c a ⟨c.start, k.finishOf c a, c.speed⟩ said).stage.chains,
      ∀ m ∈ ch.times, P m) ↔ ∀ m ∈ k.pictureTimes c a ++ k.soundTimes c a, P m := by
  have hsound : (c.audioChain k.rounding i a ⟨c.start, k.finishOf c a, c.speed⟩ n
      out.sampleRate).times = k.soundTimes c a := times_audioChain
  rw [clipPart_chains, ← List.forall_mem_flatMap, List.flatMap_append, times_pictureChains,
    List.flatMap_singleton, hsound]

/-- What is said about time for an item of the soundtrack. -/
theorem forall_soundtrackPart_times_iff {P : Times Number → Prop} :
    (∀ ch ∈ (k.soundtrackPart out i n c a).stage.chains, ∀ m ∈ ch.times, P m) ↔
      ∀ e, c.requestedEnd? k.rounding = some e → P (.range c.start e) := by
  rw [Compiler.soundtrackPart, List.forall_mem_singleton, Chain.times, times_audioFilters]
  cases c.requestedEnd? k.rounding <;> simp

theorem timeless_finishStages {count items : Nat} {st : Stage Label Filter}
    (h : st ∈ finishStages out count items) : ∀ ch ∈ st.chains, Timeless ch.filters := by
  simp only [finishStages, List.mem_append, List.mem_singleton] at h
  rcases h with (rfl | h) | rfl
  · unfold joinStage
    split <;> exact List.forall_mem_cons.mpr
      ⟨.cons rfl .nil, List.forall_mem_singleton.mpr (.cons rfl .nil)⟩
  · split at h
    · cases h
    · rw [List.mem_singleton.mp h]
      exact List.forall_mem_singleton.mpr (.cons rfl .nil)
  · exact fun _ h => absurd h List.not_mem_nil

end Sections

/-! ### Plans -/

section Plans
variable {k : Compiler} {t : Timeline} {assets : Assets} {p : Plan Label Filter}

/-- **All that a compiled plan says about time** it says for a clip or for an item of the
soundtrack. -/
theorem forall_times_iff (h : k.compile t assets = .ok p) {P : Times Number → Prop} :
    (∀ m ∈ p.chains.flatMap Chain.times, P m) ↔
      (∀ c ∈ t.clips, ∀ a, assets c.source.key = some a →
        ∀ m ∈ k.pictureTimes c a ++ k.soundTimes c a, P m) ∧
      ∀ c ∈ t.soundtrack, ∀ e, c.requestedEnd? k.rounding = some e → P (.range c.start e) := by
  obtain ⟨clips, soundtrack, hs, rfl⟩ := exists_sectionsOf h
  have hfinish : ∀ st ∈ finishStages (k.defaults.under t.settings) clips.length soundtrack.length,
      ∀ ch ∈ st.chains, ∀ m ∈ ch.times, P m := by
    intro st hst ch hch m hm
    rw [Chain.times, List.filterMap_eq_nil_iff.mpr (timeless_finishStages hst ch hch)] at hm
    cases hm
  rw [List.forall_mem_flatMap, forall_chains_iff, and_iff_left hfinish]
  exact and_congr (hs.forall_clips_iff fun _ _ _ _ _ _ => forall_clipPart_times_iff)
    (hs.forall_soundtrack_iff fun _ _ _ _ _ => forall_soundtrackPart_times_iff)

theorem mem_times_iff (h : k.compile t assets = .ok p) {m : Times Number} :
    m ∈ p.chains.flatMap Chain.times ↔
      (∃ c ∈ t.clips, ∃ a, assets c.source.key = some a ∧ m ∈ k.pictureTimes c a ++ k.soundTimes c a) ∨
      ∃ c ∈ t.soundtrack, ∃ e, c.requestedEnd? k.rounding = some e ∧ .range c.start e = m := by
  -- it stands there unless all that stands there is something else
  have hnone := forall_times_iff h (P := (· ≠ m))
  rw [← not_iff_not, ← List.forall_mem_ne', hnone]
  push Not
  simp only [List.forall_mem_ne']

end Plans

namespace Times
variable {α β : Type} {f : α → β} {ms : List (Times α)} {s e d : β}

theorem range_mem_map_iff :
    .range s e ∈ ms.map (map f) ↔ ∃ x y, .range x y ∈ ms ∧ f x = s ∧ f y = e := by
  constructor
  · intro h
    obtain ⟨m, hm, heq⟩ := List.mem_map.mp h
    cases m <;> cases heq
    exact ⟨_, _, hm, rfl, rfl⟩
  · rintro ⟨x, y, hm, rfl, rfl⟩
    exact List.mem_map.mpr ⟨_, hm, rfl⟩

theorem length_mem_map_iff : .length d ∈ ms.map (map f) ↔ ∃ x, .length x ∈ ms ∧ f x = d := by
  constructor
  · intro h
    obtain ⟨m, hm, heq⟩ := List.mem_map.mp h
    cases m <;> cases heq
    exact ⟨_, hm, rfl⟩
  · rintro ⟨x, hm, rfl⟩
    exact List.mem_map.mpr ⟨_, hm, rfl⟩

theorem window_mem_map_iff :
    .window s e ∈ ms.map (map f) ↔ ∃ x y, .window x y ∈ ms ∧ f x = s ∧ f y = e := by
  constructor
  · intro h
    obtain ⟨m, hm, heq⟩ := List.mem_map.mp h
    cases m <;> cases heq
    exact ⟨_, _, hm, rfl, rfl⟩
  · rintro ⟨x, y, hm, rfl, rfl⟩
    exact List.mem_map.mpr ⟨_, hm, rfl⟩

end Times

/-! ### Numbers as they are read -/

namespace Number
variable {x y : Number}

/-- Two texts are read as numbers of which the first is smaller. -/
def ReadsBelow (s e : String) : Prop :=
  ∃ p q, readPlaces? s = some p ∧ readPlaces? e = some q ∧ p < q

/-- A text is read as a number above nought. -/
def ReadsPositive (s : String) : Prop := ∃ q, readPlaces? s = some q ∧ 0 < q

theorem readPlaces?_eq_some_iff {q : ℚ} :
    readPlaces? x.sixPlaces = some q ↔ x.isFinite = true ∧ q = x.written := by
  by_cases hx : x.isFinite = true
  · rw [readPlaces?_sixPlaces hx, Option.some.injEq, eq_comm]
    exact (and_iff_right hx).symm
  · rw [readPlaces?_of_not_isFinite (by simpa using hx)]
    exact iff_of_false nofun fun h => hx h.1

theorem readsBelow_iff : ReadsBelow x.sixPlaces y.sixPlaces ↔
    x.isFinite = true ∧ y.isFinite = true ∧ x.written < y.written := by
  simp only [ReadsBelow, readPlaces?_eq_some_iff]
  constructor
  · rintro ⟨p, q, ⟨hx, rfl⟩, ⟨hy, rfl⟩, hlt⟩
    exact ⟨hx, hy, hlt⟩
  · rintro ⟨hx, hy, hlt⟩
    exact ⟨_, _, ⟨hx, rfl⟩, ⟨hy, rfl⟩, hlt⟩

/-- What is half a millionth or less is not read as more than nought. -/
theorem readsPositive_iff :
    ReadsPositive x.sixPlaces ↔ x.isFinite = true ∧ 1 / 2000000 < x.rat := by
  simp only [ReadsPositive, readPlaces?_eq_some_iff]
  constructor
  · rintro ⟨q, ⟨hx, rfl⟩, hpos⟩
    exact ⟨hx, written_pos_iff.mp hpos⟩
  · rintro ⟨hx, hpos⟩
    exact ⟨_, ⟨hx, rfl⟩, written_pos_iff.mpr hpos⟩

end Number

/-! ### What six places leave of the check -/

section Order
variable {k : Compiler} {t : Timeline} {assets : Assets} {p : Plan Label Filter}

theorem mem_divisors_iff {c : Clip} {m : Times Number} :
    m ∈ c.divisors ↔ Number.same c.speed (.finite 1) = false ∧ m = .divisor c.speed := by
  unfold Clip.divisors
  split <;> simp_all

theorem Overlay.times?_eq_some_iff {o : Overlay} {m : Times Number} :
    o.times? = some m ↔ ∃ e, o.finish = some e ∧ .window o.start e = m :=
  Option.map_eq_some_iff

section Clips
variable {c : Clip} {a : Asset} {x y d : Number}

/-- A picture and a sound that come from a file are cut out of it in the same range. -/
theorem range_mem_iff : .range x y ∈ k.pictureTimes c a ++ k.soundTimes c a ↔
    (c.isShown a || a.hasAudio) = true ∧ x = c.start ∧ y = k.finishOf c a := by
  unfold Compiler.pictureTimes Compiler.soundTimes
  cases c.isShown a <;> cases a.hasAudio <;> simp [mem_divisors_iff, Overlay.times?_eq_some_iff]

/-- A sound has the length of its clip, and so has a black picture. -/
theorem length_mem_iff : .length d ∈ k.pictureTimes c a ++ k.soundTimes c a ↔ d = k.lengthOf c a := by
  unfold Compiler.pictureTimes Compiler.soundTimes
  cases c.isShown a <;> cases a.hasAudio <;> simp [mem_divisors_iff, Overlay.times?_eq_some_iff]

/-- The windows of a clip are those of its overlays that end. -/
theorem window_mem_iff : .window x y ∈ k.pictureTimes c a ++ k.soundTimes c a ↔
    ∃ o ∈ c.overlays, o.finish = some y ∧ o.start = x := by
  unfold Compiler.pictureTimes Compiler.soundTimes
  cases c.isShown a <;> cases a.hasAudio <;> simp [mem_divisors_iff, Overlay.times?_eq_some_iff, and_comm]

end Clips

/-- What a plan says about time, as it is written. -/
def Plan.writtenTimes (p : Plan Label Filter) : List (Times String) :=
  (p.chains.flatMap Chain.times).map (Times.map sixPlaces)

/-- **Which ranges are read**: those of clips with a picture or a sound from a file, and those of the
items of the soundtrack that end. -/
theorem range_mem_writtenTimes_iff (h : k.compile t assets = .ok p) {s e : String} :
    .range s e ∈ p.writtenTimes ↔
      (∃ c ∈ t.clips, ∃ a, assets c.source.key = some a ∧ (c.isShown a || a.hasAudio) = true ∧
        c.start.sixPlaces = s ∧ (k.finishOf c a).sixPlaces = e) ∨
      ∃ c ∈ t.soundtrack, ∃ f, c.requestedEnd? k.rounding = some f ∧
        c.start.sixPlaces = s ∧ f.sixPlaces = e := by
  simp only [Plan.writtenTimes, Times.range_mem_map_iff, mem_times_iff h, range_mem_iff]
  constructor
  · rintro ⟨_, _, ⟨c, hc, a, ha, hcut, rfl, rfl⟩ | ⟨c, hc, f, hf, heq⟩, hs, he⟩
    · exact Or.inl ⟨c, hc, a, ha, hcut, hs, he⟩
    · cases heq
      exact Or.inr ⟨c, hc, _, hf, hs, he⟩
  · rintro (⟨c, hc, a, ha, hcut, hs, he⟩ | ⟨c, hc, f, hf, hs, he⟩)
    · exact ⟨_, _, Or.inl ⟨c, hc, a, ha, hcut, rfl, rfl⟩, hs, he⟩
    · exact ⟨_, _, Or.inr ⟨c, hc, f, hf, rfl⟩, hs, he⟩

/-- **Which lengths are read**: those of the clips. -/
theorem length_mem_writtenTimes_iff (h : k.compile t assets = .ok p) {d : String} :
    .length d ∈ p.writtenTimes ↔
      ∃ c ∈ t.clips, ∃ a, assets c.source.key = some a ∧ (k.lengthOf c a).sixPlaces = d := by
  simp only [Plan.writtenTimes, Times.length_mem_map_iff, mem_times_iff h, length_mem_iff]
  constructor
  · rintro ⟨_, ⟨c, hc, a, ha, rfl⟩ | ⟨c, hc, f, hf, ⟨⟩⟩, hd⟩
    exact ⟨c, hc, a, ha, hd⟩
  · rintro ⟨c, hc, a, ha, hd⟩
    exact ⟨_, Or.inl ⟨c, hc, a, ha, rfl⟩, hd⟩

/-- **Which windows are read**: those of the overlays that end. -/
theorem window_mem_writtenTimes_iff (h : k.compile t assets = .ok p) {s e : String} :
    .window s e ∈ p.writtenTimes ↔ ∃ c ∈ t.clips, ∃ o ∈ c.overlays, ∃ f, o.finish = some f ∧
      o.start.sixPlaces = s ∧ f.sixPlaces = e := by
  simp only [Plan.writtenTimes, Times.window_mem_map_iff, mem_times_iff h, window_mem_iff]
  constructor
  · rintro ⟨_, _, ⟨c, hc, a, ha, o, ho, hf, rfl⟩ | ⟨c, hc, f, hf, ⟨⟩⟩, hs, he⟩
    exact ⟨c, hc, o, ho, _, hf, hs, he⟩
  · rintro ⟨c, hc, o, ho, f, hf, hs, he⟩
    -- a plan was compiled, so the file of the clip was found
    have hmention : c.source ∈ t.mentions := List.mem_flatMap.mpr
      ⟨c, List.mem_append_left _ hc, List.mem_cons_self⟩
    obtain ⟨a, ha⟩ := (needAll_eq_ok_iff.mp (compile_eq_ok_iff.mp h).2.1 _ hmention).exists
    exact ⟨_, _, Or.inl ⟨c, hc, a, ha, o, ho, hf, rfl⟩, hs, he⟩

/-- **Ranges are not empty** if and only if the ends of those of clips and items are read as later
than their starts. -/
theorem forall_ranges_iff (h : k.compile t assets = .ok p) :
    (∀ s e, .range s e ∈ p.writtenTimes → ReadsBelow s e) ↔
      (∀ c ∈ t.clips, ∀ a, assets c.source.key = some a → (c.isShown a || a.hasAudio) = true →
        (k.finishOf c a).isFinite = true ∧ c.start.written < (k.finishOf c a).written) ∧
      ∀ c ∈ t.soundtrack, ∀ e, c.requestedEnd? k.rounding = some e →
        e.isFinite = true ∧ c.start.written < e.written := by
  have hfinite := Timeline.isFinite_of_check (compile_eq_ok_iff.mp h).1
  constructor
  · intro hall
    refine ⟨fun c hc a ha hcut => ?_, fun c hc e he => ?_⟩
    · have hmem := (range_mem_writtenTimes_iff h).mpr (Or.inl ⟨c, hc, a, ha, hcut, rfl, rfl⟩)
      exact (readsBelow_iff.mp (hall _ _ hmem)).2
    · have hmem := (range_mem_writtenTimes_iff h).mpr (Or.inr ⟨c, hc, e, he, rfl, rfl⟩)
      exact (readsBelow_iff.mp (hall _ _ hmem)).2
  · rintro ⟨hclips, hitems⟩ s e hmem
    rcases (range_mem_writtenTimes_iff h).mp hmem with
      ⟨c, hc, a, ha, hcut, rfl, rfl⟩ | ⟨c, hc, f, hf, rfl, rfl⟩
    · exact readsBelow_iff.mpr
        ⟨(hfinite c (List.mem_append_left _ hc)).start.1, hclips c hc a ha hcut⟩
    · exact readsBelow_iff.mpr
        ⟨(hfinite c (List.mem_append_right _ hc)).start.1, hitems c hc f hf⟩

/-- **Lengths are above nought** if and only if those of all clips are above half a millionth. -/
theorem forall_lengths_iff (h : k.compile t assets = .ok p) :
    (∀ d, .length d ∈ p.writtenTimes → ReadsPositive d) ↔
      ∀ c ∈ t.clips, ∀ a, assets c.source.key = some a →
        (k.lengthOf c a).isFinite = true ∧ 1 / 2000000 < (k.lengthOf c a).rat := by
  constructor
  · intro hall c hc a ha
    exact readsPositive_iff.mp (hall _ ((length_mem_writtenTimes_iff h).mpr ⟨c, hc, a, ha, rfl⟩))
  · intro hclips d hmem
    obtain ⟨c, hc, a, ha, rfl⟩ := (length_mem_writtenTimes_iff h).mp hmem
    exact readsPositive_iff.mpr (hclips c hc a ha)

theorem overlay_isFinite (h : k.compile t assets = .ok p) {c : Clip} (hc : c ∈ t.clips) :
    ∀ o ∈ c.overlays, o.IsFinite :=
  (Timeline.isFinite_of_check (compile_eq_ok_iff.mp h).1 c (List.mem_append_left _ hc)).overlays

/-- **Windows are not empty** if and only if the ends of all overlays are read as later than their
starts. -/
theorem forall_windows_iff (h : k.compile t assets = .ok p) :
    (∀ s e, .window s e ∈ p.writtenTimes → ReadsBelow s e) ↔
      ∀ c ∈ t.clips, ∀ o ∈ c.overlays, ∀ e, o.finish = some e → o.start.written < e.written := by
  constructor
  · intro hall c hc o ho e he
    have hmem := (window_mem_writtenTimes_iff h).mpr ⟨c, hc, o, ho, e, he, rfl, rfl⟩
    exact (readsBelow_iff.mp (hall _ _ hmem)).2.2
  · intro hoverlays s e hmem
    obtain ⟨c, hc, o, ho, f, hf, rfl, rfl⟩ := (window_mem_writtenTimes_iff h).mp hmem
    have hfinite := overlay_isFinite h hc o ho
    exact readsBelow_iff.mpr ⟨hfinite.start, hfinite.finish f hf, hoverlays c hc o ho f hf⟩

/-- A window that ends never ends before it starts. -/
theorem windows_ordered (h : k.compile t assets = .ok p) {s e : String}
    (hmem : .window s e ∈ p.writtenTimes) :
    ∃ x y, readPlaces? s = some x ∧ readPlaces? e = some y ∧ x ≤ y := by
  obtain ⟨c, hc, o, ho, f, hf, rfl, rfl⟩ := (window_mem_writtenTimes_iff h).mp hmem
  have hfinite := overlay_isFinite h hc o ho
  have hlt : o.start.rat < f.rat := by
    have hcheck := overlays_checked (compile_eq_ok_iff.mp h).1 hc o ho
    simp only [Overlay.check, andThen_eq_ok_iff, ifGiven_eq_ok_iff, ensure_eq_ok_iff] at hcheck
    obtain ⟨-, hwindow⟩ := Bool.and_eq_true_iff.mp (hcheck.2.1 f hf)
    rw [le_of_isFinite (hfinite.finish f hf) hfinite.start] at hwindow
    simpa using hwindow
  exact ⟨_, _, readPlaces?_sixPlaces hfinite.start, readPlaces?_sixPlaces (hfinite.finish f hf),
    written_mono hlt.le⟩

end Order

/-- What the check compares is more than a millionth apart, and every clip is longer than half a
millionth. -/
structure Compiler.Clear (k : Compiler) (t : Timeline) (assets : Assets) : Prop where
  clips : ∀ c ∈ t.clips, ∀ a, assets c.source.key = some a →
    (k.finishOf c a).isFinite = true ∧ c.start.rat + 1 / 1000000 < (k.finishOf c a).rat ∧
    (k.lengthOf c a).isFinite = true ∧ 1 / 2000000 < (k.lengthOf c a).rat
  soundtrack : ∀ c ∈ t.soundtrack, ∀ e, c.requestedEnd? k.rounding = some e →
    e.isFinite = true ∧ c.start.rat + 1 / 1000000 < e.rat
  overlays : ∀ c ∈ t.clips, ∀ o ∈ c.overlays, ∀ e, o.finish = some e →
    o.start.rat + 1 / 1000000 < e.rat

/-- **What is left of the order of times when they are written.**  Whoever reads the graph of a
compiled plan finds ranges, lengths and windows; every clip has its length there, and every overlay that
ends its window.  The ranges that are cut out of files are all of them
not empty if and only if the end of every clip with a picture or a sound from a file, and every end
that an item of the soundtrack asks for, is a number that is read as larger than the start.  The
lengths are above nought if and only if every clip is longer than half a millionth.  The windows are
not empty if and only if the end of every overlay is read as larger than its start; and it is never
read as smaller.

So all of this holds if the ends are more than a millionth behind the starts and the clips longer than
half a millionth.  The check asks for less: it lets pass every end that is larger than the start. -/
theorem times_strict_iff (k : Compiler) (t : Timeline) (assets : Assets) (p : Plan Label Filter)
    (h : k.compile t assets = .ok p) :
    ∃ times, (readGraph? p.toText.graph).map (List.flatMap Chain.readTimes) = some times ∧
      (∀ c ∈ t.clips, ∀ a, assets c.source.key = some a →
        .length (k.lengthOf c a).sixPlaces ∈ times ∧
        ∀ o ∈ c.overlays, ∀ e, o.finish = some e →
          .window o.start.sixPlaces e.sixPlaces ∈ times) ∧
      ((∀ s e, .range s e ∈ times → ReadsBelow s e) ↔
        (∀ c ∈ t.clips, ∀ a, assets c.source.key = some a → (c.isShown a || a.hasAudio) = true →
          (k.finishOf c a).isFinite = true ∧ c.start.written < (k.finishOf c a).written) ∧
        ∀ c ∈ t.soundtrack, ∀ e, c.requestedEnd? k.rounding = some e →
          e.isFinite = true ∧ c.start.written < e.written) ∧
      ((∀ d, .length d ∈ times → ReadsPositive d) ↔
        ∀ c ∈ t.clips, ∀ a, assets c.source.key = some a →
          (k.lengthOf c a).isFinite = true ∧ 1 / 2000000 < (k.lengthOf c a).rat) ∧
      ((∀ s e, .window s e ∈ times → ReadsBelow s e) ↔
        ∀ c ∈ t.clips, ∀ o ∈ c.overlays, ∀ e, o.finish = some e → o.start.written < e.written) ∧
      (∀ s e, .window s e ∈ times →
        ∃ x y, readPlaces? s = some x ∧ readPlaces? e = some y ∧ x ≤ y) ∧
      (k.Clear t assets → (∀ s e, .range s e ∈ times ∨ .window s e ∈ times → ReadsBelow s e) ∧
        ∀ d, .length d ∈ times → ReadsPositive d) := by
  refine ⟨p.writtenTimes, readTimes_of_compile h, fun c hc a ha => ⟨?_, fun o ho e he => ?_⟩,
    forall_ranges_iff h, forall_lengths_iff h, forall_windows_iff h, fun s e => windows_ordered h,
    fun clear => ⟨fun s e hmem => ?_, ?_⟩⟩
  · exact (length_mem_writtenTimes_iff h).mpr ⟨c, hc, a, ha, rfl⟩
  · exact (window_mem_writtenTimes_iff h).mpr ⟨c, hc, o, ho, e, he, rfl, rfl⟩
  · rcases hmem with hmem | hmem
    · refine (forall_ranges_iff h).mpr ⟨fun c hc a ha _ => ?_, fun c hc e he => ?_⟩ s e hmem
      · obtain ⟨hfinish, hlt, -⟩ := clear.clips c hc a ha
        exact ⟨hfinish, written_lt_written hlt⟩
      · obtain ⟨hfinish, hlt⟩ := clear.soundtrack c hc e he
        exact ⟨hfinish, written_lt_written hlt⟩
    · exact (forall_windows_iff h).mpr
        (fun c hc o ho e he => written_lt_written (clear.overlays c hc o ho e he)) s e hmem
  · exact (forall_lengths_iff h).mpr fun c hc a ha => (clear.clips c hc a ha).2.2

theorem times_strict_iff_sample : ∃ p times,
    Compiler.standard.compile Sample.timeline (Sample.files 8 true) = .ok p ∧
      (readGraph? p.toText.graph).map (List.flatMap Chain.readTimes) = some times ∧
      (∀ s e, .range s e ∈ times ∨ .window s e ∈ times → ReadsBelow s e) ∧
      ∀ d, .length d ∈ times → ReadsPositive d := by
  obtain ⟨p, h⟩ := Sample.exists_plan
  obtain ⟨times, hread, -, -, -, -, -, hclear⟩ :=
    times_strict_iff Compiler.standard Sample.timeline (Sample.files 8 true) p h
  have hclips : ∀ c ∈ Sample.timeline.clips, ((Sample.files 8 true c.source.key).all fun a =>
      (Compiler.standard.finishOf c a).isFinite &&
        decide (c.start.rat + 1 / 1000000 < (Compiler.standard.finishOf c a).rat) &&
        (Compiler.standard.lengthOf c a).isFinite &&
        decide (1 / 2000000 < (Compiler.standard.lengthOf c a).rat)) = true := by decide +kernel
  refine ⟨p, times, h, hread, hclear ⟨fun c hc a ha => ?_, ?_, ?_⟩⟩
  · have hclip := hclips c hc
    rw [ha] at hclip
    simpa [and_assoc] using hclip
  · intro c hc e he
    have hnone : ∀ c ∈ Sample.timeline.soundtrack,
        c.requestedEnd? Compiler.standard.rounding = none := by decide
    cases (hnone c hc).symm.trans he
  · intro c hc o ho e he
    have hall : ∀ c ∈ Sample.timeline.clips, ∀ o ∈ c.overlays,
        (o.finish.all fun e => decide (o.start.rat + 1 / 1000000 < e.rat)) = true := by
      decide +kernel
    have hoverlay := hall c hc o ho
    rw [he] at hoverlay
    exact of_decide_eq_true hoverlay

/-- A clip of a tenth of a millionth, and a text that is shown as long. -/
def Sample.blink : Timeline :=
  { film with
    clips :=
      [{ Clip.whole (file "beach.mp4") .video (.finite 1) with
          trim := some ⟨.finite 1, some (Number.ofDecimal false 10000001 (-7)), none⟩
          overlays :=
            [{ title with
                start := .finite 1, finish := some (Number.ofDecimal false 10000001 (-7)) }] }] }

/-- A clip and an overlay that pass the check are empty in the graph. -/
theorem blink_is_empty : ∃ p,
    Compiler.standard.compile Sample.blink (Sample.files 8 true) = .ok p ∧
      (readGraph? p.toText.graph).map (List.flatMap Chain.readTimes) =
        some [.range "1" "1", .window "1" "1", .range "1" "1", .length "0", .length "0"] ∧
      ¬ ReadsBelow "1" "1" ∧ ¬ ReadsPositive "0" := by
  have hwritten : (Compiler.standard.compile Sample.blink (Sample.files 8 true)).toOption.map
      Plan.writtenTimes = some [.range "1" "1", .window "1" "1", .range "1" "1", .length "0",
        .length "0"] := by decide +kernel
  have hbelow : ¬ ReadsBelow "1" "1" := by
    rintro ⟨x, y, hx, hy, hlt⟩
    exact hlt.ne (Option.some.inj (hx.symm.trans hy))
  have hpositive : ¬ ReadsPositive "0" := by
    rintro ⟨q, hq, hpos⟩
    have hzero : readPlaces? "0" = some 0 := by decide +kernel
    exact hpos.ne (Option.some.inj (hzero.symm.trans hq))
  cases h : Compiler.standard.compile Sample.blink (Sample.files 8 true) with
  | error f =>
    rw [h] at hwritten
    cases hwritten
  | ok p =>
    rw [h] at hwritten
    refine ⟨p, rfl, ?_, hbelow, hpositive⟩
    rw [← hwritten]
    exact readTimes_of_compile h

end Montage
