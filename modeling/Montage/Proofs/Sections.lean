import Montage.Proofs.Fetched

/-! # What a clip adds to a plan

The compiler goes through the overlays of a clip, through the clips, and through the items of
the soundtrack, and counts two things on its way: the position in the list, which goes into the
labels, and the input files so far, which go into the stream labels.  This module says what comes
out of each of these passes once all files are there.

* The chains of the overlays do not depend on the files at all (`Compiler.layers`,
  `overlayChains_of_fetched`).
* The stage of a clip is known from its position, the number of its input and its own file
  (`Compiler.clipPart`); making it fails only for a start past the end of the file
  (`clipSection_of_fetched`).
* The section at position `i` was made with the count of the input files of the sections before
  it (`sectionsFrom_getElem`).
-/
namespace Montage

/-! ### Files -/

/-- The image that an overlay draws, if it draws one. -/
def Overlay.image? (o : Overlay) : Option MediaSource :=
  match o.content with
  | .text .. => none
  | .image s _ => some s

/-- The images among some overlays. -/
def imagesOf (overlays : List Overlay) : List MediaSource := overlays.filterMap Overlay.image?

section Images
variable {o : Overlay} {rest : List Overlay}

theorem image?_of_image {s : MediaSource} {caption : Option String}
    (h : o.content = .image s caption) : o.image? = some s := by rw [Overlay.image?, h]

theorem imagesOf_cons_text {words : String} {written : words.isEmpty = false}
    {source : Option MediaSource} (h : o.content = .text words written source) :
    imagesOf (o :: rest) = imagesOf rest :=
  List.filterMap_cons_none (by rw [Overlay.image?, h])

theorem imagesOf_cons_image {s : MediaSource} {caption : Option String}
    (h : o.content = .image s caption) : imagesOf (o :: rest) = s :: imagesOf rest :=
  List.filterMap_cons_some (image?_of_image h)

end Images

/-- The files that become inputs for a clip: its own, then those of its images. -/
def Clip.inputSources (c : Clip) : List MediaSource := c.source :: imagesOf c.overlays

/-- The input that the file of a source becomes. -/
def inputOf? (assets : Assets) (s : MediaSource) : Option EngineInput :=
  (assets s.key).map fun a => ⟨a.path, []⟩

theorem filterMap_inputOf? {assets : Assets} {sources : List MediaSource}
    (h : ∀ s ∈ sources, Fetched assets s) :
    (sources.filterMap (inputOf? assets)).map some = sources.map (inputOf? assets) := by
  induction sources with
  | nil => rfl
  | cons s rest ih =>
    obtain ⟨a, ha⟩ := (h s (List.mem_cons_self ..)).exists
    have hs : inputOf? assets s = some ⟨a.path, []⟩ := by rw [inputOf?, ha]; rfl
    rw [List.filterMap_cons_some hs, List.map_cons, List.map_cons, hs,
      ih fun s' hs' => h s' (List.mem_cons_of_mem _ hs')]

/-! ### Overlays -/

/-- The chains from a picture through the overlays to the clip's picture. -/
def Compiler.layers (k : Compiler) (clip index next : Nat) (inputs : List Label)
    (filters : List Filter) : List Overlay → List (Chain Label Filter)
  | [] => [⟨inputs, atLeastOne filters, .clipVideo clip⟩]
  | o :: rest =>
    match o.content with
    | .text words _ _ =>
      k.layers clip (index + 1) next inputs (filters ++ [.drawText (k.drawText o words)]) rest
    | .image _ _ =>
      ⟨inputs, atLeastOne filters, .base clip index⟩ ::
        ⟨[.stream next .video], o.imageFilters, .image clip index⟩ ::
        k.layers clip (index + 1) (next + 1) [.base clip index, .image clip index]
          [.overlay o.x o.y ⟨o.start, o.finish⟩] rest

variable {k : Compiler} {out : Defaults} {assets : Assets}

/-- With their images there, overlays need nothing more from the files. -/
theorem overlayChains_of_fetched {clip index next : Nat} {inputs : List Label}
    {filters : List Filter} {os : List Overlay} (h : ∀ s ∈ imagesOf os, Fetched assets s) :
    k.overlayChains assets clip index next inputs filters os =
      .ok (k.layers clip index next inputs filters os,
        (imagesOf os).filterMap (inputOf? assets)) := by
  induction os generalizing index next inputs filters with
  | nil => rfl
  | cons o rest ih =>
    cases ho : o.content with
    | text words written source =>
      rw [imagesOf_cons_text ho] at h ⊢
      simp only [Compiler.overlayChains, Compiler.layers, ho]
      exact ih h
    | image source caption =>
      rw [imagesOf_cons_image ho] at h ⊢
      obtain ⟨a, ha⟩ := (h source (List.mem_cons_self ..)).exists
      have hin : inputOf? assets source = some ⟨a.path, []⟩ := by rw [inputOf?, ha]; rfl
      simp only [Compiler.overlayChains, Compiler.layers, ho, need_eq_ok_iff.mpr ha,
        ih fun s hs => h s (List.mem_cons_of_mem _ hs), List.filterMap_cons_some hin]

/-! ### Clips -/

/-- The clip starts at the end of its file or later, as far as the length of the file is known. -/
def Clip.StartsPastEnd (c : Clip) (a : Asset) : Prop :=
  ∃ d, a.duration = some d ∧ Number.le d c.start = true

instance (c : Clip) (a : Asset) : Decidable (c.StartsPastEnd a) :=
  inferInstanceAs (Decidable (∃ d ∈ a.duration, Number.le d c.start = true))

/-- The range of a clip is refused only for a start past the end. -/
theorem timing_eq_error_iff {index : Nat} {c : Clip} {a : Asset} {f : CompileFault} :
    k.timing index c a = .error f ↔
      ∃ d, a.duration = some d ∧ Number.le d c.start = true ∧
        f = .startPastEnd index c.start d := by
  unfold Compiler.timing
  constructor
  · intro h
    split at h
    · rename_i d hd
      split at h
      · rename_i hle
        cases h
        exact ⟨d, hd, hle, rfl⟩
      · cases h
    · split at h <;> cases h
  · rintro ⟨d, hd, hle, rfl⟩
    simp only [hd, hle, if_true]

/-- Whether a clip shows the picture of its file. -/
def Clip.isShown (c : Clip) (a : Asset) : Bool := c.mediaType == .video && a.hasVideo

/-- The section of a clip whose file is known. -/
def Compiler.clipPart (k : Compiler) (out : Defaults) (assets : Assets) (index next : Nat)
    (c : Clip) (a : Asset) (t : Timing) (said : List String) : Section :=
  { stage :=
      { kind := .clip, name := "clip" ++ toString index
        chains :=
          k.layers index 0 (next + 1) (if c.isShown a then [.stream next .video] else [])
            (if c.isShown a then c.videoFilters t ++ out.canvas
              else out.blackFrame (t.duration k.rounding)) c.overlays ++
          [c.audioChain k.rounding index a t next out.sampleRate]
        maps := [], options := [] }
    inputs := ⟨a.path, []⟩ :: (imagesOf c.overlays).filterMap (inputOf? assets)
    duration := t.duration k.rounding
    warnings := said ++
      (if c.mediaType == .video && !a.hasVideo then
          [clipPlace .clips index ++ ": source has no video stream, using a black frame"]
        else []) }

/-- **With its files there, a clip fails only if it starts past the end of its own.** -/
theorem clipSection_of_fetched {index next : Nat} {c : Clip} {a : Asset}
    (ha : assets c.source.key = some a) (h : ∀ s ∈ imagesOf c.overlays, Fetched assets s) :
    k.clipSection out assets index next c =
      (k.timing index c a).map fun r => k.clipPart out assets index next c a r.1 r.2 := by
  have hshown : (c.mediaType == .video && a.hasVideo) = c.isShown a := rfl
  unfold Compiler.clipSection
  rw [need_eq_ok_iff.mpr ha]
  -- what follows the timing cannot fail, as the images are there
  cases ht : k.timing index c a with
  | error f => simp only [bind, Except.bind, ht, Except.map]
  | ok r =>
    simp only [bind, Except.bind, ht, Except.map, hshown, overlayChains_of_fetched h,
      Compiler.clipPart]
    cases c.isShown a <;> rfl

/-- The section of an item of the soundtrack whose file is known. -/
def Compiler.soundtrackPart (k : Compiler) (out : Defaults) (index next : Nat) (c : Clip)
    (a : Asset) : Section :=
  { stage :=
      { kind := .soundtrack, name := "soundtrack" ++ toString index
        chains :=
          [⟨[.stream next .audio],
            c.audioFilters k.rounding (c.requestedEnd? k.rounding) out.sampleRate,
            .soundtrack index⟩]
        maps := [], options := [] }
    inputs := [⟨a.path, []⟩]
    duration := .finite 0
    warnings := [] }

/-- With its file there, an item of the soundtrack fails only if the file is silent. -/
theorem soundtrackSection_of_fetched {index next : Nat} {c : Clip} {a : Asset}
    (ha : assets c.source.key = some a) :
    k.soundtrackSection out assets index next c =
      if a.hasAudio then .ok (k.soundtrackPart out index next c a)
      else .error (.silentSoundtrack index) := by
  unfold Compiler.soundtrackSection
  rw [need_eq_ok_iff.mpr ha]
  cases h : a.hasAudio <;> simp [bind, Except.bind, ensure, h, Compiler.soundtrackPart]

/-! ### Lists of clips -/

variable {make : Nat → Nat → Clip → Except CompileFault Section}

theorem sectionsFrom_cons_eq_ok_iff {index next : Nat} {c : Clip} {rest : List Clip}
    {ss : List Section} :
    sectionsFrom make index next (c :: rest) = .ok ss ↔
      ∃ s more, make index next c = .ok s ∧
        sectionsFrom make (index + 1) (next + s.inputs.length) rest = .ok more ∧
        ss = s :: more := by
  simp only [sectionsFrom, bind_eq_ok_iff, Except.ok.injEq]
  constructor
  · rintro ⟨s, hs, more, hmore, rfl⟩
    exact ⟨s, more, hs, hmore, rfl⟩
  · rintro ⟨s, more, hs, hmore, rfl⟩
    exact ⟨s, hs, more, hmore, rfl⟩

theorem sectionsFrom_length {index next : Nat} {cs : List Clip} {ss : List Section}
    (h : sectionsFrom make index next cs = .ok ss) : ss.length = cs.length := by
  induction cs generalizing index next ss with
  | nil => cases h; rfl
  | cons c rest ih =>
    obtain ⟨s, more, -, hmore, rfl⟩ := sectionsFrom_cons_eq_ok_iff.mp h
    rw [List.length_cons, List.length_cons, ih hmore]

/-- **Each section was made from its clip, at its position, after the inputs of the sections
before it.** -/
theorem sectionsFrom_getElem {index next i : Nat} {cs : List Clip} {ss : List Section}
    {s : Section}
    (h : sectionsFrom make index next cs = .ok ss) (hs : ss[i]? = some s) :
    ∃ c, cs[i]? = some c ∧
      make (index + i) (next + ((ss.take i).flatMap Section.inputs).length) c = .ok s := by
  induction cs generalizing index next i ss with
  | nil => cases h; cases hs
  | cons c rest ih =>
    obtain ⟨first, more, hfirst, hmore, rfl⟩ := sectionsFrom_cons_eq_ok_iff.mp h
    cases i with
    | zero => cases hs; exact ⟨c, rfl, hfirst⟩
    | succ i =>
      obtain ⟨d, hd, hmake⟩ := ih hmore hs
      refine ⟨d, hd, ?_⟩
      -- counted from the second clip on, the position is one less and the first clip's inputs are
      -- already in
      rw [List.take_succ_cons, List.flatMap_cons, List.length_append, ← Nat.add_assoc next,
        ← Nat.add_assoc index, Nat.add_right_comm]
      exact hmake

/-- The fault of a list is that of a clip at its position. -/
theorem sectionsFrom_eq_error {index next : Nat} {cs : List Clip} {f : CompileFault}
    (h : sectionsFrom make index next cs = .error f) :
    ∃ i c n, cs[i]? = some c ∧ make (index + i) n c = .error f := by
  induction cs generalizing index next with
  | nil => cases h
  | cons c rest ih =>
    rcases bind_eq_error_iff.mp h with h | ⟨s, -, h⟩
    · exact ⟨0, c, next, rfl, h⟩
    · rcases bind_eq_error_iff.mp h with h | ⟨more, -, h⟩
      · obtain ⟨i, d, n, hd, hmake⟩ := ih h
        refine ⟨i + 1, d, n, hd, ?_⟩
        rw [← Nat.add_assoc, Nat.add_right_comm]
        exact hmake
      · cases h

/-- What a section owes to its clip and position alone. -/
theorem sectionsFrom_map {β : Type} {f : Section → β} {g : Clip × Nat → β} {next : Nat}
    {cs : List Clip} {ss : List Section} (h : sectionsFrom make 0 next cs = .ok ss)
    (hfg : ∀ i n c s, cs[i]? = some c → make i n c = .ok s → f s = g (c, i)) :
    ss.map f = cs.zipIdx.map g := by
  refine List.ext_getElem? fun i => ?_
  rw [List.getElem?_map, List.getElem?_map, List.getElem?_zipIdx]
  cases hs : ss[i]? with
  | some s =>
    obtain ⟨c, hc, hmake⟩ := sectionsFrom_getElem h hs
    rw [Nat.zero_add] at hmake
    simp [hc, hfg i _ c s hc hmake]
  | none =>
    have hlen : cs.length ≤ i := by
      rw [← sectionsFrom_length h]
      exact List.getElem?_eq_none_iff.mp hs
    simp [List.getElem?_eq_none_iff.mpr hlen]

/-! ### Plans -/

/-- The stages that follow those of the clips and of the soundtrack. -/
def finishStages (out : Defaults) (count items : Nat) : List (Stage Label Filter) :=
  [joinStage count (if items = 0 then .outputAudio else .programAudio)] ++
    (if items = 0 then [] else [mixStage items]) ++ [out.encodeStage]

/-- The plan that sections make for a timeline. -/
def Compiler.planOf (k : Compiler) (t : Timeline) (clips soundtrack : List Section) :
    Plan Label Filter :=
  k.assemble (k.defaults.under t.settings) clips soundtrack

theorem planOf_stages {t : Timeline} {clips soundtrack : List Section} :
    (k.planOf t clips soundtrack).stages =
      clips.map Section.stage ++ soundtrack.map Section.stage ++
        finishStages (k.defaults.under t.settings) clips.length soundtrack.length := by
  have hempty : (soundtrack.isEmpty = true) ↔ soundtrack.length = 0 := by
    rw [List.isEmpty_iff, List.length_eq_zero_iff]
  simp only [Compiler.planOf, Compiler.assemble, finishStages, hempty, List.append_assoc]

theorem compile_eq_ok_iff {t : Timeline} {p : Plan Label Filter} :
    k.compile t assets = .ok p ↔
      t.check k.rounding = .ok () ∧ needAll assets t = .ok () ∧ ∃ clips soundtrack,
        sectionsFrom (k.clipSection (k.defaults.under t.settings) assets) 0 0 t.clips = .ok clips ∧
        sectionsFrom (k.soundtrackSection (k.defaults.under t.settings) assets) 0
          (clips.flatMap Section.inputs).length t.soundtrack = .ok soundtrack ∧
        (k.planOf t clips soundtrack).checkLabels Label.input? = .ok () ∧
        p = k.planOf t clips soundtrack := by
  simp only [Compiler.compile, andThen_eq_ok_iff, mapError_eq_ok_iff]
  refine and_congr_right fun _ => and_congr_right fun _ => ?_
  simp only [bind_eq_ok_iff, mapError_eq_ok_iff, Except.ok.injEq]
  constructor
  · rintro ⟨clips, hclips, soundtrack, hsound, ⟨⟩, hlabels, hp⟩
    exact ⟨clips, soundtrack, hclips, hsound, hlabels, hp.symm⟩
  · rintro ⟨clips, soundtrack, hclips, hsound, hlabels, hp⟩
    exact ⟨clips, hclips, soundtrack, hsound, (), hlabels, hp.symm⟩

end Montage
