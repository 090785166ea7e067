import Montage.Proofs.Inputs
import Montage.Proofs.LabelText
import Mathlib.Data.List.Flatten
import Mathlib.Data.List.Perm.Basic

/-! # The labels of an assembled plan

A clip writes labels of its own: two for each of its images, which it also reads, and one each for
its picture and its sound, which it hands on.  The labels carry the position of the clip and of
the overlay, so no two of them are the same; the stage that joins the clips reads what they
hand on, the mix reads the items of the soundtrack, and the encoder the two labels that are left.

From this follows, for any number and mix of clips, overlays and items, that the events of an
assembled plan are sound (`planOf_sound`).
-/
namespace Montage

open LabelEvent

/-! ### Labels of one clip -/

/-- The two labels of each image among some overlays, counted from `index` on. -/
def overlayLabels (clip : Nat) : Nat → List Overlay → List Label
  | _, [] => []
  | index, o :: rest =>
    (if o.image?.isSome then [.base clip index, .image clip index] else []) ++
      overlayLabels clip (index + 1) rest

/-- The labels that a clip hands on. -/
def clipOutputs (clip : Nat) : List Label := [.clipVideo clip, .clipAudio clip]

/-- The clip that a label belongs to. -/
def Label.clip? : Label → Option Nat
  | clipVideo i | clipAudio i | base i _ | image i _ => some i
  | _ => none

theorem mem_overlayLabels {clip index : Nat} {os : List Overlay} {l : Label}
    (h : l ∈ overlayLabels clip index os) :
    ∃ o, index ≤ o ∧ (l = .base clip o ∨ l = .image clip o) := by
  induction os generalizing index with
  | nil => exact absurd h List.not_mem_nil
  | cons o rest ih =>
    rcases List.mem_append.mp h with h | h
    · refine ⟨index, Nat.le_refl _, ?_⟩
      split at h
      · simpa using h
      · exact absurd h List.not_mem_nil
    · obtain ⟨n, hn, hl⟩ := ih h
      exact ⟨n, by omega, hl⟩

theorem overlayLabels_nodup (clip index : Nat) (os : List Overlay) :
    (overlayLabels clip index os).Nodup := by
  induction os generalizing index with
  | nil => exact List.nodup_nil
  | cons o rest ih =>
    refine List.nodup_append'.mpr ⟨?_, ih _, ?_⟩
    · split <;> simp
    · -- the labels that follow carry a later position
      intro l hl hl'
      obtain ⟨n, hn, hl'⟩ := mem_overlayLabels hl'
      split at hl
      · rcases hl' with rfl | rfl <;> simp at hl <;> omega
      · exact absurd hl List.not_mem_nil

theorem clip?_of_mem_overlayLabels {clip index : Nat} {os : List Overlay} {l : Label}
    (h : l ∈ overlayLabels clip index os) : l.clip? = some clip := by
  obtain ⟨o, -, rfl | rfl⟩ := mem_overlayLabels h <;> rfl

/-- The labels that a clip writes. -/
def clipLabels (c : Clip × Nat) : List Label :=
  overlayLabels c.2 0 c.1.overlays ++ clipOutputs c.2

theorem clip?_of_mem_clipLabels {c : Clip × Nat} {l : Label} (h : l ∈ clipLabels c) :
    l.clip? = some c.2 := by
  rcases List.mem_append.mp h with h | h
  · exact clip?_of_mem_overlayLabels h
  · simp only [clipOutputs, List.mem_cons, List.not_mem_nil, or_false] at h
    rcases h with rfl | rfl <;> rfl

theorem clipLabels_nodup (c : Clip × Nat) : (clipLabels c).Nodup := by
  refine List.nodup_append'.mpr ⟨overlayLabels_nodup .., by simp [clipOutputs], ?_⟩
  intro l hl hl'
  obtain ⟨o, -, rfl | rfl⟩ := mem_overlayLabels hl <;> simp [clipOutputs] at hl'

variable {k : Compiler} {out : Defaults} {assets : Assets}

/-! ### Events of one clip -/

section Layers
variable {stage : String} {clip index next : Nat} {inputs : List Label} {filters : List Filter}

theorem written_layers {os : List Overlay} :
    written ((k.layers clip index next inputs filters os).flatMap (Stage.chainEvents stage)) =
      overlayLabels clip index os ++ [.clipVideo clip] := by
  induction os generalizing index next inputs filters with
  | nil => simp [Compiler.layers, overlayLabels]
  | cons o rest ih =>
    cases ho : o.content with
    | text words hw source =>
      simp [Compiler.layers, overlayLabels, Overlay.image?, ho, ih]
    | image source caption =>
      simp [Compiler.layers, overlayLabels, Overlay.image?, ho, ih]

/-- The labels written for overlays are those of their images and that of the clip's picture. -/
theorem outputs_layers {os : List Overlay} :
    (k.layers clip index next inputs filters os).map Chain.output =
      overlayLabels clip index os ++ [.clipVideo clip] := by
  have hwritten : written ((k.layers clip index next inputs filters os).flatMap
      (Stage.chainEvents "")) = overlayLabels clip index os ++ [.clipVideo clip] := written_layers
  rw [← hwritten, written_flatMap, List.map_eq_flatMap]
  exact List.flatMap_congr fun _ _ => written_chainEvents.symm

/-- The chains of a clip read the picture that they start from and the labels of its images. -/
theorem consumed_layers {os : List Overlay} :
    consumed Label.input? ((k.layers clip index next inputs filters os).flatMap
        (Stage.chainEvents stage)) =
      (inputs.filter fun l => l.input?.isNone) ++ overlayLabels clip index os := by
  induction os generalizing index next inputs filters with
  | nil => simp [Compiler.layers, overlayLabels]
  | cons o rest ih =>
    cases ho : o.content with
    | text words hw source =>
      simp [Compiler.layers, overlayLabels, Overlay.image?, ho, ih]
    | image source caption =>
      simp [Compiler.layers, overlayLabels, Overlay.image?, ho, ih, Label.input?]

theorem orderedAfter_layers {before : List Label} {os : List Overlay}
    (h : ∀ l ∈ inputs, l.input? = none → l ∈ before) :
    OrderedAfter Label.input? before
      ((k.layers clip index next inputs filters os).flatMap (Stage.chainEvents stage)) := by
  -- each overlay starts from what the one before it wrote, so `inputs` and `before` change
  induction os generalizing index next inputs filters before with
  | nil => simpa [Compiler.layers] using orderedAfter_chainEvents h
  | cons o rest ih =>
    cases ho : o.content with
    | text words hw source =>
      simp only [Compiler.layers, ho]
      exact ih h
    | image source caption =>
      simp only [Compiler.layers, ho, List.flatMap_cons]
      refine (orderedAfter_chainEvents h).append ((orderedAfter_chainEvents ?_).append (ih ?_))
      · intro l hl hn
        rw [List.mem_singleton.mp hl] at hn
        cases hn
      · simp

end Layers

/-- The sound of a clip comes from its file or from nowhere, never from another chain. -/
theorem consumed_audioChain {stage : String} {index next : Nat} {rate : Int} {c : Clip}
    {a : Asset} {t : Timing} :
    consumed Label.input?
      (Stage.chainEvents stage (c.audioChain k.rounding index a t next rate)) = [] := by
  rw [consumed_chainEvents]
  unfold Clip.audioChain
  split <;> rfl

theorem output_audioChain {r : Rounding} {index next : Nat} {rate : Int} {c : Clip} {a : Asset}
    {t : Timing} : (c.audioChain r index a t next rate).output = .clipAudio index := by
  unfold Clip.audioChain
  split <;> rfl

theorem written_clipPart {index next : Nat} {c : Clip} {a : Asset} {t : Timing}
    {said : List String} :
    written (k.clipPart out assets index next c a t said).stage.events = clipLabels (c, index) := by
  simp [Compiler.clipPart, Stage.events, written_layers, output_audioChain, clipLabels, clipOutputs]

theorem consumed_clipPart {index next : Nat} {c : Clip} {a : Asset} {t : Timing}
    {said : List String} :
    consumed Label.input? (k.clipPart out assets index next c a t said).stage.events =
      overlayLabels index 0 c.overlays := by
  simp only [Compiler.clipPart, Stage.events, reduceCtorEq, if_false, List.flatMap_append,
    consumed_append, consumed_layers, List.flatMap_singleton, consumed_audioChain]
  cases c.isShown a <;> simp [Label.input?]

theorem orderedAfter_clipPart {index next : Nat} {c : Clip} {a : Asset} {t : Timing}
    {said : List String} {before : List Label} :
    OrderedAfter Label.input? before
      (k.clipPart out assets index next c a t said).stage.events := by
  simp only [Compiler.clipPart, Stage.events, reduceCtorEq, if_false, List.flatMap_append,
    List.flatMap_singleton]
  refine (orderedAfter_layers fun l hl hn => ?_).append (OrderedAfter.of_consumed fun l hl => ?_)
  · split at hl
    · rw [List.mem_singleton.mp hl] at hn
      cases hn
    · exact absurd hl List.not_mem_nil
  · rw [consumed_audioChain] at hl
    exact absurd hl List.not_mem_nil

/-! ### Events of one item of the soundtrack -/

theorem written_soundtrackPart {index next : Nat} {c : Clip} {a : Asset} :
    written (k.soundtrackPart out index next c a).stage.events = [.soundtrack index] := by
  simp [Compiler.soundtrackPart, Stage.events]

theorem consumed_soundtrackPart {index next : Nat} {c : Clip} {a : Asset} :
    consumed Label.input? (k.soundtrackPart out index next c a).stage.events = [] := by
  simp [Compiler.soundtrackPart, Stage.events, Label.input?]

theorem orderedAfter_soundtrackPart {index next : Nat} {c : Clip} {a : Asset}
    {before : List Label} :
    OrderedAfter Label.input? before (k.soundtrackPart out index next c a).stage.events := by
  refine OrderedAfter.of_consumed fun l hl => ?_
  rw [consumed_soundtrackPart] at hl
  exact absurd hl List.not_mem_nil

/-! ### Events of a plan -/

/-- The label between the clips and the mix, if there is a mix. -/
def mixedLabels (items : Nat) : List Label := if items = 0 then [] else [.programAudio]

section Finish
variable {count items : Nat}

/-- A single clip is joined like any other number. -/
theorem joinStage_inputs (sound : Label) (h : 0 < count) :
    ∃ st name f g, joinStage count sound =
      { kind := st, name, maps := [], options := []
        chains :=
          [⟨(List.range count).map .clipVideo, f, .outputVideo⟩,
            ⟨(List.range count).map .clipAudio, g, sound⟩] } ∧ st ≠ .encode := by
  unfold joinStage
  split
  · exact ⟨_, _, _, _, rfl, nofun⟩
  · obtain rfl : count = 1 := by omega
    exact ⟨_, _, _, _, rfl, nofun⟩

theorem written_finish (h : 0 < count) :
    written ((finishStages out count items).flatMap Stage.events) =
      [.outputVideo] ++ mixedLabels items ++ [.outputAudio] := by
  obtain ⟨st, name, f, g, hjoin, hst⟩ :=
    joinStage_inputs (if items = 0 then .outputAudio else .programAudio) h
  rw [finishStages, hjoin]
  by_cases hi : items = 0 <;>
    simp [hi, hst, Stage.events, mixStage, mixedLabels, Defaults.encodeStage]

theorem consumed_finish (h : 0 < count) :
    consumed Label.input? ((finishStages out count items).flatMap Stage.events) =
      (List.range count).map .clipVideo ++ (List.range count).map .clipAudio ++
        (mixedLabels items ++ (List.range items).map .soundtrack) ++
        ([.outputVideo] ++ [.outputAudio]) := by
  have hlabels (n : Nat) (f : Nat → Label) (hf : ∀ i, (f i).input? = none) :
      ((List.range n).map f).filter (fun l => l.input?.isNone) = (List.range n).map f := by
    refine List.filter_eq_self.mpr fun l hl => ?_
    obtain ⟨i, -, rfl⟩ := List.mem_map.mp hl
    rw [hf]
    rfl
  have hv := hlabels count .clipVideo fun _ => rfl
  have ha := hlabels count .clipAudio fun _ => rfl
  have hs := hlabels items .soundtrack fun _ => rfl
  have hp : (Label.programAudio.input?.isNone) = true := rfl
  obtain ⟨st, name, f, g, hjoin, hst⟩ :=
    joinStage_inputs (if items = 0 then .outputAudio else .programAudio) h
  rw [finishStages, hjoin]
  by_cases hi : items = 0
  · simp [hi, hst, Stage.events, mixedLabels, Defaults.encodeStage, hv, ha]
    rfl
  · simp [hi, hst, Stage.events, mixStage, mixedLabels, Defaults.encodeStage, hv, ha, hs, hp]
    rfl

theorem orderedAfter_finish {before : List Label} (h : 0 < count)
    (hclips : ∀ i < count, .clipVideo i ∈ before ∧ .clipAudio i ∈ before)
    (hitems : ∀ i < items, .soundtrack i ∈ before) :
    OrderedAfter Label.input? before ((finishStages out count items).flatMap Stage.events) := by
  have hall (n : Nat) (f : Nat → Label) (hf : ∀ i < n, f i ∈ before) :
      ∀ l ∈ (List.range n).map f, l ∈ before := by
    intro l hl
    obtain ⟨i, hi, rfl⟩ := List.mem_map.mp hl
    exact hf i (List.mem_range.mp hi)
  have hv := hall count .clipVideo fun i hi => (hclips i hi).1
  have ha := hall count .clipAudio fun i hi => (hclips i hi).2
  have hs := hall items .soundtrack hitems
  obtain ⟨st, name, f, g, hjoin, hst⟩ :=
    joinStage_inputs (if items = 0 then .outputAudio else .programAudio) h
  rw [finishStages, hjoin]
  have hjoined (sound : Label) : OrderedAfter Label.input? before
      (Stage.chainEvents name ⟨(List.range count).map .clipVideo, f, .outputVideo⟩ ++
        Stage.chainEvents name ⟨(List.range count).map .clipAudio, g, sound⟩) :=
    (orderedAfter_chainEvents fun l hl _ => hv l hl).append
      (orderedAfter_chainEvents fun l hl _ => List.mem_append_left _ (ha l hl))
  by_cases hi : items = 0
  · simp only [hi, if_true, List.append_nil, List.flatMap_append, List.flatMap_cons,
      List.flatMap_nil, Stage.events, hst, if_false]
    refine (hjoined _).append (orderedAfter_reads fun l hl _ => ?_)
    simp only [Defaults.encodeStage, List.mem_cons, List.not_mem_nil, or_false] at hl
    rcases hl with rfl | rfl <;> simp
  · simp only [hi, if_false, List.append_nil, List.flatMap_append, List.flatMap_cons,
      List.flatMap_nil, Stage.events, hst, mixStage, reduceCtorEq]
    refine ((hjoined _).append (orderedAfter_chainEvents fun l hl _ => ?_)).append
      (orderedAfter_reads fun l hl _ => ?_)
    · rcases List.mem_cons.mp hl with rfl | hl
      · simp
      · exact List.mem_append_left _ (hs l hl)
    · simp only [Defaults.encodeStage, List.mem_cons, List.not_mem_nil, or_false] at hl
      rcases hl with rfl | rfl <;> simp

end Finish

theorem planOf_events {t : Timeline} {clips soundtrack : List Section} :
    (k.planOf t clips soundtrack).events =
      (clips.flatMap fun s => s.stage.events) ++ (soundtrack.flatMap fun s => s.stage.events) ++
        (finishStages (k.defaults.under t.settings) clips.length soundtrack.length).flatMap
          Stage.events := by
  rw [Plan.events, planOf_stages, List.flatMap_append, List.flatMap_append, List.flatMap_map,
    List.flatMap_map]

/-- Clips, items and the last stages write different labels. -/
theorem written_nodup (cs : List Clip) (items : Nat) :
    (cs.zipIdx.flatMap clipLabels ++ (List.range items).map Label.soundtrack ++
      ([Label.outputVideo] ++ mixedLabels items ++ [Label.outputAudio])).Nodup := by
  have hclip (l : Label) (hl : l ∈ cs.zipIdx.flatMap clipLabels) : l.clip?.isSome = true := by
    obtain ⟨c, -, hc⟩ := List.mem_flatMap.mp hl
    rw [clip?_of_mem_clipLabels hc]
    rfl
  refine List.nodup_append'.mpr ⟨List.nodup_append'.mpr ⟨?_, ?_, ?_⟩, ?_, ?_⟩
  · -- a label says which clip it belongs to, so two clips share none
    refine List.nodup_flatMap.mpr ⟨fun c _ => clipLabels_nodup c, ?_⟩
    refine (pairwise_zipIdx cs).imp fun {a b} hab l hl hl' => hab ?_
    have hsome := clip?_of_mem_clipLabels hl
    rw [clip?_of_mem_clipLabels hl'] at hsome
    exact (Option.some.inj hsome).symm
  · exact List.nodup_range.map fun i j h => by cases h; rfl
  · intro l hl hl'
    obtain ⟨i, -, rfl⟩ := List.mem_map.mp hl'
    exact nomatch hclip _ hl
  · -- the last stages write two labels or three
    unfold mixedLabels
    split <;> decide
  · intro l hl hl'
    have hlast : l = .outputVideo ∨ l = .programAudio ∨ l = .outputAudio := by
      unfold mixedLabels at hl'
      split at hl' <;> simp at hl' <;> tauto
    rcases List.mem_append.mp hl with hl | hl
    · rcases hlast with rfl | rfl | rfl <;> exact nomatch hclip _ hl
    · obtain ⟨i, -, rfl⟩ := List.mem_map.mp hl
      rcases hlast with h | h | h <;> cases h

namespace SectionsOf
variable {t : Timeline} {clips soundtrack : List Section}

theorem length_pos (h : SectionsOf k t assets clips soundtrack) : 0 < clips.length := by
  rw [h.length_clips]
  exact List.length_pos_of_ne_nil h.nonempty

theorem written_clips (h : SectionsOf k t assets clips soundtrack) :
    written (clips.flatMap fun s => s.stage.events) = t.clips.zipIdx.flatMap clipLabels := by
  rw [written_flatMap, List.flatMap_def, List.flatMap_def]
  refine congrArg _ (sectionsFrom_map h.made fun i n c s hc hs => ?_)
  obtain ⟨a, tm, said, -, -, rfl⟩ := h.eq_clipPart hc hs
  exact written_clipPart

theorem consumed_clips (h : SectionsOf k t assets clips soundtrack) :
    consumed Label.input? (clips.flatMap fun s => s.stage.events) =
      t.clips.zipIdx.flatMap fun c => overlayLabels c.2 0 c.1.overlays := by
  rw [consumed_flatMap, List.flatMap_def, List.flatMap_def]
  refine congrArg _ (sectionsFrom_map h.made fun i n c s hc hs => ?_)
  obtain ⟨a, tm, said, -, -, rfl⟩ := h.eq_clipPart hc hs
  exact consumed_clipPart

theorem orderedAfter_clips (h : SectionsOf k t assets clips soundtrack) {before : List Label} :
    OrderedAfter Label.input? before (clips.flatMap fun s => s.stage.events) := by
  refine OrderedAfter.flatMap fun s hs => ?_
  obtain ⟨i, hi⟩ := List.getElem?_of_mem hs
  obtain ⟨c, a, tm, said, -, -, -, rfl⟩ := h.clip_getElem hi
  exact orderedAfter_clipPart

theorem written_soundtrack (h : SectionsOf k t assets clips soundtrack) :
    written (soundtrack.flatMap fun s => s.stage.events) =
      (List.range soundtrack.length).map .soundtrack := by
  have hmap : soundtrack.map (fun s => written s.stage.events) =
      t.soundtrack.zipIdx.map fun c => [Label.soundtrack c.2] := by
    refine sectionsFrom_map h.madeSoundtrack fun i n c s hc hs => ?_
    obtain ⟨a, -, -, rfl⟩ := h.eq_soundtrackPart hc hs
    exact written_soundtrackPart
  rw [written_flatMap, List.flatMap_def, hmap, ← List.flatMap_def, ← List.map_eq_flatMap,
    map_zipIdx_snd, h.length_soundtrack]

theorem consumed_soundtrack (h : SectionsOf k t assets clips soundtrack) :
    consumed Label.input? (soundtrack.flatMap fun s => s.stage.events) = [] := by
  rw [consumed_flatMap]
  refine List.flatMap_eq_nil_iff.mpr fun s hs => ?_
  obtain ⟨m, hm⟩ := List.getElem?_of_mem hs
  obtain ⟨c, a, -, -, -, rfl⟩ := h.soundtrack_getElem hm
  exact consumed_soundtrackPart

theorem orderedAfter_soundtrack (h : SectionsOf k t assets clips soundtrack)
    {before : List Label} :
    OrderedAfter Label.input? before (soundtrack.flatMap fun s => s.stage.events) := by
  refine OrderedAfter.flatMap fun s hs => ?_
  obtain ⟨m, hm⟩ := List.getElem?_of_mem hs
  obtain ⟨c, a, -, -, -, rfl⟩ := h.soundtrack_getElem hm
  exact orderedAfter_soundtrackPart

/-- What is written is read, label for label. -/
theorem consumed_perm_written (h : SectionsOf k t assets clips soundtrack) :
    (consumed Label.input?
        (k.planOf t clips soundtrack).events).Perm
      (written (k.planOf t clips soundtrack).events) := by
  have hclips : (t.clips.zipIdx.flatMap clipLabels).Perm
      ((t.clips.zipIdx.flatMap fun c => overlayLabels c.2 0 c.1.overlays) ++
        ((List.range clips.length).map .clipVideo ++
          (List.range clips.length).map .clipAudio)) := by
    refine (List.flatMap_append_perm ..).symm.trans (List.Perm.append_left _ ?_)
    rw [h.length_clips, ← map_zipIdx_snd, ← map_zipIdx_snd,
      List.map_eq_flatMap (l := t.clips.zipIdx) (f := fun a => Label.clipAudio a.2)]
    exact (List.map_append_flatMap_perm ..).symm
  rw [planOf_events, consumed_append, consumed_append, h.consumed_clips, h.consumed_soundtrack,
    consumed_finish h.length_pos, written_append, written_append, h.written_clips,
    h.written_soundtrack, written_finish h.length_pos]
  -- both sides are sums of the same counts
  refine List.perm_iff_count.mpr fun l => ?_
  simp only [List.count_append, hclips.count_eq, List.count_nil]
  omega

/-- Streams are read from inputs that exist. -/
theorem stream_present (h : SectionsOf k t assets clips soundtrack) {stage : String} {l : Label}
    {j : Nat}
    (hl : read stage l ∈ (k.planOf t clips soundtrack).events)
    (hj : l.input? = some j) :
    j < (k.planOf t clips soundtrack).inputs.length := by
  obtain ⟨c, rfl⟩ : ∃ c, l = .stream j c := by
    cases l <;> cases hj
    exact ⟨_, rfl⟩
  obtain ⟨st, hst, hread⟩ := read_mem_events hl
  obtain ⟨n, hn⟩ := List.getElem?_of_mem hst
  rcases hread with hmaps | ⟨ch, hch, hin⟩
  · exact absurd hmaps (h.stream_not_mem_maps hn)
  · obtain ⟨place, s, a, huse, -⟩ := h.stream_read hn hch hin
    have hlength := congrArg List.length h.inputs_eq
    rw [List.length_map, List.length_map] at hlength
    rw [Compiler.planOf, Compiler.assemble, hlength]
    exact (List.getElem?_eq_some_iff.mp huse).1

/-- **The events of an assembled plan are sound.** -/
theorem planOf_sound (h : SectionsOf k t assets clips soundtrack) :
    SoundEvents Label.input?
      (k.planOf t clips soundtrack).inputs.length
      (k.planOf t clips soundtrack).events := by
  have hwritten : written (k.planOf t clips soundtrack).events =
      t.clips.zipIdx.flatMap clipLabels ++ (List.range soundtrack.length).map Label.soundtrack ++
        ([Label.outputVideo] ++ mixedLabels soundtrack.length ++ [Label.outputAudio]) := by
    rw [planOf_events, written_append, written_append, h.written_clips, h.written_soundtrack,
      written_finish h.length_pos]
  refine SoundEvents.of_perm (fun stage l i hl hi => h.stream_present hl hi) ?_ ?_ ?_
    h.consumed_perm_written
  · -- the parts of clips and items need nothing; the last stages read what these wrote
    rw [planOf_events]
    refine OrderedAfter.append (h.orderedAfter_clips.append h.orderedAfter_soundtrack)
      (orderedAfter_finish h.length_pos (fun i hi => ?_) fun m hm => ?_)
    · have houts : ∀ l ∈ clipOutputs i, l ∈ t.clips.zipIdx.flatMap clipLabels := by
        intro l hl
        rw [h.length_clips] at hi
        refine List.mem_flatMap.mpr ⟨(t.clips[i], i), ?_, List.mem_append_right _ hl⟩
        exact List.mk_mem_zipIdx_iff_getElem?.mpr (List.getElem?_eq_getElem hi)
      rw [written_append, h.written_clips, List.nil_append]
      refine ⟨List.mem_append_left _ (houts (.clipVideo i) ?_),
        List.mem_append_left _ (houts (.clipAudio i) ?_)⟩ <;> simp [clipOutputs]
    · rw [written_append, h.written_soundtrack]
      simp [hm]
  · rw [hwritten]
    exact written_nodup ..
  · intro l hl
    rw [hwritten] at hl
    simp only [List.mem_append, List.mem_flatMap, List.mem_map, List.mem_singleton] at hl
    rcases hl with (⟨c, -, hc⟩ | ⟨m, -, rfl⟩) | (rfl | hl) | rfl
    · have hclip := clip?_of_mem_clipLabels hc
      cases l <;> first | rfl | cases hclip
    · rfl
    · rfl
    · unfold mixedLabels at hl
      split at hl
      · cases hl
      · rw [List.mem_singleton.mp hl]
        rfl
    · rfl

end SectionsOf

end Montage
