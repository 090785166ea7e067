import Montage.Proofs.CompileOutcome

/-! # The layout of a plan

A plan has its inputs and its stages in a fixed order.  The inputs are those of the clips, each
with its images behind it, and then those of the soundtrack.  The stages are one for each clip, one
for each item of the soundtrack, one that joins the clips, one that mixes if there is something to
mix, and the encoder.

The statements of this module are about the texts of a plan, as they are handed to the engine.
-/
namespace Montage

/-- What a stage does: its kind, its chains, and what it lets into the output. -/
def Stage.action {ℓ φ : Type} (s : Stage ℓ φ) : StageKind × List (Chain ℓ φ) × List ℓ :=
  (s.kind, s.chains, s.maps)

/-- The text of the stage that joins `n` clips. -/
def joinTexts (n : Nat) (sound : String) : StageKind × List (Chain String String) × List String :=
  if 1 < n then
    (.concat,
      [⟨(List.range n).map fun i => "v" ++ toString i,
          ["concat=n=" ++ toString n ++ ":v=1:a=0"], "outv"⟩,
        ⟨(List.range n).map fun i => "a" ++ toString i,
          ["concat=n=" ++ toString n ++ ":v=0:a=1"], sound⟩], [])
  else (.copy, [⟨["v0"], ["null"], "outv"⟩, ⟨["a0"], ["anull"], sound⟩], [])

/-- The text of the stage that mixes `m` items of the soundtrack. -/
def mixTexts (m : Nat) : StageKind × List (Chain String String) × List String :=
  (.mix,
    [⟨"program_a" :: (List.range m).map fun i => "s" ++ toString i,
      ["amix=inputs=" ++ toString (m + 1) ++
        ":duration=first:dropout_transition=0:normalize=0"], "outa"⟩], [])

/-- The texts of the stages behind those of `n` clips and `m` items of the soundtrack. -/
def finishTexts (n m : Nat) : List (StageKind × List (Chain String String) × List String) :=
  [joinTexts n (if m = 0 then "outa" else "program_a")] ++ (if m = 0 then [] else [mixTexts m]) ++
    [(.encode, [], ["outv", "outa"])]

variable {k : Compiler} {out : Defaults} {t : Timeline} {assets : Assets}

theorem joinStage_texts (n : Nat) (sound : Label) :
    ((joinStage n sound).map Label.text Filter.text).action = joinTexts n sound.text := by
  unfold joinStage joinTexts
  split
  · simp only [Stage.map, Stage.action, Chain.map, List.map_cons, List.map_nil, List.map_map]
    rfl
  · rfl

theorem mixStage_texts (m : Nat) :
    ((mixStage m).map Label.text Filter.text).action = mixTexts m := by
  simp only [mixStage, Stage.map, Stage.action, Chain.map, List.map_cons, List.map_nil,
    List.map_map]
  rfl

theorem finishStages_texts (n m : Nat) :
    (finishStages out n m).map (fun s => (s.map Label.text Filter.text).action) =
      finishTexts n m := by
  by_cases hm : m = 0
  · simp only [finishStages, finishTexts, hm, if_true, List.map_append, List.map_cons,
      List.map_nil, joinStage_texts]
    rfl
  · simp only [finishStages, finishTexts, hm, if_false, List.map_append, List.map_cons,
      List.map_nil, joinStage_texts, mixStage_texts]
    rfl

namespace SectionsOf
variable {clips soundtrack : List Section}

theorem kinds_clips (h : SectionsOf k t assets clips soundtrack) :
    clips.map (fun s => (s.stage.kind, s.stage.name)) =
      (List.range t.clips.length).map fun i => (.clip, "clip" ++ toString i) := by
  rw [← map_zipIdx_snd t.clips]
  refine sectionsFrom_map h.made fun i n c s hc hs => ?_
  obtain ⟨a, tm, said, -, -, rfl⟩ := h.eq_clipPart hc hs
  rfl

theorem kinds_soundtrack (h : SectionsOf k t assets clips soundtrack) :
    soundtrack.map (fun s => (s.stage.kind, s.stage.name)) =
      (List.range t.soundtrack.length).map fun m => (.soundtrack, "soundtrack" ++ toString m) := by
  rw [← map_zipIdx_snd t.soundtrack]
  refine sectionsFrom_map h.madeSoundtrack fun i n c s hc hs => ?_
  obtain ⟨a, -, -, rfl⟩ := h.eq_soundtrackPart hc hs
  rfl

theorem getElem?_stages_clip (h : SectionsOf k t assets clips soundtrack) {i : Nat} {c : Clip}
    (hc : t.clips[i]? = some c) :
    ∃ a tm said, (k.planOf t clips soundtrack).stages[i]? = some
      (k.clipPart (k.defaults.under t.settings) assets i (t.clipInput i) c a tm said).stage := by
  have hi : i < clips.length := by
    rw [h.length_clips]
    exact (List.getElem?_eq_some_iff.mp hc).1
  obtain ⟨c', a, tm, said, hc', -, -, hpart⟩ := h.clip_getElem (List.getElem?_eq_getElem hi)
  obtain rfl : c = c' := Option.some.inj (hc.symm.trans hc')
  refine ⟨a, tm, said, ?_⟩
  rw [planOf_stages, List.append_assoc, List.getElem?_append_left (by simpa using hi),
    List.getElem?_map, List.getElem?_eq_getElem hi, hpart]
  rfl

theorem getElem?_stages_soundtrack (h : SectionsOf k t assets clips soundtrack) {m : Nat}
    {c : Clip} (hc : t.soundtrack[m]? = some c) :
    ∃ a, (k.planOf t clips soundtrack).stages[t.clips.length + m]? =
      some (k.soundtrackPart (k.defaults.under t.settings) m (t.soundtrackInput m) c a).stage := by
  have hm : m < soundtrack.length := by
    rw [h.length_soundtrack]
    exact (List.getElem?_eq_some_iff.mp hc).1
  obtain ⟨c', a, hc', -, -, hpart⟩ := h.soundtrack_getElem (List.getElem?_eq_getElem hm)
  obtain rfl : c = c' := Option.some.inj (hc.symm.trans hc')
  refine ⟨a, ?_⟩
  rw [planOf_stages, List.append_assoc, List.getElem?_append_right (by simp [h.length_clips]),
    List.length_map, h.length_clips, Nat.add_sub_cancel_left,
    List.getElem?_append_left (by simpa using hm), List.getElem?_map,
    List.getElem?_eq_getElem hm, hpart]
  rfl

/-- Each image is read by a chain of its own, from its own input. -/
theorem exists_imageChain (h : SectionsOf k t assets clips soundtrack) {i o : Nat} {c : Clip}
    {ov : Overlay} {s : MediaSource} (hc : t.clips[i]? = some c)
    (hov : c.overlays[o]? = some ov) (hs : ov.image? = some s) :
    ∃ j st, t.uses[j]? = some (.image i o, s) ∧
      (k.planOf t clips soundtrack).stages[i]? = some st ∧
      ⟨[.stream j .video], ov.imageFilters, .image i o⟩ ∈ st.chains := by
  obtain ⟨a, tm, said, hst⟩ := h.getElem?_stages_clip hc
  refine ⟨_, _, Timeline.getElem?_uses_clip hc (getElem?_clipUses_image hov hs), hst,
    List.mem_append_left _ ?_⟩
  exact imageChain_mem_layers hov hs (Nat.zero_add o).symm (Nat.add_assoc ..).symm

end SectionsOf

theorem getElem?_toText_stages {p : Plan Label Filter} {n : Nat} :
    p.toText.stages[n]? = p.stages[n]?.map (Stage.map Label.text Filter.text) := List.getElem?_map

/-- A label that a chain of texts reads is the text of one that the chain reads. -/
theorem mem_texts_iff {l : Label} {ls : List Label} : l.text ∈ ls.map Label.text ↔ l ∈ ls :=
  List.mem_map_of_injective Label.text_injective

/-- **The layout of a compiled plan.**  The inputs are the files of the uses in their order, and
no two uses have the same place.  Wherever a stream label stands, its number is the position of the
use that is read there: in a chain of clip `i` the clip itself, in the chain of an image that image,
in the stage of an item that item; and each image and each item is read by a chain of its own.  The
stages of the clips and of the soundtrack come first and in order, and behind them stand the one
that joins, the one that mixes if there is a soundtrack, and the encoder. -/
theorem compiled_layout {p : Plan Label Filter} (h : k.compile t assets = .ok p) :
    p.inputs.map some = t.uses.map (fun u => inputOf? assets u.2) ∧
    (t.uses.map Prod.fst).Nodup ∧
    (∀ (n : Nat) (st : Stage String String) (ch : Chain String String) (j : Nat) (c : Channel),
      p.toText.stages[n]? = some st → ch ∈ st.chains → (Label.stream j c).text ∈ ch.inputs →
      ∃ place s output, t.uses[j]? = some (place, s) ∧ ch.output = output.text ∧
        place.ReadBy t.clips.length n output) ∧
    (∀ (i o : Nat) (c : Clip) (ov : Overlay) (s : MediaSource), t.clips[i]? = some c →
      c.overlays[o]? = some ov → ov.image? = some s →
      ∃ j st ch, t.uses[j]? = some (.image i o, s) ∧ p.toText.stages[i]? = some st ∧
        ch ∈ st.chains ∧ ch.inputs = [(Label.stream j .video).text] ∧
        ch.output = (Label.image i o).text) ∧
    (∀ (m : Nat) (c : Clip), t.soundtrack[m]? = some c →
      ∃ j st, t.uses[j]? = some (.soundtrack m, c.source) ∧
        p.toText.stages[t.clips.length + m]? = some st ∧
        st.chains.map Chain.inputs = [[(Label.stream j .audio).text]]) ∧
    0 < t.clips.length ∧
    (p.toText.stages.take (t.clips.length + t.soundtrack.length)).map
        (fun s => (s.kind, s.name)) =
      (List.range t.clips.length).map (fun i => (.clip, "clip" ++ toString i)) ++
        (List.range t.soundtrack.length).map (fun m => (.soundtrack, "soundtrack" ++ toString m)) ∧
    (p.toText.stages.drop (t.clips.length + t.soundtrack.length)).map Stage.action =
      finishTexts t.clips.length t.soundtrack.length := by
  obtain ⟨clips, soundtrack, hs, rfl⟩ := exists_sectionsOf h
  have hlength : (clips.map Section.stage ++ soundtrack.map Section.stage).length =
      t.clips.length + t.soundtrack.length := by
    rw [List.length_append, List.length_map, List.length_map, hs.length_clips,
      hs.length_soundtrack]
  refine ⟨hs.inputs_eq, t.uses_nodup, ?_, ?_, ?_, List.length_pos_of_ne_nil hs.nonempty, ?_, ?_⟩
  · -- texts are those of labels one to one, so the stream that a text names is that of the label
    intro n st ch j c hst hch hj
    rw [getElem?_toText_stages] at hst
    obtain ⟨st', hst', rfl⟩ := Option.map_eq_some_iff.mp hst
    obtain ⟨ch', hch', rfl⟩ := List.mem_map.mp hch
    obtain ⟨place, s, a, huse, hread, -⟩ := hs.stream_read hst' hch' (mem_texts_iff.mp hj)
    exact ⟨place, s, ch'.output, huse, rfl, hread⟩
  · intro i o c ov s hc hov hsrc
    obtain ⟨j, st, huse, hst, hch⟩ := hs.exists_imageChain hc hov hsrc
    refine ⟨j, st.map Label.text Filter.text, _, huse, ?_, List.mem_map_of_mem hch, ?_, ?_⟩
    · rw [getElem?_toText_stages, hst]
      rfl
    · rfl
    · rfl
  · intro m c hc
    obtain ⟨a, hst⟩ := hs.getElem?_stages_soundtrack hc
    refine ⟨_, Stage.map Label.text Filter.text (k.soundtrackPart (k.defaults.under t.settings) m
      (t.soundtrackInput m) c a).stage, Timeline.getElem?_uses_soundtrack hc, ?_, ?_⟩
    · rw [getElem?_toText_stages, hst]
      rfl
    · rfl
  · rw [Plan.toText, Plan.map, planOf_stages, List.map_append, List.take_left']
    · rw [List.map_map, List.map_append, ← hs.kinds_clips, ← hs.kinds_soundtrack,
        List.map_map, List.map_map]
      rfl
    · rw [List.length_map, hlength]
  · rw [Plan.toText, Plan.map, planOf_stages, List.map_append, List.drop_left']
    · rw [List.map_map, ← finishStages_texts, hs.length_clips, hs.length_soundtrack]
      rfl
    · rw [List.length_map, hlength]

/-- The second clip shows the file of the first one again, as an input of its own. -/
theorem compiled_layout_sample :
    ∃ p, Compiler.standard.compile Sample.timeline (Sample.files 8 true) = .ok p ∧
      p.inputs.map some =
        [some ⟨"/work/0.mp4", []⟩, some ⟨"/work/1.png", []⟩, some ⟨"/work/0.mp4", []⟩,
          some ⟨"/work/1.png", []⟩, some ⟨"/work/2.mp3", []⟩] ∧
      (p.toText.stages.drop 3).map Stage.action = finishTexts 2 1 := by
  obtain ⟨p, hp⟩ := Sample.exists_plan
  obtain ⟨hinputs, -, -, -, -, -, -, hfinish⟩ := compiled_layout hp
  exact ⟨p, hp, hinputs.trans (by decide), hfinish⟩

end Montage
