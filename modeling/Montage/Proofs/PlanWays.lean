import Montage.Proofs.FiniteNumbers
import Montage.Proofs.StageFlow
import Montage.Proofs.Ways

/-! # The ways through a plan

The stages that put clips and soundtrack together read what each clip and each item hand on.  What was done
to it stands in chains of one stage, as no other stage writes a label of theirs: on the way to the picture
of a clip are the filters of its file, or a black picture, and then its overlays (`picture_steps`); on the way
to a sound is a single chain (`clipSound_way`, `soundtrack_way`).
-/
namespace Montage

section Way
variable {ℓ φ : Type} [DecidableEq ℓ] {chains : List (Chain ℓ φ)} {c : Chain ℓ φ}

/-- A chain that reads only streams of files is a way of its own. -/
theorem wayTo_of_source (nodup : (chains.map Chain.output).Nodup) (hc : c ∈ chains)
    (source : ∀ l ∈ c.inputs, l ∉ chains.map Chain.output) : wayTo c.output chains = [c] := by
  obtain ⟨before, after, rfl⟩ := List.append_of_mem hc
  rw [List.map_append, List.map_cons] at nodup source
  have hafter : c.output ∉ after.reverse.map Chain.output := by
    rw [List.map_reverse, List.mem_reverse]
    exact (List.nodup_cons.mp (List.nodup_append'.mp nodup).2.1).1
  have hbehind : behind c.inputs before.reverse = [] := behind_of_not_written fun l hl hmem => by
    rw [List.map_reverse, List.mem_reverse] at hmem
    exact source l hl (List.mem_append_left _ hmem)
  rw [wayTo, List.reverse_append, List.reverse_cons, List.append_assoc,
    wayBack_append_of_not_written hafter, List.singleton_append, wayBack_cons_of_eq rfl, hbehind]
  rfl

/-- Chains that follow and do not write the label do not matter. -/
theorem wayTo_append_of_not_written {l : ℓ} {after : List (Chain ℓ φ)}
    (h : l ∉ after.map Chain.output) : wayTo l (chains ++ after) = wayTo l chains := by
  have hreverse : l ∉ after.reverse.map Chain.output := by
    rwa [List.map_reverse, List.mem_reverse]
  rw [wayTo, List.reverse_append, wayBack_append_of_not_written hreverse, wayTo]

end Way

variable {k : Compiler} {t : Timeline} {assets : Assets}

/-- The filters of a clip's picture before its overlays. -/
def Compiler.pictureFilters (k : Compiler) (out : Defaults) (c : Clip) (a : Asset) : List Filter :=
  if c.isShown a then c.videoFilters ⟨c.start, k.finishOf c a, c.speed⟩ ++ out.canvas
  else out.blackFrame (k.lengthOf c a)

theorem pictureFilters_ne_nil {out : Defaults} {c : Clip} {a : Asset} :
    k.pictureFilters out c a ≠ [] := by
  unfold Compiler.pictureFilters
  split
  · simp [Clip.videoFilters]
  · simp [Defaults.blackFrame]

namespace SectionsOf
variable {clips soundtrack : List Section}

/-- The encoder is the only stage without chains, and the other way round. -/
theorem bare (h : SectionsOf k t assets clips soundtrack) :
    ∀ st ∈ (k.planOf t clips soundtrack).stages, st.Bare := by
  intro st hst hkind
  obtain ⟨n, hn⟩ := List.getElem?_of_mem hst
  rcases stage_cases hn with ⟨s, hs, rfl⟩ | ⟨m, s, -, hs, rfl⟩ | hfinish
  · obtain ⟨c, a, tm, said, -, -, -, rfl⟩ := h.clip_getElem hs
    cases hkind
  · obtain ⟨c, a, -, -, -, rfl⟩ := h.soundtrack_getElem hs
    cases hkind
  · simp only [finishStages, List.mem_append, List.mem_singleton] at hfinish
    rcases hfinish with (rfl | hmix) | rfl
    · obtain ⟨kind, name, f, g, hjoin, hne⟩ := joinStage_inputs
        (if soundtrack.length = 0 then .outputAudio else .programAudio) h.length_pos
      rw [hjoin] at hkind
      exact absurd hkind hne
    · split at hmix
      · cases hmix
      · rw [List.mem_singleton.mp hmix] at hkind
        cases hkind
    · rfl

theorem outputs_eq (h : SectionsOf k t assets clips soundtrack) :
    (k.planOf t clips soundtrack).chains.map Chain.output =
      LabelEvent.written (k.planOf t clips soundtrack).events := by
  rw [Plan.chains, Plan.events, LabelEvent.written_flatMap, List.map_flatMap]
  exact List.flatMap_congr fun st hst => (Stage.written_events (h.bare st hst)).symm

theorem outputs_nodup (h : SectionsOf k t assets clips soundtrack) :
    ((k.planOf t clips soundtrack).chains.map Chain.output).Nodup :=
  h.outputs_eq ▸ h.planOf_sound.writtenOnce

/-- No chain writes a stream of a file. -/
theorem stream_not_written (h : SectionsOf k t assets clips soundtrack) {l : Label}
    (hl : l.input?.isSome = true) :
    l ∉ (k.planOf t clips soundtrack).chains.map Chain.output := by
  rw [h.outputs_eq]
  intro hmem
  rw [h.planOf_sound.inner l hmem] at hl
  cases hl

/-- The stream that the picture of a clip starts from, if it starts from one. -/
theorem input_of_mem_pictureInputs {shown : Bool} {n : Nat} {l : Label}
    (hl : l ∈ if shown then [Label.stream n .video] else []) : l.input?.isSome = true := by
  split at hl
  · rw [List.mem_singleton.mp hl]
    rfl
  · cases hl

/-- **The picture of a clip comes from its file or out of the black, and goes through its overlays in
their order.** -/
theorem picture_steps (h : SectionsOf k t assets clips soundtrack) {i : Nat} {c : Clip} {a : Asset}
    (hc : t.clips[i]? = some c) (ha : assets c.source.key = some a) :
    stepsTo (.clipVideo i) (k.planOf t clips soundtrack).chains =
      (k.pictureFilters (k.defaults.under t.settings) c a).map (fun f => (f, [])) ++
        c.overlays.zipIdx.map (k.drawn i) := by
  obtain ⟨said, hstage⟩ := h.stage_of_clip hc ha
  let inputs : List Label := if c.isShown a then [.stream (t.clipInput i) .video] else []
  let layers := k.layers i 0 (t.clipInput i + 1) inputs
    (k.pictureFilters (k.defaults.under t.settings) c a) c.overlays
  -- of the chains of the plan, those behind the layers write other labels
  obtain ⟨before, after, hchains⟩ : ∃ before after,
      (k.planOf t clips soundtrack).chains = before ++ layers ++ after := by
    have hsplit := chains_at hstage
    rw [Compiler.clipPart, ← List.append_assoc, List.append_assoc] at hsplit
    exact ⟨_, _, hsplit⟩
  have hnodup := h.outputs_nodup
  rw [hchains, List.map_append, List.map_append] at hnodup
  have hwritten : .clipVideo i ∈ before.map Chain.output ++ layers.map Chain.output := by
    rw [outputs_layers]
    simp
  have hafter : .clipVideo i ∉ after.map Chain.output := fun hmem =>
    (List.nodup_append'.mp hnodup).2.2 hwritten hmem
  have hsource : ∀ l ∈ inputs, l ∉ before.reverse.map Chain.output := by
    intro l hl hmem
    rw [List.map_reverse, List.mem_reverse] at hmem
    refine h.stream_not_written (input_of_mem_pictureInputs hl) ?_
    rw [hchains, List.map_append, List.map_append]
    exact List.mem_append_left _ (List.mem_append_left _ hmem)
  have htail : inputs.tail = [] := by
    show (if c.isShown a then [Label.stream (t.clipInput i) .video] else []).tail = []
    split <;> rfl
  obtain ⟨first, rest, hway, -, hsteps⟩ :=
    way_layers k i 0 (t.clipInput i + 1) c.overlays
      (Or.inr htail : k.pictureFilters (k.defaults.under t.settings) c a ≠ [] ∨ inputs.tail = [])
      before.reverse
  rw [behind_of_not_written hsource, List.nil_append] at hway
  rw [stepsTo, hchains, wayTo_append_of_not_written hafter, wayTo, List.reverse_append]
  refine (congrArg (List.flatMap Chain.steps) hway).trans ?_
  rw [hsteps, steps_of_tail htail, opening_of_ne_nil pictureFilters_ne_nil]

theorem picture_filters (h : SectionsOf k t assets clips soundtrack) {i : Nat} {c : Clip} {a : Asset}
    (hc : t.clips[i]? = some c) (ha : assets c.source.key = some a) :
    filtersTo (.clipVideo i) (k.planOf t clips soundtrack).chains =
      k.pictureFilters (k.defaults.under t.settings) c a ++
        (c.overlays.zipIdx.map (k.drawn i)).map Prod.fst := by
  rw [← map_fst_stepsTo, h.picture_steps hc ha, List.map_append, List.map_map]
  exact congrArg (· ++ _) (List.map_id _)

theorem input_of_mem_audioChain {r : Rounding} {i n : Nat} {rate : Int} {c : Clip} {a : Asset}
    {tm : Timing} {l : Label} (hl : l ∈ (c.audioChain r i a tm n rate).inputs) :
    l.input?.isSome = true := by
  unfold Clip.audioChain at hl
  split at hl
  · rw [List.mem_singleton.mp hl]
    rfl
  · cases hl

/-- The sound of a clip is made in one chain. -/
theorem clipSound_way (h : SectionsOf k t assets clips soundtrack) {i : Nat} {c : Clip} {a : Asset}
    (hc : t.clips[i]? = some c) (ha : assets c.source.key = some a) :
    wayTo (.clipAudio i) (k.planOf t clips soundtrack).chains =
      [c.audioChain k.rounding i a ⟨c.start, k.finishOf c a, c.speed⟩ (t.clipInput i)
        (k.defaults.under t.settings).sampleRate] := by
  obtain ⟨said, hstage⟩ := h.stage_of_clip hc ha
  have hmem : c.audioChain k.rounding i a ⟨c.start, k.finishOf c a, c.speed⟩ (t.clipInput i)
      (k.defaults.under t.settings).sampleRate ∈ (k.planOf t clips soundtrack).chains :=
    List.mem_flatMap.mpr ⟨_, List.mem_of_getElem? hstage,
      List.mem_append_right _ (List.mem_singleton_self _)⟩
  have hway := wayTo_of_source h.outputs_nodup hmem fun l hl =>
    h.stream_not_written (input_of_mem_audioChain hl)
  rwa [output_audioChain] at hway

/-- The sound of an item of the soundtrack is made in one chain. -/
theorem soundtrack_way (h : SectionsOf k t assets clips soundtrack) {m : Nat} {c : Clip}
    (hc : t.soundtrack[m]? = some c) :
    wayTo (.soundtrack m) (k.planOf t clips soundtrack).chains =
      [⟨[.stream (t.soundtrackInput m) .audio],
        c.audioFilters k.rounding (c.requestedEnd? k.rounding)
          (k.defaults.under t.settings).sampleRate, .soundtrack m⟩] := by
  have hm : m < soundtrack.length := h.length_soundtrack ▸ (List.getElem?_eq_some_iff.mp hc).1
  obtain ⟨c', a, hc', -, -, hpart⟩ := h.soundtrack_getElem (List.getElem?_eq_getElem hm)
  obtain rfl := Option.some.inj (hc.symm.trans hc')
  have hstage : soundtrack[m].stage ∈ (k.planOf t clips soundtrack).stages := by
    rw [planOf_stages]
    exact List.mem_append_left _ (List.mem_append_right _
      (List.mem_map_of_mem (List.getElem_mem hm)))
  have hmem : ⟨[.stream (t.soundtrackInput m) .audio],
      c.audioFilters k.rounding (c.requestedEnd? k.rounding)
        (k.defaults.under t.settings).sampleRate, .soundtrack m⟩ ∈
      (k.planOf t clips soundtrack).chains := by
    refine List.mem_flatMap.mpr ⟨_, hstage, ?_⟩
    rw [hpart]
    exact List.mem_singleton_self _
  refine wayTo_of_source h.outputs_nodup hmem fun l hl => h.stream_not_written ?_
  rw [List.mem_singleton.mp hl]
  rfl

end SectionsOf

end Montage
