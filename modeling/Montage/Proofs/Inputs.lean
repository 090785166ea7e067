import Montage.Proofs.Sections
import Mathlib.Data.List.Nodup

/-! # The input files of a plan

Every file that a plan reads is an input **for** something: for a clip, for an image that is laid
over a clip, or for an item of the soundtrack.  `Timeline.uses` lists these uses in the order in
which the compiler adds the inputs, so the position of a use is the number of its input.

The compiler does not look numbers up; it counts.  That the count is right means that every
stream label of an assembled plan, wherever it stands, carries the position of the use that the
label is read for (`SectionsOf.stream_read`): a chain of a clip reads the input of the clip, the
chain of an image the input of the image, an item the input of the item.
-/
namespace Montage

/-! ### Positions -/

section Positions
variable {α β : Type}

/-- What the `i`-th item contributes stands behind what the items before it contribute. -/
theorem getElem?_flatMap_take {l : List α} {f : α → List β} {i r : Nat} {x : α} {y : β}
    (hx : l[i]? = some x) (hy : (f x)[r]? = some y) :
    (l.flatMap f)[((l.take i).flatMap f).length + r]? = some y := by
  induction l generalizing i with
  | nil => cases hx
  | cons first rest ih =>
    cases i with
    | zero =>
      obtain rfl : first = x := by simpa using hx
      have hr : r < (f first).length := (List.getElem?_eq_some_iff.mp hy).1
      simpa [List.getElem?_append_left hr] using hy
    | succ i =>
      have hrest : rest[i]? = some x := by simpa using hx
      rw [List.take_succ_cons, List.flatMap_cons, List.flatMap_cons, List.length_append,
        Nat.add_assoc, List.getElem?_append_right (Nat.le_add_right ..), Nat.add_sub_cancel_left]
      exact ih hrest

theorem getElem?_filterMap_take {l : List α} {f : α → Option β} {i : Nat} {x : α} {y : β}
    (hx : l[i]? = some x) (hy : f x = some y) :
    (l.filterMap f)[((l.take i).filterMap f).length]? = some y := by
  have hflat : ∀ l : List α, l.filterMap f = l.flatMap fun x => (f x).toList := fun l => by
    induction l with
    | nil => rfl
    | cons x rest ih => cases h : f x <;> simp [h, ih]
  rw [hflat, hflat]
  exact getElem?_flatMap_take (r := 0) hx (by simp [hy])

theorem pairwise_zipIdx (l : List α) : l.zipIdx.Pairwise fun a b => a.2 ≠ b.2 := by
  refine List.pairwise_map.mp ?_
  rw [List.zipIdx_map_snd]
  exact List.nodup_range'

/-- What depends on positions alone is the same for all lists of a length. -/
theorem map_zipIdx_snd (l : List α) (f : Nat → β) :
    (l.zipIdx.map fun a => f a.2) = (List.range l.length).map f := by
  rw [List.range_eq_range', ← List.zipIdx_map_snd 0 l, List.map_map]
  rfl

end Positions

/-! ### Uses -/

/-- Whether a file has a stream. -/
def Asset.has (a : Asset) : Channel → Bool
  | .video => a.hasVideo
  | .audio => a.hasAudio

/-- What a file is an input for. -/
inductive InputPlace where
  | clip (clip : Nat)
  | image (clip overlay : Nat)
  | soundtrack (item : Nat)
  deriving DecidableEq, Repr

def InputPlace.isImage : InputPlace → Bool
  | image .. => true
  | clip _ | soundtrack _ => false

/-- The stage that reads the input of a place and the label that is written from it; what is not
written to the label of an image is read for the clip itself. -/
def InputPlace.ReadBy (clips stage : Nat) (output : Label) : InputPlace → Prop
  | clip i => stage = i ∧ ∀ o, output ≠ .image i o
  | image i o => stage = i ∧ output = .image i o
  | soundtrack m => stage = clips + m

/-- The clip that a place belongs to. -/
def InputPlace.clip? : InputPlace → Option Nat
  | clip i | image i _ => some i
  | soundtrack _ => none

/-- The use of an overlay of a clip, if it is an image. -/
def imageUse? (clip : Nat) (o : Overlay × Nat) : Option (InputPlace × MediaSource) :=
  o.1.image?.map fun s => (.image clip o.2, s)

/-- The uses of a clip: the clip itself, then its images. -/
def clipUses (c : Clip × Nat) : List (InputPlace × MediaSource) :=
  (.clip c.2, c.1.source) :: c.1.overlays.zipIdx.filterMap (imageUse? c.2)

def soundtrackUse (c : Clip × Nat) : InputPlace × MediaSource := (.soundtrack c.2, c.1.source)

/-- All uses of files: clip by clip, then item by item of the soundtrack. -/
def Timeline.uses (t : Timeline) : List (InputPlace × MediaSource) :=
  t.clips.zipIdx.flatMap clipUses ++ t.soundtrack.zipIdx.map soundtrackUse

/-- The number of the input for a clip. -/
def Timeline.clipInput (t : Timeline) (i : Nat) : Nat :=
  ((t.clips.zipIdx.take i).flatMap clipUses).length

/-- The number of the input for an item of the soundtrack. -/
def Timeline.soundtrackInput (t : Timeline) (m : Nat) : Nat :=
  (t.clips.zipIdx.flatMap clipUses).length + m

theorem imageUses_sources (clip : Nat) (os : List (Overlay × Nat)) :
    (os.filterMap (imageUse? clip)).map Prod.snd = imagesOf (os.map Prod.fst) := by
  rw [List.map_filterMap, imagesOf, List.filterMap_map]
  refine congrArg (os.filterMap ·) (funext fun o => ?_)
  cases h : o.1.image? <;> simp [imageUse?, h]

theorem clipUses_sources (c : Clip × Nat) : (clipUses c).map Prod.snd = c.1.inputSources := by
  rw [clipUses, List.map_cons, imageUses_sources, List.zipIdx_map_fst]
  rfl

/-- The image at position `o` is preceded by the clip and the images before it. -/
theorem getElem?_clipUses_image {c : Clip} {i o : Nat} {ov : Overlay} {s : MediaSource}
    (hov : c.overlays[o]? = some ov) (hs : ov.image? = some s) :
    (clipUses (c, i))[1 + (imagesOf (c.overlays.take o)).length]? = some (.image i o, s) := by
  have hcount : (imagesOf (c.overlays.take o)).length =
      ((c.overlays.zipIdx.take o).filterMap (imageUse? i)).length := by
    rw [← List.length_map Prod.snd, imageUses_sources, List.map_take, List.zipIdx_map_fst]
  rw [clipUses, Nat.add_comm, List.getElem?_cons_succ, hcount]
  refine getElem?_filterMap_take (x := (ov, o)) ?_ (by simp [imageUse?, hs])
  simp [List.getElem?_zipIdx, hov]

theorem clip?_of_mem_clipUses {c : Clip × Nat} {u : InputPlace × MediaSource}
    (h : u ∈ clipUses c) : u.1.clip? = some c.2 := by
  rcases List.mem_cons.mp h with rfl | h
  · rfl
  · obtain ⟨o, -, ho⟩ := List.mem_filterMap.mp h
    obtain ⟨s, -, rfl⟩ := Option.map_eq_some_iff.mp ho
    rfl

namespace Timeline
variable {t : Timeline}

theorem getElem?_uses_clip {i r : Nat} {c : Clip} {u : InputPlace × MediaSource}
    (hc : t.clips[i]? = some c) (hu : (clipUses (c, i))[r]? = some u) :
    t.uses[t.clipInput i + r]? = some u := by
  have hpos : (t.clips.zipIdx.flatMap clipUses)[t.clipInput i + r]? = some u :=
    getElem?_flatMap_take (by simp [List.getElem?_zipIdx, hc]) hu
  rw [uses, List.getElem?_append_left (List.getElem?_eq_some_iff.mp hpos).1, hpos]

theorem getElem?_uses_soundtrack {m : Nat} {c : Clip} (hc : t.soundtrack[m]? = some c) :
    t.uses[t.soundtrackInput m]? = some (.soundtrack m, c.source) := by
  rw [uses, soundtrackInput, List.getElem?_append_right (Nat.le_add_right ..),
    Nat.add_sub_cancel_left]
  simp [List.getElem?_zipIdx, hc, soundtrackUse]

/-- **Every use has a place of its own.** -/
theorem uses_nodup (t : Timeline) : (t.uses.map Prod.fst).Nodup := by
  have images (clip : Nat) (os : List Overlay) :
      (os.zipIdx.filterMap (imageUse? clip)).Pairwise fun a b => a.1 ≠ b.1 := by
    refine (pairwise_zipIdx os).filterMap _ fun a b hab u hu v hv => ?_
    obtain ⟨s, -, rfl⟩ := Option.map_eq_some_iff.mp hu
    obtain ⟨s', -, rfl⟩ := Option.map_eq_some_iff.mp hv
    simpa using hab
  refine List.pairwise_map.mpr (List.pairwise_append.mpr
    ⟨List.pairwise_flatMap.mpr ⟨?_, ?_⟩, ?_, ?_⟩)
  · -- within a clip: the clip itself is no image, and images have their positions
    refine fun c _ => List.pairwise_cons.mpr ⟨fun u hu => ?_, images ..⟩
    obtain ⟨n, -, h⟩ := List.mem_filterMap.mp hu
    obtain ⟨s, -, rfl⟩ := Option.map_eq_some_iff.mp h
    simp
  · -- of two clips: each use says which clip it belongs to
    refine (pairwise_zipIdx t.clips).imp fun {a b} hab u hu v hv huv => hab ?_
    have hclip := clip?_of_mem_clipUses hu
    rw [huv, clip?_of_mem_clipUses hv] at hclip
    exact (Option.some.inj hclip).symm
  · refine List.pairwise_map.mpr ((pairwise_zipIdx t.soundtrack).imp fun {a b} hab => ?_)
    simpa [soundtrackUse] using hab
  · intro u hu v hv huv
    obtain ⟨c, -, hu⟩ := List.mem_flatMap.mp hu
    obtain ⟨d, -, rfl⟩ := List.mem_map.mp hv
    have hclip := clip?_of_mem_clipUses hu
    rw [huv] at hclip
    cases hclip

end Timeline

variable {k : Compiler} {out : Defaults} {assets : Assets} {t : Timeline}

/-! ### Streams of input files -/

section Streams
variable {clip index next : Nat} {inputs : List Label} {filters : List Filter}

/-- The chains of a clip's overlays read the stream that they start from, and one video stream
for each image, from `next` on in the order of the images. -/
theorem stream_mem_layers {os : List Overlay} {ch : Chain Label Filter} {j : Nat} {c : Channel}
    (hch : ch ∈ k.layers clip index next inputs filters os) (hj : .stream j c ∈ ch.inputs) :
    (.stream j c ∈ inputs ∧ ∀ o, ch.output ≠ .image clip o) ∨
      ∃ (o : Nat) (ov : Overlay) (s : MediaSource), os[o]? = some ov ∧ ov.image? = some s ∧
        ch.output = .image clip (index + o) ∧
        j = next + (imagesOf (os.take o)).length ∧ c = .video := by
  induction os generalizing index next inputs filters with
  | nil =>
    rw [Compiler.layers, List.mem_singleton] at hch
    subst hch
    exact Or.inl ⟨hj, fun o h => by cases h⟩
  | cons ov rest ih =>
    cases ho : ov.content with
    | text words hw source =>
      simp only [Compiler.layers, ho] at hch
      rcases ih hch with h | ⟨o, ov', s, hov, hs, hout, hpos, hc⟩
      · exact Or.inl h
      · refine Or.inr ⟨o + 1, ov', s, hov, hs, by rw [hout, Nat.add_right_comm]; rfl, ?_, hc⟩
        rw [List.take_succ_cons, imagesOf_cons_text ho]
        exact hpos
    | image source caption =>
      simp only [Compiler.layers, ho, List.mem_cons] at hch
      rcases hch with rfl | rfl | hch
      · exact Or.inl ⟨hj, fun o h => by cases h⟩
      · obtain ⟨rfl, rfl⟩ : j = next ∧ c = .video := by simpa using hj
        exact Or.inr ⟨0, ov, source, rfl, image?_of_image ho, rfl, rfl, rfl⟩
      · -- what follows an image starts from labels, not from a stream
        rcases ih hch with ⟨h, -⟩ | ⟨o, ov', s, hov, hs, hout, hpos, hc⟩
        · simp at h
        · refine Or.inr ⟨o + 1, ov', s, hov, hs, by rw [hout, Nat.add_right_comm]; rfl, ?_, hc⟩
          rw [List.take_succ_cons, imagesOf_cons_image ho, List.length_cons, hpos]
          omega

/-- Every image is read by a chain of its own. -/
theorem imageChain_mem_layers {os : List Overlay} {o : Nat} {ov : Overlay} {s : MediaSource}
    {n j : Nat} (hov : os[o]? = some ov) (hs : ov.image? = some s) (hn : n = index + o)
    (hj : j = next + (imagesOf (os.take o)).length) :
    ⟨[.stream j .video], ov.imageFilters, .image clip n⟩ ∈
      k.layers clip index next inputs filters os := by
  subst hn hj
  induction os generalizing index next inputs filters o with
  | nil => cases hov
  | cons first rest ih =>
    cases o with
    | zero =>
      obtain rfl : first = ov := by simpa using hov
      cases ho : first.content with
      | text words hw source => simp [Overlay.image?, ho] at hs
      | image source caption => simp [Compiler.layers, ho, imagesOf]
    | succ o =>
      have hrest : rest[o]? = some ov := by simpa using hov
      have hindex : index + (o + 1) = index + 1 + o := by omega
      rw [List.take_succ_cons, hindex]
      cases ho : first.content with
      | text words hw source =>
        simp only [Compiler.layers, ho, imagesOf_cons_text ho]
        exact ih hrest
      | image source caption =>
        have hpos : next + (imagesOf (first :: rest.take o)).length =
            next + 1 + (imagesOf (rest.take o)).length := by
          rw [imagesOf_cons_image ho, List.length_cons]
          omega
        simp only [Compiler.layers, ho, hpos]
        exact List.mem_cons_of_mem _ (List.mem_cons_of_mem _ (ih hrest))

end Streams

/-! ### Sections of a timeline -/

theorem Clip.mem_sources_of_inputSources {c : Clip} {s : MediaSource} (h : s ∈ c.inputSources) :
    s ∈ c.sources := by
  rcases List.mem_cons.mp h with rfl | h
  · exact List.mem_cons_self ..
  · obtain ⟨o, ho, hs⟩ := List.mem_filterMap.mp h
    refine List.mem_cons_of_mem _ (List.mem_filterMap.mpr ⟨o, ho, ?_⟩)
    unfold Overlay.image? at hs
    split at hs
    · cases hs
    · rename_i src caption hcontent
      rw [hcontent]
      exact hs

theorem Timeline.mem_mentions {c : Clip} {s : MediaSource} (hc : c ∈ t.clips ++ t.soundtrack)
    (hs : s ∈ c.inputSources) : s ∈ t.mentions :=
  List.mem_flatMap.mpr ⟨c, hc, Clip.mem_sources_of_inputSources hs⟩

/-- The sections that a timeline with clips, all of its files being there, is compiled to. -/
structure SectionsOf (k : Compiler) (t : Timeline) (assets : Assets)
    (clips soundtrack : List Section) : Prop where
  nonempty : t.clips ≠ []
  fetched : ∀ s ∈ t.mentions, Fetched assets s
  made : sectionsFrom (k.clipSection (k.defaults.under t.settings) assets) 0 0 t.clips = .ok clips
  madeSoundtrack : sectionsFrom (k.soundtrackSection (k.defaults.under t.settings) assets) 0
    (clips.flatMap Section.inputs).length t.soundtrack = .ok soundtrack

theorem nonempty_of_check {r : Rounding} (h : t.check r = .ok ()) : t.clips ≠ [] := by
  obtain ⟨hclips, -⟩ := andThen_eq_ok_iff.mp h
  intro hnil
  rw [ensure_eq_ok_iff, hnil] at hclips
  cases hclips

/-- A compiled plan is assembled from the sections of its timeline. -/
theorem exists_sectionsOf {p : Plan Label Filter} (h : k.compile t assets = .ok p) :
    ∃ clips soundtrack, SectionsOf k t assets clips soundtrack ∧
      p = k.planOf t clips soundtrack := by
  obtain ⟨hcheck, hneed, clips, soundtrack, hclips, hsound, -, hp⟩ := compile_eq_ok_iff.mp h
  exact ⟨clips, soundtrack,
    ⟨nonempty_of_check hcheck, needAll_eq_ok_iff.mp hneed, hclips, hsound⟩, hp⟩

namespace SectionsOf
variable {clips soundtrack : List Section}

theorem fetched_of_mem (h : SectionsOf k t assets clips soundtrack) {c : Clip}
    (hc : c ∈ t.clips ++ t.soundtrack) : ∀ s ∈ c.inputSources, Fetched assets s :=
  fun s hs => h.fetched s (Timeline.mem_mentions hc hs)

theorem length_clips (h : SectionsOf k t assets clips soundtrack) :
    clips.length = t.clips.length := sectionsFrom_length h.made

theorem length_soundtrack (h : SectionsOf k t assets clips soundtrack) :
    soundtrack.length = t.soundtrack.length := sectionsFrom_length h.madeSoundtrack

/-- Sections that were made from clips with their files there are the parts known in advance. -/
theorem eq_clipPart (h : SectionsOf k t assets clips soundtrack) {i n : Nat} {c : Clip}
    {s : Section} (hc : t.clips[i]? = some c)
    (hs : k.clipSection (k.defaults.under t.settings) assets i n c = .ok s) :
    ∃ a tm said, assets c.source.key = some a ∧ k.timing i c a = .ok (tm, said) ∧
      s = k.clipPart (k.defaults.under t.settings) assets i n c a tm said := by
  have hf := h.fetched_of_mem (List.mem_append_left _ (List.mem_of_getElem? hc))
  obtain ⟨a, ha⟩ := (hf c.source (List.mem_cons_self ..)).exists
  rw [clipSection_of_fetched ha fun s hs => hf s (List.mem_cons_of_mem _ hs)] at hs
  cases ht : k.timing i c a with
  | error f => rw [ht] at hs; cases hs
  | ok r =>
    rw [ht] at hs
    cases hs
    exact ⟨a, r.1, r.2, ha, ht, rfl⟩

theorem eq_soundtrackPart (h : SectionsOf k t assets clips soundtrack) {i n : Nat} {c : Clip}
    {s : Section} (hc : t.soundtrack[i]? = some c)
    (hs : k.soundtrackSection (k.defaults.under t.settings) assets i n c = .ok s) :
    ∃ a, assets c.source.key = some a ∧ a.hasAudio = true ∧
      s = k.soundtrackPart (k.defaults.under t.settings) i n c a := by
  have hf := h.fetched_of_mem (List.mem_append_right _ (List.mem_of_getElem? hc))
  obtain ⟨a, ha⟩ := (hf c.source (List.mem_cons_self ..)).exists
  rw [soundtrackSection_of_fetched ha] at hs
  split at hs
  · rename_i haudio
    cases hs
    exact ⟨a, ha, haudio, rfl⟩
  · cases hs

/-- Clip by clip, the inputs of a section are the files of the uses of its clip. -/
theorem inputs_clips (h : SectionsOf k t assets clips soundtrack) :
    clips.map (fun s => s.inputs.map some) =
      t.clips.zipIdx.map fun c => (clipUses c).map fun u => inputOf? assets u.2 := by
  refine sectionsFrom_map h.made fun i n c s hc hs => ?_
  obtain ⟨a, tm, said, ha, -, rfl⟩ := h.eq_clipPart hc hs
  have hf := h.fetched_of_mem (List.mem_append_left _ (List.mem_of_getElem? hc))
  have hself : inputOf? assets c.source = some ⟨a.path, []⟩ := by rw [inputOf?, ha]; rfl
  rw [show (fun u : InputPlace × MediaSource => inputOf? assets u.2) =
      inputOf? assets ∘ Prod.snd from rfl, ← List.map_map, clipUses_sources, Clip.inputSources,
    List.map_cons, hself, ← filterMap_inputOf? fun s hs => hf s (List.mem_cons_of_mem _ hs)]
  rfl

theorem inputs_soundtrack (h : SectionsOf k t assets clips soundtrack) :
    soundtrack.map (fun s => s.inputs.map some) =
      t.soundtrack.zipIdx.map fun c => [inputOf? assets c.1.source] := by
  refine sectionsFrom_map h.madeSoundtrack fun i n c s hc hs => ?_
  obtain ⟨a, ha, -, rfl⟩ := h.eq_soundtrackPart hc hs
  rw [inputOf?, ha]
  rfl

/-- **The inputs of a plan are the files of the uses, in the order of the uses.** -/
theorem inputs_eq (h : SectionsOf k t assets clips soundtrack) :
    ((clips ++ soundtrack).flatMap Section.inputs).map some =
      t.uses.map fun u => inputOf? assets u.2 := by
  rw [List.map_flatMap, List.flatMap_def, List.map_append, h.inputs_clips, h.inputs_soundtrack,
    List.flatten_append, Timeline.uses, List.map_append, List.map_flatMap, List.map_map,
    List.flatMap_def]
  refine congrArg _ ?_
  -- an item adds one input, so a list of lists of one is left to flatten
  induction t.soundtrack.zipIdx with
  | nil => rfl
  | cons c rest ih => exact congrArg _ ih

theorem length_inputs_take (h : SectionsOf k t assets clips soundtrack) (i : Nat) :
    ((clips.take i).flatMap Section.inputs).length = t.clipInput i := by
  have hmap : ((clips.take i).flatMap Section.inputs).map some =
      ((t.clips.zipIdx.take i).flatMap clipUses).map fun u => inputOf? assets u.2 := by
    rw [List.map_flatMap, List.map_flatMap, List.flatMap_def, List.flatMap_def, List.map_take,
      List.map_take, h.inputs_clips]
  simpa [Timeline.clipInput] using congrArg List.length hmap

theorem length_inputs (h : SectionsOf k t assets clips soundtrack) :
    (clips.flatMap Section.inputs).length = (t.clips.zipIdx.flatMap clipUses).length := by
  have := h.length_inputs_take clips.length
  rwa [List.take_length, Timeline.clipInput, List.take_of_length_le] at this
  exact Nat.le_of_eq (List.length_zipIdx.trans h.length_clips.symm)

theorem clip_getElem (h : SectionsOf k t assets clips soundtrack) {i : Nat} {s : Section}
    (hs : clips[i]? = some s) :
    ∃ c a tm said, t.clips[i]? = some c ∧ assets c.source.key = some a ∧
      k.timing i c a = .ok (tm, said) ∧
      s = k.clipPart (k.defaults.under t.settings) assets i (t.clipInput i) c a tm said := by
  obtain ⟨c, hc, hmake⟩ := sectionsFrom_getElem h.made hs
  rw [Nat.zero_add, Nat.zero_add, h.length_inputs_take] at hmake
  obtain ⟨a, tm, said, ha, ht, rfl⟩ := h.eq_clipPart hc hmake
  exact ⟨c, a, tm, said, hc, ha, ht, rfl⟩

theorem soundtrack_getElem (h : SectionsOf k t assets clips soundtrack) {m : Nat} {s : Section}
    (hs : soundtrack[m]? = some s) :
    ∃ c a, t.soundtrack[m]? = some c ∧ assets c.source.key = some a ∧ a.hasAudio = true ∧
      s = k.soundtrackPart (k.defaults.under t.settings) m (t.soundtrackInput m) c a := by
  obtain ⟨c, hc, hmake⟩ := sectionsFrom_getElem h.madeSoundtrack hs
  have hm : m ≤ soundtrack.length := Nat.le_of_lt (List.getElem?_eq_some_iff.mp hs).1
  have hitems : ((soundtrack.take m).flatMap Section.inputs).length = m := by
    have hone := congrArg (List.map List.length) h.inputs_soundtrack
    simp only [List.map_map, Function.comp_def, List.length_map, List.length_singleton,
      List.map_const', List.length_zipIdx] at hone
    rw [List.length_flatMap, List.map_take, hone, List.take_replicate, List.sum_replicate_nat,
      ← h.length_soundtrack, Nat.min_eq_left hm, Nat.mul_one]
  rw [Nat.zero_add, h.length_inputs, hitems] at hmake
  obtain ⟨a, ha, haudio, rfl⟩ := h.eq_soundtrackPart hc hmake
  exact ⟨c, a, hc, ha, haudio, rfl⟩

end SectionsOf

/-! ### Who reads which input -/

/-- The chains of a clip read its own input, as far as the file has the stream, and the inputs of
its images, which follow it. -/
theorem stream_mem_clipPart {i n j : Nat} {cl : Clip} {a : Asset} {tm : Timing}
    {said : List String} {ch : Chain Label Filter} {c : Channel}
    (hch : ch ∈ (k.clipPart out assets i n cl a tm said).stage.chains)
    (hj : .stream j c ∈ ch.inputs) :
    (j = n ∧ (∀ o, ch.output ≠ .image i o) ∧ a.has c = true) ∨
      ∃ (o : Nat) (ov : Overlay) (s : MediaSource), cl.overlays[o]? = some ov ∧
        ov.image? = some s ∧ ch.output = .image i o ∧
        j = n + (1 + (imagesOf (cl.overlays.take o)).length) ∧ c = .video := by
  rcases List.mem_append.mp hch with hch | hch
  · rcases stream_mem_layers hch hj with ⟨hin, hout⟩ | ⟨o, ov, s, hov, hs, hout, hpos, hc⟩
    · refine Or.inl ?_
      split at hin
      · rename_i hshown
        obtain ⟨rfl, rfl⟩ : j = n ∧ c = .video := by simpa using hin
        exact ⟨rfl, hout, (Bool.and_eq_true_iff.mp hshown).2⟩
      · cases hin
    · rw [Nat.zero_add] at hout
      exact Or.inr ⟨o, ov, s, hov, hs, hout, by omega, hc⟩
  · refine Or.inl ?_
    rw [List.mem_singleton.mp hch] at hj ⊢
    unfold Clip.audioChain at hj ⊢
    split at hj
    · rename_i haudio
      obtain ⟨rfl, rfl⟩ : j = n ∧ c = .audio := by simpa using hj
      rw [if_pos haudio]
      exact ⟨rfl, nofun, haudio⟩
    · cases hj

/-- The stages of a plan: those of clips, those of the soundtrack, and those that put them
together. -/
theorem stage_cases {clips soundtrack : List Section} {n : Nat} {st : Stage Label Filter}
    (hst : (k.planOf t clips soundtrack).stages[n]? = some st) :
    (∃ s, clips[n]? = some s ∧ st = s.stage) ∨
      (∃ m s, n = clips.length + m ∧ soundtrack[m]? = some s ∧ st = s.stage) ∨
      st ∈ finishStages (k.defaults.under t.settings) clips.length soundtrack.length := by
  rw [planOf_stages, List.append_assoc] at hst
  by_cases hn : n < clips.length
  · rw [List.getElem?_append_left (by simpa using hn), List.getElem?_map] at hst
    obtain ⟨s, hs, rfl⟩ := Option.map_eq_some_iff.mp hst
    exact Or.inl ⟨s, hs, rfl⟩
  · obtain ⟨m, rfl⟩ := Nat.exists_eq_add_of_le (Nat.not_lt.mp hn)
    rw [List.getElem?_append_right (by simp), List.length_map, Nat.add_sub_cancel_left] at hst
    by_cases hm : m < soundtrack.length
    · rw [List.getElem?_append_left (by simpa using hm), List.getElem?_map] at hst
      obtain ⟨s, hs, rfl⟩ := Option.map_eq_some_iff.mp hst
      exact Or.inr (Or.inl ⟨m, s, rfl, hs, rfl⟩)
    · rw [List.getElem?_append_right (by simpa using hm)] at hst
      exact Or.inr (Or.inr (List.mem_of_getElem? hst))

/-- The last stages read no stream of an input file. -/
theorem stream_not_mem_finish {st : Stage Label Filter} {count items j : Nat} {c : Channel}
    (hst : st ∈ finishStages out count items) :
    .stream j c ∉ st.maps ∧ ∀ ch ∈ st.chains, .stream j c ∉ ch.inputs := by
  simp only [finishStages, List.mem_append, List.mem_singleton] at hst
  rcases hst with (rfl | hst) | rfl
  · unfold joinStage
    split <;> simp
  · split at hst
    · cases hst
    · rw [List.mem_singleton.mp hst]
      simp [mixStage]
  · simp [Defaults.encodeStage]

/-- No stream of an input file goes into the output as it is. -/
theorem SectionsOf.stream_not_mem_maps {clips soundtrack : List Section}
    (h : SectionsOf k t assets clips soundtrack) {n : Nat} {st : Stage Label Filter} {j : Nat}
    {c : Channel}
    (hst : (k.planOf t clips soundtrack).stages[n]? = some st) :
    .stream j c ∉ st.maps := by
  rcases stage_cases hst with ⟨s, hs, rfl⟩ | ⟨m, s, -, hs, rfl⟩ | hst
  · obtain ⟨cl, a, tm, said, -, -, -, rfl⟩ := h.clip_getElem hs
    exact List.not_mem_nil
  · obtain ⟨cl, a, -, -, -, rfl⟩ := h.soundtrack_getElem hs
    exact List.not_mem_nil
  · exact (stream_not_mem_finish hst).1

/-- **A stream label carries the number of the input of what it is read for.**  Clips and items of
the soundtrack read only streams that their files have; images are read as pictures. -/
theorem SectionsOf.stream_read {clips soundtrack : List Section}
    (h : SectionsOf k t assets clips soundtrack) {n : Nat} {st : Stage Label Filter}
    {ch : Chain Label Filter} {j : Nat} {c : Channel}
    (hst : (k.planOf t clips soundtrack).stages[n]? = some st)
    (hch : ch ∈ st.chains) (hj : .stream j c ∈ ch.inputs) :
    ∃ place s a, t.uses[j]? = some (place, s) ∧ place.ReadBy t.clips.length n ch.output ∧
      assets s.key = some a ∧ (place.isImage = false → a.has c = true) ∧
      (place.isImage = true → c = .video) := by
  rcases stage_cases hst with ⟨s, hs, rfl⟩ | ⟨m, s, rfl, hs, rfl⟩ | hst
  · obtain ⟨cl, a, tm, said, hcl, ha, -, rfl⟩ := h.clip_getElem hs
    rcases stream_mem_clipPart hch hj with ⟨rfl, hout, hhas⟩ | ⟨o, ov, s, hov, hs, hout, rfl, hc⟩
    · refine ⟨.clip n, cl.source, a, ?_, ⟨rfl, hout⟩, ha, fun _ => hhas,
        fun h => Bool.noConfusion h⟩
      exact Timeline.getElem?_uses_clip (r := 0) hcl rfl
    · have himage : s ∈ cl.inputSources :=
        List.mem_cons_of_mem _ (List.mem_filterMap.mpr ⟨ov, List.mem_of_getElem? hov, hs⟩)
      obtain ⟨b, hb⟩ := (h.fetched_of_mem (List.mem_append_left _ (List.mem_of_getElem? hcl))
        s himage).exists
      refine ⟨.image n o, s, b, ?_, ⟨rfl, hout⟩, hb, fun h => Bool.noConfusion h, fun _ => hc⟩
      exact Timeline.getElem?_uses_clip hcl (getElem?_clipUses_image hov hs)
  · obtain ⟨cl, a, hcl, ha, haudio, rfl⟩ := h.soundtrack_getElem hs
    rw [Compiler.soundtrackPart, List.mem_singleton] at hch
    obtain ⟨rfl, rfl⟩ : j = t.soundtrackInput m ∧ c = .audio := by simpa [hch] using hj
    refine ⟨.soundtrack m, cl.source, a, Timeline.getElem?_uses_soundtrack hcl, ?_, ha,
      fun _ => haudio, fun h => Bool.noConfusion h⟩
    rw [← h.length_clips]
    rfl
  · exact absurd hj ((stream_not_mem_finish hst).2 ch hch)

end Montage
