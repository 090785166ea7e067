import Montage.Proofs.PlanLayout

/-! # Streams that files have

The engine fails on a plan that reads a stream which the file does not have.  A clip whose file
lacks a picture or a sound gets a black one or silence in its place, and a soundtrack without sound
is refused, so these read nothing that is missing.  The image of an overlay is read as a picture
whatever the file is: a plan reads only what is there exactly if every image has a picture
(`streams_present_iff`).
-/
namespace Montage

/-- Some chain of a plan reads the stream. -/
def Plan.Reads (p : TextPlan) (j : Nat) (c : Channel) : Prop :=
  ∃ st ∈ p.stages, ∃ ch ∈ st.chains, (Label.stream j c).text ∈ ch.inputs

/-- The file that is input `j` of a plan has the stream. -/
def Timeline.InputHas (t : Timeline) (assets : Assets) (p : TextPlan) (j : Nat) (c : Channel) :
    Prop :=
  ∃ u a, t.uses[j]? = some u ∧ assets u.2.key = some a ∧ p.inputs[j]? = some ⟨a.path, []⟩ ∧
    a.has c = true

/-- Every image that is laid over a clip has a picture. -/
def Timeline.ImagesShow (t : Timeline) (assets : Assets) : Prop :=
  ∀ c ∈ t.clips, ∀ o ∈ c.overlays, ∀ s, o.image? = some s →
    ∀ a, assets s.key = some a → a.hasVideo = true

variable {k : Compiler} {t : Timeline} {assets : Assets}

instance : Decidable (t.ImagesShow assets) :=
  inferInstanceAs (Decidable (∀ c ∈ t.clips, ∀ o ∈ c.overlays, ∀ s ∈ o.image?,
    ∀ a ∈ assets s.key, a.hasVideo = true))

/-- An image among the uses is one of an overlay. -/
theorem Timeline.exists_image_of_mem_uses {i o : Nat} {s : MediaSource}
    (h : (InputPlace.image i o, s) ∈ t.uses) :
    ∃ c ∈ t.clips, ∃ ov ∈ c.overlays, ov.image? = some s := by
  rcases List.mem_append.mp h with h | h
  · obtain ⟨c, hc, h⟩ := List.mem_flatMap.mp h
    rcases List.mem_cons.mp h with h | h
    · cases h
    · obtain ⟨ov, hov, h⟩ := List.mem_filterMap.mp h
      obtain ⟨s', hs', he⟩ := Option.map_eq_some_iff.mp h
      cases he
      exact ⟨c.1, List.fst_mem_of_mem_zipIdx hc, ov.1, List.fst_mem_of_mem_zipIdx hov, hs'⟩
  · obtain ⟨c, -, h⟩ := List.mem_map.mp h
    cases h

namespace SectionsOf
variable {clips soundtrack : List Section}

theorem getElem?_inputs (h : SectionsOf k t assets clips soundtrack) {j : Nat}
    {u : InputPlace × MediaSource} {a : Asset} (hu : t.uses[j]? = some u)
    (ha : assets u.2.key = some a) :
    (k.planOf t clips soundtrack).toText.inputs[j]? =
      some ⟨a.path, []⟩ := by
  have hj := congrArg (·[j]?) h.inputs_eq
  simp only [List.getElem?_map, hu, Option.map_some, inputOf?, ha] at hj
  obtain ⟨input, hinput, heq⟩ := Option.map_eq_some_iff.mp hj
  rw [Option.some.inj heq] at hinput
  exact hinput

/-- What is read of an input that is not an image is there. -/
theorem reads_cases (h : SectionsOf k t assets clips soundtrack) {j : Nat} {c : Channel}
    (hread : (k.planOf t clips soundtrack).toText.Reads j c) :
    ∃ u a, t.uses[j]? = some u ∧ assets u.2.key = some a ∧
      (u.1.isImage = false → a.has c = true) ∧ (u.1.isImage = true → c = .video) := by
  obtain ⟨st, hst, ch, hch, hj⟩ := hread
  obtain ⟨st', hst', rfl⟩ := List.mem_map.mp hst
  obtain ⟨ch', hch', rfl⟩ := List.mem_map.mp hch
  obtain ⟨n, hn⟩ := List.getElem?_of_mem hst'
  obtain ⟨place, s, a, huse, -, ha, hhas, himage⟩ :=
    h.stream_read hn hch' (mem_texts_iff.mp hj)
  exact ⟨(place, s), a, huse, ha, hhas, himage⟩

end SectionsOf

/-- **A plan reads only streams that its files have, if and only if every image has a picture.**
Whatever else is read is there: the one stream that a plan may miss is the picture of an image. -/
theorem streams_present_iff {p : Plan Label Filter} (h : k.compile t assets = .ok p) :
    (∀ j c, p.toText.Reads j c → t.InputHas assets p.toText j c ∨
      c = .video ∧ ∃ i o s a, t.uses[j]? = some (.image i o, s) ∧ assets s.key = some a ∧
        a.hasVideo = false) ∧
    ((∀ j c, p.toText.Reads j c → t.InputHas assets p.toText j c) ↔ t.ImagesShow assets) := by
  obtain ⟨clips, soundtrack, hs, rfl⟩ := exists_sectionsOf h
  have honly : ∀ j c,
      (k.planOf t clips soundtrack).toText.Reads j c →
      t.InputHas assets (k.planOf t clips soundtrack).toText j c ∨
      c = .video ∧ ∃ i o s a, t.uses[j]? = some (.image i o, s) ∧ assets s.key = some a ∧
        a.hasVideo = false := by
    intro j c hread
    obtain ⟨⟨place, s⟩, a, hu, ha, hhas, himage⟩ := hs.reads_cases hread
    cases hc : a.has c with
    | true => exact Or.inl ⟨(place, s), a, hu, ha, hs.getElem?_inputs hu ha, hc⟩
    | false =>
      cases place with
      | clip i => exact nomatch hc.symm.trans (hhas rfl)
      | soundtrack m => exact nomatch hc.symm.trans (hhas rfl)
      | image i o =>
        obtain rfl := himage rfl
        exact Or.inr ⟨rfl, i, o, s, a, hu, ha, hc⟩
  refine ⟨honly, fun hpresent => ?_, fun himages j c hread => ?_⟩
  · -- every image is read somewhere, so its picture has to be there
    intro c hc ov hov s hsrc a ha
    obtain ⟨i, hi⟩ := List.getElem?_of_mem hc
    obtain ⟨o, ho⟩ := List.getElem?_of_mem hov
    obtain ⟨j, st, huse, hst, hch⟩ := hs.exists_imageChain hi ho hsrc
    obtain ⟨u, b, hu, hb, -, hhas⟩ := hpresent j .video
      ⟨_, List.mem_map_of_mem (List.mem_of_getElem? hst), _, List.mem_map_of_mem hch,
        List.mem_cons_self ..⟩
    obtain rfl : (InputPlace.image i o, s) = u := Option.some.inj (huse.symm.trans hu)
    obtain rfl : a = b := Option.some.inj (ha.symm.trans hb)
    exact hhas
  · rcases honly j c hread with hhas | ⟨-, i, o, s, a, hu, ha, hnone⟩
    · exact hhas
    · obtain ⟨c', hc', ov, hov, hsrc⟩ := Timeline.exists_image_of_mem_uses (List.mem_of_getElem? hu)
      exact nomatch hnone.symm.trans (himages c' hc' ov hov s hsrc a ha)

/-- The files of the sample, with a sound recording in place of the image. -/
def Sample.soundForLogo : Assets := fun key =>
  if key = "url:logo.png" then some ⟨"/work/1.png", false, true, some (.finite 4)⟩
  else Sample.files 8 true key

theorem streams_present_iff_sample :
    ∃ p, Compiler.standard.compile Sample.timeline (Sample.files 8 true) = .ok p ∧
      ∀ j c, p.toText.Reads j c → Sample.timeline.InputHas (Sample.files 8 true) p.toText j c := by
  obtain ⟨p, hp⟩ := Sample.exists_plan
  exact ⟨p, hp, (streams_present_iff hp).2.mpr (by decide)⟩

/-- An image that is no picture is read all the same. -/
theorem reads_missing_picture :
    ∃ p j, Compiler.standard.compile Sample.timeline Sample.soundForLogo = .ok p ∧
      p.toText.Reads j .video ∧
      ¬ Sample.timeline.InputHas Sample.soundForLogo p.toText j .video := by
  obtain ⟨p, hp⟩ : ∃ p, Compiler.standard.compile Sample.timeline Sample.soundForLogo = .ok p :=
    exists_plan (by decide) (by decide +kernel) (by decide +kernel) (by decide +kernel)
  obtain ⟨clips, soundtrack, hs, rfl⟩ := exists_sectionsOf hp
  obtain ⟨j, st, huse, hst, hch⟩ := hs.exists_imageChain (i := 0) (o := 1) rfl rfl rfl
  refine ⟨_, j, hp, ⟨_, List.mem_map_of_mem (List.mem_of_getElem? hst), _,
    List.mem_map_of_mem hch, List.mem_cons_self ..⟩, ?_⟩
  rintro ⟨u, a, hu, ha, -, hhas⟩
  obtain rfl : (InputPlace.image 0 1, Sample.file "logo.png") = u :=
    Option.some.inj (huse.symm.trans hu)
  have hlogo : Sample.soundForLogo (Sample.file "logo.png").key =
      some ⟨"/work/1.png", false, true, some (.finite 4)⟩ := by decide
  obtain rfl := Option.some.inj (hlogo.symm.trans ha)
  cases hhas

end Montage
