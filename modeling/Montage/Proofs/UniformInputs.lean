import Montage.Proofs.FilterOrder
import Montage.Proofs.FixedForms

/-! # Streams of one format

The stages behind the clips put streams together as they come, so these have to agree: pictures in their
size, shape of pixels, rate and pixel format, sounds in their sample format, channels and rate.  A clip sees to
that itself, and it matters where on its way it does.  A picture is brought onto the canvas behind everything
that changes its size or clock, and afterwards only drawn on (`Framed`); a sound is resampled behind every
change of tempo and volume, and afterwards only filled up and cut (`Tuned`).

That this holds on every way that ends in a joining stage, with the numbers of the settings, is
`inputs_uniform`.  Pictures may go through several chains (`SectionsOf.picture_filters`), sounds go through one
each and then, joined, on to the mix (`Plan.Sounds`).
-/
namespace Montage

/-! ### Formats -/

namespace Filter

/-- A filter that cuts a picture, changes its clock, its look or its size. -/
def isShaping (f : Filter) : Bool := f.pictureStep?.isSome

/-- A filter that draws over a picture. -/
def isDrawing : Filter → Bool
  | drawText _ | overlay .. => true
  | _ => false

/-- A filter that makes a sound, cuts it, or changes its clock, tempo or volume. -/
def isSounding : Filter → Bool
  | audioTrim .. | resetAudio | tempo _ | volume _ | silence _ | audioLength _ => true
  | _ => false

/-- A filter that brings a sound to a length. -/
def isFitting : Filter → Bool
  | audioPad _ | audioLength _ => true
  | _ => false

end Filter

/-- Filters that leave a picture of one size, with square pixels, of one rate and pixel format.  It is
brought onto the canvas behind everything else that is done to it, or it is made so, and then drawn on. -/
inductive Framed (width height fps : Int) : List Filter → Prop where
  | shown {shaping drawing : List Filter} (hshaping : ∀ f ∈ shaping, f.isShaping = true)
      (hdrawing : ∀ f ∈ drawing, f.isDrawing = true) :
      Framed width height fps
        (shaping ++ [.fit width height, .pad width height, .squarePixels, .frameRate fps,
          .pixelFormat] ++ drawing)
  | black (duration : Number) {drawing : List Filter}
      (hdrawing : ∀ f ∈ drawing, f.isDrawing = true) :
      Framed width height fps
        ([.black width height fps duration, .squarePixels, .pixelFormat] ++ drawing)

/-- Filters that leave a sound of one sample format, layout and rate: it is brought there behind every
change, and then only filled up and cut. -/
inductive Tuned (rate : Int) : List Filter → Prop where
  | mk {sounding fitting : List Filter} (hsounding : ∀ f ∈ sounding, f.isSounding = true)
      (hfitting : ∀ f ∈ fitting, f.isFitting = true) :
      Tuned rate (sounding ++ [.audioFormat rate] ++ fitting)

/-- A stage that puts streams together. -/
def StageKind.joins : StageKind → Bool
  | .concat | .copy | .mix => true
  | .clip | .soundtrack | .encode => false

/-- The value behind the name of an option. -/
def optionValue? (name : String) : List String → Option String
  | n :: value :: rest => if n = name then some value else optionValue? name rest
  | _ => none

namespace Plan

/-- A picture of the format arrives at a label. -/
def Pictures (p : Plan Label Filter) (width height fps : Int) (l : Label) : Prop :=
  Framed width height fps (filtersTo l p.chains)

/-- A sound of the format arrives at a label: it was brought there on the way, or it is joined of such
sounds. -/
inductive Sounds (p : Plan Label Filter) (rate : Int) : Label → Prop where
  | tuned {l : Label} (h : Tuned rate (filtersTo l p.chains)) : Sounds p rate l
  | joined {ch : Chain Label Filter} (mem : ch ∈ p.chains)
      (joins : ch.filters = [.concatAudio ch.inputs.length] ∨ ch.filters = [.passAudio])
      (h : ∀ l ∈ ch.inputs, Sounds p rate l) : Sounds p rate ch.output

/-- The streams of a plan with some clips and items of a soundtrack are of one format where they are
put together, and the encoder has the same numbers. -/
structure Uniform (p : Plan Label Filter) (clips items : Nat) (width height fps rate : Int) :
    Prop where
  pictures : ∀ i < clips, p.Pictures width height fps (.clipVideo i)
  sounds : ∀ i < clips, Tuned rate (filtersTo (.clipAudio i) p.chains)
  soundtrack : ∀ m < items, Tuned rate (filtersTo (.soundtrack m) p.chains)
  /-- A chain that puts streams together reads either pictures or sounds. -/
  joined : ∀ st ∈ p.stages, st.kind.joins = true → ∀ ch ∈ st.chains,
    (ch.output = .outputVideo ∧ ∀ l ∈ ch.inputs, p.Pictures width height fps l) ∨
      (ch.output ≠ .outputVideo ∧ ∀ l ∈ ch.inputs, p.Sounds rate l)
  encoder : ∃ e, p.encoder? = some e ∧ optionValue? "-r" e.options = some (toString fps) ∧
    optionValue? "-ar" e.options = some (toString rate)

end Plan

/-! ### Clips and items -/

variable {k : Compiler} {out : Defaults} {c : Clip} {a : Asset} {r : Rounding}

theorem isShaping_of_mem_videoFilters (once : c.FiltersOnce) {tm : Timing} {f : Filter}
    (hf : f ∈ c.videoFilters tm) : f.isShaping = true := by
  have hstep : f.pictureStep? ∈ (c.videoFilters tm).map Filter.pictureStep? :=
    List.mem_map_of_mem hf
  rw [steps_videoFilters once] at hstep
  obtain ⟨step, -, hstep⟩ := List.mem_map.mp hstep
  rw [Filter.isShaping, ← hstep]
  rfl

theorem isDrawing_of_drawn {clip : Nat} {o : Overlay × Nat} :
    (k.drawn clip o).1.isDrawing = true := by
  unfold Compiler.drawn
  split <;> rfl

/-- **The picture of a clip is framed**, whether it comes from a file or is black. -/
theorem framed_picture (once : c.FiltersOnce) (clip : Nat) :
    Framed out.width out.height out.fps (k.pictureFilters out c a ++
      (c.overlays.zipIdx.map (k.drawn clip)).map Prod.fst) := by
  have hdrawing : ∀ f ∈ (c.overlays.zipIdx.map (k.drawn clip)).map Prod.fst,
      f.isDrawing = true := by
    rw [List.map_map, List.forall_mem_map]
    exact fun o _ => isDrawing_of_drawn
  unfold Compiler.pictureFilters
  split
  · exact Framed.shown (fun f hf => isShaping_of_mem_videoFilters once hf) hdrawing
  · exact Framed.black _ hdrawing

theorem exists_audioFilters (c : Clip) (r : Rounding) (finish : Option Number) (rate : Int) :
    ∃ sounding, (∀ f ∈ sounding, f.isSounding = true) ∧
      c.audioFilters r finish rate = sounding ++ [.audioFormat rate] := by
  refine ⟨_, fun f hf => ?_, rfl⟩
  simp only [List.mem_append, or_assoc] at hf
  rcases hf with hf | hf | hf
  · rcases List.mem_pair.mp hf with rfl | rfl <;> rfl
  · obtain ⟨x, -, rfl⟩ := List.mem_map.mp hf
    rfl
  · split at hf
    · cases hf
    · rw [List.mem_singleton.mp hf]
      rfl

theorem tuned_audioFilters (finish : Option Number) (rate : Int) :
    Tuned rate (c.audioFilters r finish rate) := by
  obtain ⟨sounding, hsounding, heq⟩ := exists_audioFilters c r finish rate
  rw [heq, ← List.append_nil (_ ++ _)]
  exact Tuned.mk hsounding fun f hf => absurd hf List.not_mem_nil

/-- **The sound of a clip is tuned**, whether it comes from a file or is silence. -/
theorem tuned_audioChain {clip input : Nat} {tm : Timing} {rate : Int} :
    Tuned rate (c.audioChain r clip a tm input rate).filters := by
  unfold Clip.audioChain
  split
  · obtain ⟨sounding, hsounding, heq⟩ := exists_audioFilters c r (some tm.finish) rate
    simp only [heq]
    exact Tuned.mk hsounding (by simp [Filter.isFitting])
  · exact @Tuned.mk rate [.silence rate, .audioLength _] [] (by simp [Filter.isSounding]) (by simp)

/-! ### Plans -/

section Plans
variable {t : Timeline} {assets : Assets} {p : Plan Label Filter}

/-- A number of the settings counts if it is given; the check refuses those that say nothing. -/
theorem orElseInt_eq {given : Option Int} {d : Int} (h : ∀ n, given = some n → n ≠ 0) :
    orElseInt given d = given.getD d := by
  cases given with
  | none => rfl
  | some n => rw [orElseInt, Option.filter_some, if_pos (by simpa using h n rfl)]

theorem under_eq_of_check {d : Defaults} {s : OutputSettings} (h : s.check = .ok ()) :
    (d.under s).width = s.width.getD d.width ∧ (d.under s).height = s.height.getD d.height ∧
      (d.under s).fps = s.fps.getD d.fps := by
  simp only [OutputSettings.check, andThen_eq_ok_iff, ifGiven_eq_ok_iff, ensure_eq_ok_iff,
    isEvenSide, Bool.and_eq_true, decide_eq_true_eq] at h
  obtain ⟨hwidth, hheight, hfps, -⟩ := h
  refine ⟨orElseInt_eq fun n hn => ?_, orElseInt_eq fun n hn => ?_, orElseInt_eq fun n hn => ?_⟩
  · have := (hwidth n hn).1
    omega
  · have := (hheight n hn).1
    omega
  · have := (hfps n hn).1
    omega

theorem optionValue?_encodeStage :
    optionValue? "-r" out.encodeStage.options = some (toString out.fps) ∧
      optionValue? "-ar" out.encodeStage.options = some (toString out.sampleRate) := ⟨rfl, rfl⟩

namespace SectionsOf
variable {clips soundtrack : List Section}

theorem pictures_clip (h : SectionsOf k t assets clips soundtrack)
    (once : ∀ c ∈ t.clips, c.FiltersOnce) {i : Nat} (hi : i < t.clips.length) :
    (k.planOf t clips soundtrack).Pictures (k.defaults.under t.settings).width
      (k.defaults.under t.settings).height (k.defaults.under t.settings).fps (.clipVideo i) := by
  have hmem := List.getElem_mem hi
  obtain ⟨a, ha⟩ := (h.fetched_of_mem (List.mem_append_left _ hmem) _ (List.mem_cons_self ..)).exists
  rw [Plan.Pictures, h.picture_filters (List.getElem?_eq_getElem hi) ha]
  exact framed_picture (once _ hmem) i

theorem tuned_clip (h : SectionsOf k t assets clips soundtrack) {i : Nat}
    (hi : i < t.clips.length) :
    Tuned (k.defaults.under t.settings).sampleRate
      (filtersTo (.clipAudio i) (k.planOf t clips soundtrack).chains) := by
  obtain ⟨a, ha⟩ := (h.fetched_of_mem (List.mem_append_left _ (List.getElem_mem hi)) _
    (List.mem_cons_self ..)).exists
  rw [filtersTo, h.clipSound_way (List.getElem?_eq_getElem hi) ha, List.flatMap_singleton]
  exact tuned_audioChain

theorem tuned_soundtrack (h : SectionsOf k t assets clips soundtrack) {m : Nat}
    (hm : m < t.soundtrack.length) :
    Tuned (k.defaults.under t.settings).sampleRate
      (filtersTo (.soundtrack m) (k.planOf t clips soundtrack).chains) := by
  rw [filtersTo, h.soundtrack_way (List.getElem?_eq_getElem hm), List.flatMap_singleton]
  exact tuned_audioFilters _ _

/-- Only the stages behind those of clips and soundtrack put streams together. -/
theorem stage_of_joins (h : SectionsOf k t assets clips soundtrack) {st : Stage Label Filter}
    (hst : st ∈ (k.planOf t clips soundtrack).stages) (hjoins : st.kind.joins = true) :
    st = joinStage clips.length (if soundtrack.length = 0 then .outputAudio else .programAudio) ∨
      soundtrack.length ≠ 0 ∧ st = mixStage soundtrack.length := by
  obtain ⟨n, hn⟩ := List.getElem?_of_mem hst
  rcases stage_cases hn with ⟨s, hs, rfl⟩ | ⟨m, s, -, hs, rfl⟩ | hfinish
  · obtain ⟨c, a, tm, said, -, -, -, rfl⟩ := h.clip_getElem hs
    cases hjoins
  · obtain ⟨c, a, -, -, -, rfl⟩ := h.soundtrack_getElem hs
    cases hjoins
  · simp only [finishStages, List.mem_append, List.mem_singleton] at hfinish
    rcases hfinish with (rfl | hmix) | rfl
    · exact Or.inl rfl
    · split at hmix
      · cases hmix
      · rename_i hitems
        exact Or.inr ⟨hitems, List.mem_singleton.mp hmix⟩
    · cases hjoins

/-- The stage that joins the clips reads all of their pictures and all of their sounds. -/
theorem joinStage_chains (count : Nat) (sound : Label) (hpos : 0 < count) :
    ∃ f g, (joinStage count sound).chains =
        [⟨(List.range count).map .clipVideo, f, .outputVideo⟩,
          ⟨(List.range count).map .clipAudio, g, sound⟩] ∧
      (g = [.concatAudio count] ∨ g = [.passAudio]) := by
  unfold joinStage
  split
  · exact ⟨_, _, rfl, Or.inl rfl⟩
  · obtain rfl : count = 1 := by omega
    exact ⟨_, _, rfl, Or.inr rfl⟩

/-- The sound of all clips comes from the stage that joins them. -/
theorem sounds_program (h : SectionsOf k t assets clips soundtrack) (hitems : soundtrack.length ≠ 0) :
    (k.planOf t clips soundtrack).Sounds (k.defaults.under t.settings).sampleRate
      .programAudio := by
  obtain ⟨f, g, hchains, hg⟩ := joinStage_chains clips.length .programAudio h.length_pos
  have hstage : joinStage clips.length .programAudio ∈ (k.planOf t clips soundtrack).stages := by
    rw [planOf_stages, finishStages, if_neg hitems, if_neg hitems]
    simp
  have hmem : ⟨(List.range clips.length).map .clipAudio, g, .programAudio⟩ ∈
      (k.planOf t clips soundtrack).chains :=
    List.mem_flatMap.mpr ⟨_, hstage, by rw [hchains]; simp⟩
  refine Plan.Sounds.joined hmem ?_ fun l hl => .tuned ?_
  · rw [List.length_map, List.length_range]
    exact hg
  · obtain ⟨i, hi, rfl⟩ := List.mem_map.mp hl
    exact h.tuned_clip (h.length_clips ▸ List.mem_range.mp hi)

/-- **What is put together is of one kind and one format.** -/
theorem inputs_of_joins (h : SectionsOf k t assets clips soundtrack)
    (once : ∀ c ∈ t.clips, c.FiltersOnce) {st : Stage Label Filter}
    (hst : st ∈ (k.planOf t clips soundtrack).stages) (hjoins : st.kind.joins = true)
    {ch : Chain Label Filter} (hch : ch ∈ st.chains) :
    (ch.output = .outputVideo ∧ ∀ l ∈ ch.inputs,
        (k.planOf t clips soundtrack).Pictures (k.defaults.under t.settings).width
          (k.defaults.under t.settings).height (k.defaults.under t.settings).fps l) ∨
      (ch.output ≠ .outputVideo ∧ ∀ l ∈ ch.inputs,
        (k.planOf t clips soundtrack).Sounds (k.defaults.under t.settings).sampleRate l) := by
  rcases h.stage_of_joins hst hjoins with rfl | ⟨hitems, rfl⟩
  · obtain ⟨f, g, hchains, -⟩ := joinStage_chains clips.length
      (if soundtrack.length = 0 then .outputAudio else .programAudio) h.length_pos
    rw [hchains] at hch
    rcases List.mem_pair.mp hch with rfl | rfl
    · refine Or.inl ⟨rfl, fun l hl => ?_⟩
      obtain ⟨i, hi, rfl⟩ := List.mem_map.mp hl
      exact h.pictures_clip once (h.length_clips ▸ List.mem_range.mp hi)
    · refine Or.inr ⟨by show ite _ _ _ ≠ _; split <;> simp, fun l hl => ?_⟩
      obtain ⟨i, hi, rfl⟩ := List.mem_map.mp hl
      exact .tuned (h.tuned_clip (h.length_clips ▸ List.mem_range.mp hi))
  · rw [mixStage, List.mem_singleton] at hch
    rw [hch]
    refine Or.inr ⟨(by simp),
      List.forall_mem_cons.mpr ⟨h.sounds_program hitems, fun l hl => ?_⟩⟩
    obtain ⟨m, hm, rfl⟩ := List.mem_map.mp hl
    exact .tuned (h.tuned_soundtrack (h.length_soundtrack ▸ List.mem_range.mp hm))

end SectionsOf

/-- **The streams of a plan agree where they are put together.**  The pictures of all clips have the
size and the rate of the settings, the sounds of clips and soundtrack the sample rate, and the encoder
is told the same. -/
theorem inputs_uniform (h : k.compile t assets = .ok p) :
    p.Uniform t.clips.length t.soundtrack.length (t.settings.width.getD k.defaults.width)
      (t.settings.height.getD k.defaults.height) (t.settings.fps.getD k.defaults.fps)
      k.defaults.sampleRate := by
  have hcheck := (compile_eq_ok_iff.mp h).1
  have hencoder := encoder?_of_compile h
  obtain ⟨hwidth, hheight, hfps⟩ :=
    under_eq_of_check (d := k.defaults) (settings_checked hcheck)
  rw [← hwidth, ← hheight, ← hfps]
  obtain ⟨clips, soundtrack, hs, rfl⟩ := exists_sectionsOf h
  have once : ∀ c ∈ t.clips, c.FiltersOnce := fun c hc =>
    filtersOnce_of_check (clips_checked hcheck c (List.mem_append_left _ hc))
  exact
    { pictures := fun i hi => hs.pictures_clip once hi
      sounds := fun i hi => hs.tuned_clip hi
      soundtrack := fun m hm => hs.tuned_soundtrack hm
      joined := fun st hst hjoins ch hch => hs.inputs_of_joins once hst hjoins hch
      encoder := ⟨_, hencoder, optionValue?_encodeStage⟩ }

/-- Two clips with overlays and a song. -/
theorem inputs_uniform_sample :
    ∃ p, Compiler.standard.compile Sample.timeline (Sample.files 8 true) = .ok p ∧
      p.Uniform 2 1 1280 720 30 48000 := by
  obtain ⟨p, hp⟩ := Sample.exists_plan
  exact ⟨p, hp, inputs_uniform hp⟩

end Plans

end Montage
