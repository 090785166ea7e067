import Montage.Proofs.ExactNumbers
import Montage.Proofs.WrittenLengths

/-! # Lengths of clips and the length of the whole

The length of a clip on the output is written wherever its picture or its sound is filled up, cut or made,
and the lengths of all clips are summed up for the length of the plan.  Both start from one number
(`Compiler.lengthIn`), so in exact arithmetic one text stands at all of these places
(`lengths_add_up`), and the length of the plan is off of the sum of what is written by half a millionth
for each clip and once more for the sum (`abs_total_sub_le`).
-/
namespace Montage

open Plan Number

/-- Length of a clip on the output, with the files at hand. -/
def Compiler.lengthIn (k : Compiler) (assets : Assets) (c : Clip) : Number :=
  ((assets c.source.key).map (k.lengthOf c)).getD .nan

section Lengths
variable {k : Compiler} {t : Timeline} {assets : Assets} {p : Plan Label Filter} {c : Clip} {a : Asset}

theorem lengthIn_of_fetched (ha : assets c.source.key = some a) :
    k.lengthIn assets c = k.lengthOf c a := by
  rw [Compiler.lengthIn, ha]
  rfl

/-- Each section has the length of its clip. -/
theorem SectionsOf.durations_eq {clips soundtrack : List Section}
    (h : SectionsOf k t assets clips soundtrack) :
    clips.map Section.duration = t.clips.map (k.lengthIn assets) := by
  have hfst : t.clips.map (k.lengthIn assets) =
      t.clips.zipIdx.map fun c => k.lengthIn assets c.1 := by
    rw [← List.zipIdx_map_fst 0 t.clips, List.map_map, List.zipIdx_map_fst]
    rfl
  rw [hfst]
  refine sectionsFrom_map h.made fun i n c s hc hs => ?_
  obtain ⟨a, tm, said, ha, htiming, rfl⟩ := h.eq_clipPart hc hs
  obtain ⟨rfl, -⟩ := timing_eq_ok htiming
  exact (lengthIn_of_fetched ha).symm

/-- **The length of a plan is the sum of the lengths of its clips**, in whole millionths. -/
theorem duration_eq (h : k.compile t assets = .ok p) :
    p.duration = roundSix k.rounding (total k.rounding (t.clips.map (k.lengthIn assets))) := by
  obtain ⟨clips, soundtrack, hs, rfl⟩ := exists_sectionsOf h
  rw [← hs.durations_eq]
  rfl

/-- In exact arithmetic the length of a clip is its range divided by its speed. -/
theorem rat_lengthOf_exact (exact : k.rounding = .exact) (hc : c.IsFinite)
    (h : (k.lengthOf c a).isFinite = true) : (k.lengthOf c a).rat = k.exactLength c a := by
  have hfinish := isFinite_of_lengthOf hc h
  rw [Compiler.lengthOf, Timing.duration, exact,
    rat_div_exact (isFinite_sub_exact hfinish hc.start.1) hc.speed hc.forward.ne',
    rat_sub_exact hfinish hc.start.1, Compiler.exactLength]

/-- The lengths that are written are off of the lengths by half a millionth each. -/
theorem abs_sum_written_sub_le (xs : List Number) :
    |(xs.map written).sum - (xs.map rat).sum| ≤ xs.length * (1 / 2000000) := by
  induction xs with
  | nil => simp
  | cons x rest ih =>
    have hx := abs_written_sub_le x
    rw [List.map_cons, List.map_cons, List.sum_cons, List.sum_cons, List.length_cons]
    calc |x.written + (rest.map written).sum - (x.rat + (rest.map rat).sum)|
        = |x.written - x.rat + ((rest.map written).sum - (rest.map rat).sum)| := by ring_nf
      _ ≤ |x.written - x.rat| + |(rest.map written).sum - (rest.map rat).sum| := abs_add_le _ _
      _ ≤ 1 / 2000000 + rest.length * (1 / 2000000) := add_le_add hx ih
      _ = (rest.length + 1 : Nat) * (1 / 2000000) := by push_cast; ring

/-- **A sum in whole millionths is off of the sum of what is written by half a millionth for each number
and once more.** -/
theorem abs_total_sub_le {xs : List Number} (h : ∀ x ∈ xs, x.isFinite = true) :
    |(roundSix .exact (total .exact xs)).rat - (xs.map written).sum| ≤
      (xs.length + 1) * (1 / 2000000) := by
  have hfinite : (total .exact xs).isFinite = true := isFinite_foldl_add_exact rfl h
  have hsum : (total .exact xs).rat = (xs.map rat).sum :=
    (rat_foldl_add_exact rfl h).trans (zero_add _)
  have hround := abs_written_sub_le (total .exact xs)
  have hwritten := abs_sum_written_sub_le xs
  rw [rat_roundSix_exact hfinite]
  rw [hsum] at hround
  rw [abs_sub_comm] at hwritten
  calc |(total .exact xs).written - (xs.map written).sum|
      ≤ |(total .exact xs).written - (xs.map rat).sum| +
        |(xs.map rat).sum - (xs.map written).sum| := abs_sub_le _ _ _
    _ ≤ 1 / 2000000 + xs.length * (1 / 2000000) := add_le_add hround hwritten
    _ = (xs.length + 1) * (1 / 2000000) := by ring

/-- Where lengths are said of a picture: only where it is black. -/
theorem lengths_pictureTimes : ((k.pictureTimes c a).map (Times.map sixPlaces)).filterMap
    Times.length? = if c.isShown a then [] else [(k.lengthOf c a).sixPlaces] := by
  have hdivisors : (c.divisors.map (Times.map sixPlaces)).filterMap Times.length? = [] := by
    unfold Clip.divisors
    split <;> rfl
  rw [Compiler.pictureTimes, List.map_append, List.filterMap_append, windows_silent fun _ _ => rfl,
    List.append_nil]
  cases c.isShown a with
  | true => exact hdivisors
  | false => rfl

/-- Where lengths are said of a sound: one from a file is filled up and cut, silence is cut. -/
theorem lengths_soundTimes : ((k.soundTimes c a).map (Times.map sixPlaces)).filterMap
    Times.length? = if a.hasAudio then [(k.lengthOf c a).sixPlaces, (k.lengthOf c a).sixPlaces]
      else [(k.lengthOf c a).sixPlaces] := by
  unfold Compiler.soundTimes
  cases a.hasAudio <;> rfl

end Lengths

/-- **One text for the length of a clip, and the length of a plan is that of its clips.**  In exact
arithmetic the six places of the range divided by the speed stand for each clip wherever its length is
written: where a black picture is made, where a sound is filled up and cut, and where silence is cut.  No
other length is written.  The length of the plan is off of the sum of these by half a millionth for each
clip and once more at most, and the soundtrack adds nothing to it. -/
theorem lengths_add_up (k : Compiler) (t : Timeline) (assets : Assets) (p : Plan Label Filter)
    (exact : k.rounding = .exact) (h : k.compile t assets = .ok p)
    (finite : p.duration.isFinite = true) :
    ∃ (texts : List String) (lengths : List ℚ), texts.length = t.clips.length ∧
      texts.map readPlaces? = lengths.map some ∧
      (∀ (i : Nat) (c : Clip) (a : Asset), t.clips[i]? = some c → assets c.source.key = some a →
        ∃ d pictures sound, texts[i]? = some d ∧
          d = sixPlacesRat (((k.finishOf c a).rat - c.start.rat) / c.speed.rat) ∧
          p.toText.ReadsClip i pictures sound ∧
          (pictures.flatMap Chain.readTimes).filterMap Times.length? =
            (if c.isShown a then [] else [d]) ∧
          sound.readTimes.filterMap Times.length? = if a.hasAudio then [d, d] else [d]) ∧
      (∃ times, (readGraph? p.toText.graph).map (List.flatMap Chain.readTimes) = some times ∧
        ∀ d, .length d ∈ times ↔ d ∈ texts) ∧
      |p.duration.rat - lengths.sum| ≤ (t.clips.length + 1) * (5 / 10 ^ 7) ∧
      ∀ (u : Timeline) (q : Plan Label Filter), u.clips = t.clips →
        k.compile u assets = .ok q → q.duration = p.duration := by
  have measures := measures_of_duration h finite
  have hchecked := Timeline.isFinite_of_check (compile_eq_ok_iff.mp h).1
  have hfetched := needAll_eq_ok_iff.mp (compile_eq_ok_iff.mp h).2.1
  have hfile : ∀ c ∈ t.clips, ∃ a, assets c.source.key = some a := fun c hc =>
    (hfetched c.source (List.mem_flatMap.mpr
      ⟨c, List.mem_append_left _ hc, List.mem_cons_self⟩)).exists
  have hall : ∀ x ∈ t.clips.map (k.lengthIn assets), x.isFinite = true := by
    rw [List.forall_mem_map]
    intro c hc
    obtain ⟨a, ha⟩ := hfile c hc
    rw [lengthIn_of_fetched ha]
    exact measures c hc a ha
  refine ⟨(t.clips.map (k.lengthIn assets)).map sixPlaces,
    (t.clips.map (k.lengthIn assets)).map written, by simp, ?_, ?_, ?_, ?_, ?_⟩
  · rw [List.map_map (g := readPlaces?), List.map_map (g := some)]
    exact List.map_congr_left fun x hx => readPlaces?_sixPlaces (hall x hx)
  · intro i c a hc ha
    obtain ⟨pictures, sound, hreads, hpictures, hsound⟩ := exists_readsClip h hc ha
    have hmem := List.mem_of_getElem? hc
    have hlength := measures c hmem a ha
    have htext : (k.lengthOf c a).sixPlaces = sixPlacesRat (k.exactLength c a) := by
      rw [sixPlaces_eq hlength,
        rat_lengthOf_exact exact (hchecked c (List.mem_append_left _ hmem)) hlength]
    refine ⟨(k.lengthOf c a).sixPlaces, pictures, sound, ?_, htext, hreads, ?_, ?_⟩
    · simp [hc, lengthIn_of_fetched ha]
    · rw [hpictures, lengths_pictureTimes]
    · rw [hsound, lengths_soundTimes]
  · refine ⟨_, readTimes_of_compile h, fun d => (length_mem_writtenTimes_iff h).trans ?_⟩
    simp only [List.map_map, List.mem_map, Function.comp_apply]
    constructor
    · rintro ⟨c, hc, a, ha, hd⟩
      exact ⟨c, hc, by rw [lengthIn_of_fetched ha, hd]⟩
    · rintro ⟨c, hc, hd⟩
      obtain ⟨a, ha⟩ := hfile c hc
      exact ⟨c, hc, a, ha, by rw [← lengthIn_of_fetched ha, hd]⟩
  · have htotal := abs_total_sub_le hall
    rw [duration_eq h, exact]
    rw [List.length_map] at htotal
    norm_num at htotal ⊢
    exact htotal
  · intro u q hclips hq
    rw [duration_eq hq, duration_eq h, hclips]

/-- A song without a picture at seven times its speed, then a picture without a sound. -/
def Sample.cards : Timeline :=
  { film with
    clips := [{ Clip.whole (file "song.mp3") .audio (.finite 1) with speed := .finite 7 },
      Clip.whole (file "logo.png") .video (.finite 1)] }

/-- Ninety seconds at seven times the speed, and the ten seconds that are assumed. -/
theorem lengths_add_up_cards : ∃ p, Sample.unrounded.compile Sample.cards (Sample.files 8 true) = .ok p ∧
    p.duration.isFinite = true ∧ |p.duration.rat - (12857143 / 1000000 + 10)| ≤ 3 * (5 / 10 ^ 7) ∧
    ∃ times, (readGraph? p.toText.graph).map (List.flatMap Chain.readTimes) = some times ∧
      ∀ d, .length d ∈ times ↔ d = "12.857143" ∨ d = "10" := by
  obtain ⟨p, hp⟩ : ∃ p, Sample.unrounded.compile Sample.cards (Sample.files 8 true) = .ok p :=
    exists_plan (by decide +kernel) (by decide +kernel) (by decide +kernel) (by decide +kernel)
  have measures : Sample.unrounded.Measures Sample.cards (Sample.files 8 true) := by
    have hlengths : ∀ c ∈ Sample.cards.clips, ((Sample.files 8 true c.source.key).all fun a =>
        (Sample.unrounded.lengthOf c a).isFinite) = true := by decide +kernel
    intro c hc a ha
    have hlength := hlengths c hc
    rwa [ha] at hlength
  have finite : p.duration.isFinite = true := isFinite_duration_exact rfl hp measures
  obtain ⟨texts, lengths, hlength, hread, hclips, ⟨times, hgraph, htimes⟩, hsum, -⟩ :=
    lengths_add_up Sample.unrounded Sample.cards (Sample.files 8 true) p rfl hp finite
  obtain ⟨first, -, -, hfirst, hsong, -⟩ := hclips 0 _ _ rfl rfl
  obtain ⟨second, -, -, hsecond, hpicture, -⟩ := hclips 1 _ _ rfl rfl
  have hfirst' : texts[0]? = some "12.857143" :=
    hfirst.trans (congrArg some (hsong.trans (by decide +kernel)))
  have hsecond' : texts[1]? = some "10" :=
    hsecond.trans (congrArg some (hpicture.trans (by decide +kernel)))
  obtain ⟨x, y, rfl⟩ := List.length_eq_two.mp (hlength.trans rfl)
  cases hfirst'
  cases hsecond'
  have hvalues : ["12.857143", "10"].map readPlaces? =
      ([12857143 / 1000000, 10] : List ℚ).map some := by decide +kernel
  obtain rfl : [12857143 / 1000000, 10] = lengths :=
    List.map_injective_iff.mpr (Option.some_injective ℚ) (hvalues.symm.trans hread)
  refine ⟨p, hp, finite, ?_, times, hgraph, fun d => (htimes d).trans List.mem_pair⟩
  have hsum' : (12857143 / 1000000 + 10 : ℚ) = ([12857143 / 1000000, 10] : List ℚ).sum := by
    norm_num
  rw [hsum']
  exact hsum.trans_eq (by norm_num [Sample.cards])

end Montage
