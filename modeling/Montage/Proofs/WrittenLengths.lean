import Montage.Proofs.NearestError
import Montage.Proofs.WrittenTimes

/-! # Pictures and sounds of one length

The clips of a plan are put one after the other, pictures and sounds apart, so a clip whose picture is
longer than its sound shifts all that follow.  The picture gets its length by way of a range and a
divisor, the sound is cut at a length; all of these are rounded to six places on their own.

Both lengths can be read of the graph (`Plan.ReadsClip`, `pictureLength?_of_shown`,
`soundLength?_of_clip`).  What the rounding of the range and of the speed does to the picture grows with
the length of the clip and is divided by its speed (`Compiler.gap`, `abs_written_lengths_le`), which is
less than a frame only if the clip is not too long for its speed (`gap_le`).
-/
namespace Montage

open Plan Number

/-! ### What is read of a clip -/

namespace Times

def range? {α : Type} : Times α → Option (α × α)
  | range s e => some (s, e)
  | _ => none

def length? {α : Type} : Times α → Option α
  | length d => some d
  | _ => none

def divisor? {α : Type} : Times α → Option α
  | divisor x => some x
  | _ => none

/-- By what a clock is divided: by the one divisor, which has to be above nought, and without a divisor
by one. -/
def factor? : List String → Option ℚ
  | [] => some 1
  | [x] => (readPlaces? x).filter (0 < ·)
  | _ => none

/-- The length of a picture that is cut out of a file: that of the one range, divided by the clock. -/
def pictureLength? (times : List (Times String)) : Option ℚ :=
  match times.filterMap range? with
  | [(s, e)] => do
    let s ← readPlaces? s
    let e ← readPlaces? e
    let x ← factor? (times.filterMap divisor?)
    some ((e - s) / x)
  | _ => none

/-- The length of a sound: it is cut there, and if it is filled up then to the same length. -/
def soundLength? (times : List (Times String)) : Option ℚ :=
  match times.filterMap length? with
  | [d] => readPlaces? d
  | [filled, d] => if filled = d then readPlaces? d else none
  | _ => none

end Times

section Lengths
variable {k : Compiler} {c : Clip} {a : Asset}

theorem windows_silent {β : Type} {read : Times String → Option β}
    (h : ∀ s e, read (.window s e) = none) (os : List Overlay) :
    ((os.filterMap Overlay.times?).map (Times.map sixPlaces)).filterMap read = [] := by
  rw [List.filterMap_eq_nil_iff, List.forall_mem_map]
  intro m hm
  obtain ⟨o, -, ho⟩ := List.mem_filterMap.mp hm
  obtain ⟨e, -, rfl⟩ := Overlay.times?_eq_some_iff.mp ho
  exact h _ _

/-- **The clock of a picture is divided by the speed as it is written**, unless that is nought. -/
theorem factor?_divisors (hc : c.IsFinite) :
    Times.factor? ((c.divisors.map (Times.map sixPlaces)).filterMap Times.divisor?) =
      if 1 / 2000000 < c.speed.rat then some c.speed.written else none := by
  unfold Clip.divisors
  by_cases hsame : Number.same c.speed (.finite 1) = true
  · have hone : c.speed.rat = 1 := by
      obtain ⟨hle, hge⟩ := Bool.and_eq_true_iff.mp hsame
      exact le_antisymm (rat_le_of_le hc.speed rfl hle) (rat_le_of_le rfl hc.speed hge)
    have hwritten : c.speed.written = 1 := by
      rw [written_of_millionths (n := 1000000) (by rw [hone]; norm_num), hone]
    rw [if_pos hsame, if_pos (by rw [hone]; norm_num), hwritten]
    rfl
  · have hread : Times.factor? [c.speed.sixPlaces] =
        if 1 / 2000000 < c.speed.rat then some c.speed.written else none := by
      rw [Times.factor?, readPlaces?_sixPlaces hc.speed, Option.filter_some]
      simp only [decide_eq_true_eq, written_pos_iff]
    rw [if_neg hsame]
    exact hread

/-- **The length of a picture is read** if its range ends and its clock is divided by more than
nought. -/
theorem pictureLength?_of_shown (hc : c.IsFinite) (shown : c.isShown a = true) :
    Times.pictureLength? ((k.pictureTimes c a).map (Times.map sixPlaces)) =
      if (k.finishOf c a).isFinite = true ∧ 1 / 2000000 < c.speed.rat then
        some (((k.finishOf c a).written - c.start.written) / c.speed.written)
      else none := by
  have hranges : ((k.pictureTimes c a).map (Times.map sixPlaces)).filterMap Times.range? =
      [(c.start.sixPlaces, (k.finishOf c a).sixPlaces)] := by
    have hdivisors : (c.divisors.map (Times.map sixPlaces)).filterMap Times.range? = [] := by
      unfold Clip.divisors
      split <;> rfl
    rw [Compiler.pictureTimes, if_pos shown, List.map_append, List.filterMap_append,
      windows_silent (fun _ _ => rfl), List.append_nil, List.map_cons]
    exact congrArg (_ :: ·) hdivisors
  have hfactor : ((k.pictureTimes c a).map (Times.map sixPlaces)).filterMap Times.divisor? =
      (c.divisors.map (Times.map sixPlaces)).filterMap Times.divisor? := by
    rw [Compiler.pictureTimes, if_pos shown, List.map_append, List.filterMap_append,
      windows_silent (fun _ _ => rfl), List.map_cons, List.filterMap_cons_none rfl, List.append_nil]
  rw [Times.pictureLength?, hranges, hfactor, factor?_divisors hc]
  simp only [readPlaces?_sixPlaces hc.start.1, Option.bind_eq_bind, Option.bind_some]
  by_cases hfinish : (k.finishOf c a).isFinite = true
  · rw [readPlaces?_sixPlaces hfinish]
    by_cases hspeed : 1 / 2000000 < c.speed.rat
    · rw [if_pos hspeed, if_pos ⟨hfinish, hspeed⟩]
      rfl
    · have hnot : ¬ ((k.finishOf c a).isFinite = true ∧ 1 / 2000000 < c.speed.rat) :=
        fun h => hspeed h.2
      rw [if_neg hspeed, if_neg hnot]
      rfl
  · have hnot : ¬ ((k.finishOf c a).isFinite = true ∧ 1 / 2000000 < c.speed.rat) :=
      fun h => hfinish h.1
    rw [readPlaces?_of_not_isFinite (by simpa using hfinish), if_neg hnot]
    rfl

/-- **The length of a sound is read** if its clip has one. -/
theorem soundLength?_of_clip :
    Times.soundLength? ((k.soundTimes c a).map (Times.map sixPlaces)) =
      if (k.lengthOf c a).isFinite = true then some (k.lengthOf c a).written else none := by
  -- a sound from a file is filled up and then cut, to one length
  have hlengths : Times.soundLength? ((k.soundTimes c a).map (Times.map sixPlaces)) =
      readPlaces? (k.lengthOf c a).sixPlaces := by
    unfold Compiler.soundTimes
    cases a.hasAudio with
    | true => exact if_pos rfl
    | false => rfl
  rw [hlengths]
  split
  · rename_i h
    exact readPlaces?_sixPlaces h
  · rename_i h
    exact readPlaces?_of_not_isFinite (by simpa using h)

end Lengths

/-! ### How far lengths are apart -/

section Gap
variable {k : Compiler} {c : Clip} {a : Asset}

/-- The length of a clip without rounding. -/
def Compiler.exactLength (k : Compiler) (c : Clip) (a : Asset) : ℚ :=
  ((k.finishOf c a).rat - c.start.rat) / c.speed.rat

/-- The length that a compiler computes is off by little more than its rounding. -/
theorem abs_lengthOf_sub_le (close : k.rounding.Close) (hc : c.IsFinite)
    (h : (k.lengthOf c a).isFinite = true) :
    |(k.lengthOf c a).rat - k.exactLength c a| ≤
      3 * |k.exactLength c a| / 2 ^ 53 + 2 * (1 + 1 / c.speed.rat) * 2 ^ (-1075 : Int) := by
  have hfinish := isFinite_of_lengthOf hc h
  have hrange : (Number.sub k.rounding (k.finishOf c a) c.start).isFinite = true :=
    isFinite_of_div hc.speed h
  have hsub := sub_close close hfinish hc.start.1 hrange
  have hdiv := div_close close hrange hc.speed hc.forward.ne' h
  have hlength : k.lengthOf c a =
      Number.div k.rounding (Number.sub k.rounding (k.finishOf c a) c.start) c.speed := rfl
  rw [← hlength] at hdiv
  have hv := hc.forward
  have hη : (0 : ℚ) ≤ 2 ^ (-1075 : Int) := by positivity
  unfold Compiler.exactLength
  generalize (2 : ℚ) ^ (-1075 : Int) = η at *
  generalize (k.lengthOf c a).rat = l at *
  generalize (Number.sub k.rounding (k.finishOf c a) c.start).rat = w at *
  generalize (k.finishOf c a).rat - c.start.rat = g at *
  generalize c.speed.rat = v at *
  -- the quotient of the rounded difference is off by the error of the difference
  have hquotient : |w / v - g / v| ≤ |g / v| / 2 ^ 53 + η / v := by
    rw [← sub_div, abs_div, abs_div, abs_of_pos hv]
    calc |w - g| / v ≤ (|g| / 2 ^ 53 + η) / v := div_le_div_of_nonneg_right hsub hv.le
      _ = |g| / v / 2 ^ 53 + η / v := by ring
  have hsize : |w / v| ≤ |g / v| + (|g / v| / 2 ^ 53 + η / v) := by
    have htriangle := abs_sub_abs_le_abs_sub (w / v) (g / v)
    linarith
  have hunits : 2 * (1 + 1 / v) * η = 2 * η + 2 * (η / v) := by ring
  have hrest : 0 ≤ η / v := by positivity
  have habs := abs_nonneg (g / v)
  calc |l - g / v| ≤ |l - w / v| + |w / v - g / v| := abs_sub_le _ _ _
    _ ≤ (|w / v| / 2 ^ 53 + η) + (|g / v| / 2 ^ 53 + η / v) := add_le_add hdiv hquotient
    _ ≤ 3 * |g / v| / 2 ^ 53 + 2 * (1 + 1 / v) * η := by
      rw [hunits]
      linarith

/-- How far the lengths of a clip's picture and sound can be apart when they are read: the ends of the
range, the speed and the length are written with six places each, and what is off of the range is
divided by the speed. -/
def Compiler.gap (k : Compiler) (c : Clip) (a : Asset) : ℚ :=
  (1 / 1000000 + |k.exactLength c a| * |c.speed.written - c.speed.rat|) / c.speed.written +
    |(k.lengthOf c a).rat - k.exactLength c a| + 1 / 2000000

/-- **The lengths that are read are no further apart.** -/
theorem abs_written_lengths_le (forward : 0 < c.speed.rat) (hwritten : 0 < c.speed.written) :
    |((k.finishOf c a).written - c.start.written) / c.speed.written - (k.lengthOf c a).written| ≤
      k.gap c a := by
  have hfinish := abs_written_sub_le (k.finishOf c a)
  have hstart := abs_written_sub_le c.start
  have hlength := abs_written_sub_le (k.lengthOf c a)
  unfold Compiler.gap Compiler.exactLength
  generalize (k.finishOf c a).written = e' at *
  generalize (k.finishOf c a).rat = e at *
  generalize c.start.written = s' at *
  generalize c.start.rat = s at *
  generalize c.speed.written = v' at *
  generalize c.speed.rat = v at *
  generalize (k.lengthOf c a).written = l' at *
  generalize (k.lengthOf c a).rat = l at *
  have hrange : (e - s) / v * v = e - s := div_mul_cancel₀ _ forward.ne'
  generalize (e - s) / v = d at *
  have hoff : (e' - s') / v' - d = ((e' - e) - (s' - s) - d * (v' - v)) / v' := by
    rw [eq_div_iff hwritten.ne', sub_mul, div_mul_cancel₀ _ hwritten.ne']
    linarith
  have hsum : |(e' - e) - (s' - s) - d * (v' - v)| ≤ 1 / 1000000 + |d| * |v' - v| := by
    have htriangle := abs_sub ((e' - e) - (s' - s)) (d * (v' - v))
    have hends := abs_sub (e' - e) (s' - s)
    rw [abs_mul] at htriangle
    linarith
  have hpicture : |(e' - s') / v' - d| ≤ (1 / 1000000 + |d| * |v' - v|) / v' := by
    rw [hoff, abs_div, abs_of_pos hwritten]
    exact div_le_div_of_nonneg_right hsum hwritten.le
  calc |(e' - s') / v' - l'| ≤ |(e' - s') / v' - d| + |d - l'| := abs_sub_le _ _ _
    _ ≤ |(e' - s') / v' - d| + (|d - l| + |l - l'|) := by
      have htriangle := abs_sub_le d l l'
      linarith
    _ ≤ (1 / 1000000 + |d| * |v' - v|) / v' + |l - d| + 1 / 2000000 := by
      rw [abs_sub_comm d l, abs_sub_comm l l']
      linarith

/-- What rounding does to a length is a small multiple of a millionth divided by the speed. -/
theorem abs_lengthOf_sub_le_unit (close : k.rounding.Close) (hc : c.IsFinite)
    (h : (k.lengthOf c a).isFinite = true) (slow : c.speed.rat ≤ 100) :
    |(k.lengthOf c a).rat - k.exactLength c a| ≤
      (|k.exactLength c a| + 1) * (1 / 1000000 / c.speed.rat) := by
  have hlength := abs_lengthOf_sub_le close hc h
  have hv := hc.forward
  have hη : (2 : ℚ) ^ (-1075 : Int) ≤ 1 / 2 ^ 53 := by
    have hle := zpow_le_zpow_right₀ (one_le_two (α := ℚ)) (show (-1075 : Int) ≤ -53 by norm_num)
    exact hle.trans_eq (by norm_num)
  generalize (2 : ℚ) ^ (-1075 : Int) = η at *
  have hd := abs_nonneg (k.exactLength c a)
  generalize |k.exactLength c a| = d at *
  generalize c.speed.rat = v at *
  obtain ⟨q, hq⟩ : ∃ q : ℚ, q = 1 / 1000000 / v := ⟨_, rfl⟩
  have hleast : 1 / 100000000 ≤ q := by
    rw [hq, le_div_iff₀ hv]
    linarith
  have hshare : 1 / v = 1000000 * q := by
    rw [hq]
    ring
  have hspread : d * (1 / 100000000) ≤ d * q := mul_le_mul_of_nonneg_left hleast hd
  have hunits : 2 * (1 + 1 / v) * η ≤ 2 * (1 + 1 / v) * (1 / 2 ^ 53) :=
    mul_le_mul_of_nonneg_left hη (by positivity)
  rw [← hq]
  rw [hshare] at hlength hunits
  linarith

/-- What six places do to the range and to the speed of a picture is one, too, unless the speed is so
small that six places hardly tell it from nought. -/
theorem cut_le_unit {d : ℚ} (hd : 0 ≤ d) (wide : 60 / 1000000 ≤ c.speed.rat) :
    (1 / 1000000 + d * |c.speed.written - c.speed.rat|) / c.speed.written ≤
      (1 + d / 2) * (120 / 119 * (1 / 1000000 / c.speed.rat)) := by
  have hspeed := abs_written_sub_le c.speed
  generalize c.speed.written = v' at *
  generalize c.speed.rat = v at *
  have hv : 0 < v := by linarith
  have hspeed' : 119 / 120 * v ≤ v' := by
    have hlow := (abs_le.mp hspeed).1
    linarith
  have hscaled : 1 / 1000000 ≤ 120 / 119 * (1 / 1000000 / v) * v' := by
    calc (1 / 1000000 : ℚ) = 120 / 119 * (1 / 1000000 / v) * (119 / 120 * v) := by field_simp
      _ ≤ 120 / 119 * (1 / 1000000 / v) * v' := mul_le_mul_of_nonneg_left hspeed' (by positivity)
  have hspread : d * |v' - v| ≤ d * (1 / 2000000) := mul_le_mul_of_nonneg_left hspeed hd
  rw [div_le_iff₀ (by linarith)]
  calc 1 / 1000000 + d * |v' - v| ≤ (1 + d / 2) * (1 / 1000000) := by linarith
    _ ≤ (1 + d / 2) * (120 / 119 * (1 / 1000000 / v) * v') :=
      mul_le_mul_of_nonneg_left hscaled (by linarith)
    _ = (1 + d / 2) * (120 / 119 * (1 / 1000000 / v)) * v' := by ring

/-- **The gap is at most a frame** if the length of the clip is not too large for its speed. -/
theorem gap_le (close : k.rounding.Close) (hc : c.IsFinite) (h : (k.lengthOf c a).isFinite = true)
    (slow : c.speed.rat ≤ 100) {fps : ℚ} (hfps : 1 ≤ fps)
    (short : 2 * fps * (30 + |k.exactLength c a|) ≤ 1000000 * c.speed.rat) :
    k.gap c a ≤ 1 / fps := by
  have hround := abs_lengthOf_sub_le_unit close hc h slow
  have hv := hc.forward
  have hd := abs_nonneg (k.exactLength c a)
  have hwide : 60 / 1000000 ≤ c.speed.rat := by
    have hleast : 1 * (30 : ℚ) ≤ fps * (30 + |k.exactLength c a|) :=
      mul_le_mul hfps (by linarith) (by norm_num) (by linarith)
    linarith
  have hcut := cut_le_unit hd hwide
  unfold Compiler.gap
  generalize |(k.lengthOf c a).rat - k.exactLength c a| = x at *
  generalize |k.exactLength c a| = d at *
  generalize c.speed.written = v' at *
  generalize c.speed.rat = v at *
  -- all parts of the gap are multiples of a millionth divided by the speed
  obtain ⟨q, hq⟩ : ∃ q : ℚ, q = 1 / 1000000 / v := ⟨_, rfl⟩
  rw [← hq] at hround hcut
  have hunit : q * v = 1 / 1000000 := by rw [hq, div_mul_cancel₀ _ hv.ne']
  have hleast : 1 / 100000000 ≤ q := by
    rw [hq, le_div_iff₀ hv]
    linarith
  have hframe : (60 + 2 * d) * q ≤ 1 / fps := by
    rw [le_div_iff₀ (by linarith)]
    calc (60 + 2 * d) * q * fps = 2 * fps * (30 + d) * q := by ring
      _ ≤ 1000000 * v * q := mul_le_mul_of_nonneg_right short (by linarith)
      _ = 1 := by rw [mul_assoc, mul_comm v, hunit]; norm_num
  have hspread : 0 ≤ d * q := mul_nonneg hd (by linarith)
  linarith

end Gap

/-! ### Where it is read -/

/-- The chains of a clip's picture and that of its sound, as they are read of a graph: those that the
stage of the clip has there. -/
structure Plan.ReadsClip (p : TextPlan) (i : Nat) (pictures : List (Chain String String))
    (sound : Chain String String) : Prop where
  stage : ∃ st, p.stages[i]? = some st ∧ st.chains.map Chain.asRead = pictures ++ [sound]
  graph : ∃ before after, readGraph? p.graph = some (before ++ (pictures ++ [sound]) ++ after) ∧
    before.length = ((p.stages.take i).flatMap Stage.chains).length
  picture : pictures.getLast?.map Chain.output = some ("v" ++ toString i)
  sound : sound.output = "a" ++ toString i

section Chains
variable {k : Compiler} {t : Timeline} {assets : Assets} {p : Plan Label Filter}

/-- The last chain of a picture writes the picture of the clip. -/
theorem getLast?_layers {clip index next : Nat} {inputs : List Label} {filters : List Filter}
    {os : List Overlay} : (k.layers clip index next inputs filters os).getLast?.map Chain.output =
      some (.clipVideo clip) := by
  rw [← List.getLast?_map, outputs_layers, List.getLast?_concat]

theorem readTimes_asRead_flatMap {chains : List (Chain Label Filter)} (h : ∀ ch ∈ chains, ch.IsSound) :
    ((chains.map (Chain.map Label.text Filter.text)).map Chain.asRead).flatMap Chain.readTimes =
      (chains.flatMap Chain.times).map (Times.map sixPlaces) := by
  rw [List.map_map, List.flatMap_map, List.map_flatMap]
  exact List.flatMap_congr fun ch hch => Chain.readTimes_asRead (h ch hch)

theorem exists_graph_around {q : TextPlan} {i : Nat} {st : Stage String String}
    (hgraph : readGraph? q.graph = some (q.chains.map Chain.asRead)) (h : q.stages[i]? = some st) :
    ∃ before after, readGraph? q.graph = some (before ++ st.chains.map Chain.asRead ++ after) ∧
      before.length = ((q.stages.take i).flatMap Stage.chains).length := by
  rw [hgraph, chains_at h, List.map_append, List.map_append]
  exact ⟨_, _, rfl, List.length_map _⟩

/-- **The chains of a clip are read**, and with them what is said about time there. -/
theorem exists_readsClip (h : k.compile t assets = .ok p) {i : Nat} {c : Clip} {a : Asset}
    (hc : t.clips[i]? = some c) (ha : assets c.source.key = some a) :
    ∃ pictures sound, p.toText.ReadsClip i pictures sound ∧
      pictures.flatMap Chain.readTimes = (k.pictureTimes c a).map (Times.map sixPlaces) ∧
      sound.readTimes = (k.soundTimes c a).map (Times.map sixPlaces) := by
  obtain ⟨-, hsound⟩ := chains_sound h
  have hgraph := readGraph?_of_compile h
  obtain ⟨clips, soundtrack, hs, rfl⟩ := exists_sectionsOf h
  obtain ⟨said, hstage⟩ := hs.stage_of_clip hc ha
  have hmem := fun ch hch => hsound ch (List.mem_flatMap.mpr ⟨_, List.mem_of_getElem? hstage, hch⟩)
  have htext : (k.planOf t clips soundtrack).toText.stages[i]? = some
      ((k.clipPart (k.defaults.under t.settings) assets i (t.clipInput i) c a
        ⟨c.start, k.finishOf c a, c.speed⟩ said).stage.map Label.text Filter.text) := by
    rw [Plan.toText, Plan.map, List.getElem?_map, hstage]
    rfl
  rw [clipPart_chains, List.forall_mem_append, List.forall_mem_singleton] at hmem
  have hsound : (c.audioChain k.rounding i a ⟨c.start, k.finishOf c a, c.speed⟩ (t.clipInput i)
      (k.defaults.under t.settings).sampleRate).times = k.soundTimes c a := times_audioChain
  have hread : ((k.clipPart (k.defaults.under t.settings) assets i (t.clipInput i) c a
        ⟨c.start, k.finishOf c a, c.speed⟩ said).stage.map Label.text Filter.text).chains.map
          Chain.asRead =
      ((k.pictureChains (k.defaults.under t.settings) i (t.clipInput i) c a).map
        (Chain.map Label.text Filter.text)).map Chain.asRead ++
      [((c.audioChain k.rounding i a ⟨c.start, k.finishOf c a, c.speed⟩ (t.clipInput i)
        (k.defaults.under t.settings).sampleRate).map Label.text Filter.text).asRead] := by
    rw [Stage.map, clipPart_chains, List.map_append, List.map_append]
    rfl
  refine ⟨_, _, ⟨⟨_, htext, hread⟩, ?_, ?_, ?_⟩, ?_, ?_⟩
  · rw [← hread]
    exact exists_graph_around hgraph htext
  · have hlast : (k.pictureChains (k.defaults.under t.settings) i (t.clipInput i) c a).getLast?.map
        Chain.output = some (.clipVideo i) := getLast?_layers
    obtain ⟨last, hlast, houtput⟩ := Option.map_eq_some_iff.mp hlast
    rw [List.map_map, List.getLast?_map, Option.map_map, hlast, Option.map_some]
    exact congrArg (fun l => some (Label.text l)) houtput
  · exact congrArg Label.text output_audioChain
  · rw [readTimes_asRead_flatMap hmem.1, times_pictureChains]
  · rw [Chain.readTimes_asRead hmem.2, hsound]

end Chains

namespace Plan

/-- The length of a picture as the chains of a clip say it. -/
def readPictureLength? (pictures : List (Chain String String)) : Option ℚ :=
  Times.pictureLength? (pictures.flatMap Chain.readTimes)

/-- The length of a sound as its chain says it. -/
def readSoundLength? (sound : Chain String String) : Option ℚ := Times.soundLength? sound.readTimes

end Plan

section Checked
variable {k : Compiler} {t : Timeline} {assets : Assets} {p : Plan Label Filter}

theorem speed_le_of_compile (h : k.compile t assets = .ok p) {c : Clip} (hc : c ∈ t.clips) :
    c.speed.rat ≤ 100 := by
  have hclip := clips_checked (compile_eq_ok_iff.mp h).1 c (List.mem_append_left _ hc)
  have hfinite := Clip.isFinite_of_check hclip
  simp only [Clip.check, andThen_eq_ok_iff, ensure_eq_ok_iff] at hclip
  obtain ⟨-, hspeed, -⟩ := hclip
  exact rat_le_of_le hfinite.speed rfl (Bool.and_eq_true_iff.mp hspeed).2

end Checked

/-- **How long pictures and sounds are, as they are written.**  For every clip of a compiled plan that
shows its file, the graph has chains for its picture and one for its sound.  The length of the picture
can be read there, that of its range divided by its clock, if and only if the range ends and the speed
is above half a millionth; that of the sound if and only if the clip has a finite length.  Where both
can be read they are no further apart than `Compiler.gap` says.

That is less than one frame of the output as long as the clip is not too long for its speed: the length
of the clip in seconds, with half a minute to spare, times twice the frame rate is at most a million
times the speed.  The check of a timeline asks for nothing of this kind. -/
theorem written_lengths (k : Compiler) (t : Timeline) (assets : Assets) (p : Plan Label Filter)
    (h : k.compile t assets = .ok p) (i : Nat) (c : Clip) (a : Asset) (hc : t.clips[i]? = some c)
    (ha : assets c.source.key = some a) (shown : c.isShown a = true) :
    ∃ pictures sound, p.toText.ReadsClip i pictures sound ∧
      ((readPictureLength? pictures).isSome = true ↔
        (k.finishOf c a).isFinite = true ∧ 1 / 2000000 < c.speed.rat) ∧
      ((readSoundLength? sound).isSome = true ↔ (k.lengthOf c a).isFinite = true) ∧
      (∀ v s, readPictureLength? pictures = some v → readSoundLength? sound = some s →
        |v - s| ≤ k.gap c a) ∧
      (k.rounding.Close → (k.lengthOf c a).isFinite = true → 0 < (k.defaults.under t.settings).fps →
        2 * (k.defaults.under t.settings).fps * (30 + |k.exactLength c a|) ≤ 1000000 * c.speed.rat →
        ∃ v s, readPictureLength? pictures = some v ∧ readSoundLength? sound = some s ∧
          |v - s| ≤ 1 / (k.defaults.under t.settings).fps) := by
  obtain ⟨pictures, sound, hreads, hpictures, hsound⟩ := exists_readsClip h hc ha
  have hmem := List.mem_of_getElem? hc
  have hfinite := Timeline.isFinite_of_check (compile_eq_ok_iff.mp h).1 c
    (List.mem_append_left _ hmem)
  have hpicture : readPictureLength? pictures = _ :=
    (congrArg Times.pictureLength? hpictures).trans (pictureLength?_of_shown hfinite shown)
  have hlength : readSoundLength? sound = _ :=
    (congrArg Times.soundLength? hsound).trans soundLength?_of_clip
  refine ⟨pictures, sound, hreads, ?_, ?_, fun v s hv hs => ?_, fun close hl hfps short => ?_⟩
  · rw [hpicture]
    split <;> simp_all
  · rw [hlength]
    split <;> simp_all
  · rw [hpicture] at hv
    rw [hlength] at hs
    split at hv
    · rename_i hdefined
      split at hs
      · rw [← Option.some.inj hv, ← Option.some.inj hs]
        exact abs_written_lengths_le hfinite.forward (written_pos_iff.mpr hdefined.2)
      · cases hs
    · cases hv
  · have hone : (1 : ℚ) ≤ (k.defaults.under t.settings).fps := by exact_mod_cast hfps
    have hspeed : 1 / 2000000 < c.speed.rat := by
      have hleast : 1 * (30 : ℚ) ≤ (k.defaults.under t.settings).fps * (30 + |k.exactLength c a|) :=
        mul_le_mul hone (by linarith [abs_nonneg (k.exactLength c a)]) (by norm_num) (by linarith)
      linarith
    refine ⟨_, _, hpicture.trans (if_pos ⟨isFinite_of_lengthOf hfinite hl, hspeed⟩),
      hlength.trans (if_pos hl), ?_⟩
    exact (abs_written_lengths_le hfinite.forward (written_pos_iff.mpr hspeed)).trans
      (gap_le close hfinite hl (speed_le_of_compile h hmem) hone short)

theorem written_lengths_sample : ∃ p pictures sound,
    Compiler.standard.compile Sample.timeline (Sample.files 8 true) = .ok p ∧
      p.toText.ReadsClip 0 pictures sound ∧ ∃ v s, readPictureLength? pictures = some v ∧
        readSoundLength? sound = some s ∧ |v - s| ≤ 1 / 30 := by
  obtain ⟨p, h⟩ := Sample.exists_plan
  obtain ⟨pictures, sound, hreads, -, -, -, hframe⟩ := written_lengths Compiler.standard
    Sample.timeline (Sample.files 8 true) p h 0
    { Clip.whole (Sample.file "beach.mp4") .video (.finite 1) with
      overlays := [Sample.title, Sample.logo] }
    ⟨"/work/0.mp4", true, true, some (.finite 8)⟩ rfl (by decide +kernel) rfl
  exact ⟨p, pictures, sound, h, hreads, hframe Rounding.binary64_close (by decide +kernel)
    (by decide) (by decide +kernel)⟩

/-- A clip at a given speed. -/
def Sample.paced (speed : Number) : Timeline :=
  { film with clips := [{ Clip.whole (file "beach.mp4") .video (.finite 1) with speed }] }

theorem Sample.exists_paced (seconds : Rat) (speed : Number)
    (h : (Compiler.standard.compile (paced speed) (files seconds true)).toOption.isSome = true) :
    ∃ p pictures sound, Compiler.standard.compile (paced speed) (files seconds true) = .ok p ∧
      p.toText.ReadsClip 0 pictures sound ∧
      pictures.flatMap Chain.readTimes =
        (Compiler.standard.pictureTimes
          { Clip.whole (file "beach.mp4") .video (.finite 1) with speed }
          ⟨"/work/0.mp4", true, true, some (.finite seconds)⟩).map (Times.map sixPlaces) ∧
      sound.readTimes = (Compiler.standard.soundTimes
        { Clip.whole (file "beach.mp4") .video (.finite 1) with speed }
        ⟨"/work/0.mp4", true, true, some (.finite seconds)⟩).map (Times.map sixPlaces) := by
  cases hp : Compiler.standard.compile (paced speed) (files seconds true) with
  | error f =>
    rw [hp] at h
    cases h
  | ok p =>
    obtain ⟨pictures, sound, hreads⟩ := exists_readsClip hp (i := 0) rfl rfl
    exact ⟨p, pictures, sound, rfl, hreads⟩

/-- At a ten millionth of its speed the picture of a clip has no length while its sound has one, and at
a third of its speed a film of four hours is more than a frame longer than its sound. -/
theorem lengths_apart :
    (∃ p pictures sound, Compiler.standard.compile (Sample.paced (Number.ofDecimal false 1 (-7)))
        (Sample.files 8 true) = .ok p ∧ p.toText.ReadsClip 0 pictures sound ∧
      readPictureLength? pictures = none ∧ readSoundLength? sound = some 80000000) ∧
    ∃ p pictures sound v s, Compiler.standard.compile
        (Sample.paced (Number.ofDecimal false 3333333333333333 (-16))) (Sample.files 14400 true) =
          .ok p ∧ p.toText.ReadsClip 0 pictures sound ∧
      readPictureLength? pictures = some v ∧ readSoundLength? sound = some s ∧ 1 / 30 < |v - s| := by
  constructor
  · obtain ⟨p, pictures, sound, hp, hreads, hpictures, hsound⟩ :=
      Sample.exists_paced 8 (Number.ofDecimal false 1 (-7)) (by decide +kernel)
    refine ⟨p, pictures, sound, hp, hreads, ?_, ?_⟩
    · rw [readPictureLength?, hpictures]
      decide +kernel
    · rw [readSoundLength?, hsound]
      decide +kernel
  · obtain ⟨p, pictures, sound, hp, hreads, hpictures, hsound⟩ :=
      Sample.exists_paced 14400 (Number.ofDecimal false 3333333333333333 (-16)) (by decide +kernel)
    refine ⟨p, pictures, sound, 14400 / (333333 / 1000000), 43200, hp, hreads, ?_, ?_, ?_⟩
    · rw [readPictureLength?, hpictures]
      decide +kernel
    · rw [readSoundLength?, hsound]
      decide +kernel
    · rw [lt_abs]
      norm_num

end Montage
