import Montage.Proofs.NearestOrder
import Montage.Proofs.Outputs
import Montage.Proofs.WrittenNumbers

/-! # Numbers that are finite

The check of a timeline refuses every number that is infinite or none at all
(`Timeline.isFinite_of_check`).  But a plan is made of more: the probe program says how long files
are, sums and quotients are rounded, and both can leave the finite numbers.

All of this meets in the **length** of a clip (`Compiler.lengthOf`).  A clip whose length is finite
has finite numbers everywhere in its stage (`allFinite_clipPart_iff`), so a plan has them if all clips
have such a length (`numbers_isFinite_iff`).  A length is finite only if the clip ends somewhere
(`Compiler.Ends`); without rounding that is enough.
-/
namespace Montage

/-! ### Arithmetic -/

namespace Number
variable {r : Rounding} {x y : Number}

theorem isFinite_of_add (h : (add r x y).isFinite = true) :
    x.isFinite = true ∧ y.isFinite = true := by
  cases x with
  | nan => cases h
  | infinite n =>
    cases y with
    | infinite m =>
      rw [add] at h
      split at h <;> cases h
    | _ => cases h
  | finite p => cases y <;> first | exact ⟨rfl, rfl⟩ | cases h
  | negativeZero => cases y <;> first | exact ⟨rfl, rfl⟩ | cases h

theorem isFinite_neg (x : Number) : x.neg.isFinite = x.isFinite := by
  cases x with
  | finite q =>
    rw [neg]
    split <;> rfl
  | _ => rfl

theorem isFinite_of_sub (h : (sub r x y).isFinite = true) : x.isFinite = true :=
  (isFinite_of_add h).1

/-- Only what is finite has a finite quotient by a finite number. -/
theorem isFinite_of_div (hy : y.isFinite = true) (h : (div r x y).isFinite = true) :
    x.isFinite = true := by
  cases x with
  | finite | negativeZero => rfl
  | nan => cases h
  | infinite => cases y <;> simp_all [div, isFinite]

/-- The sum of finite numbers is rounded, unless it is nought. -/
theorem add_of_isFinite (r : Rounding) (hx : x.isFinite = true) (hy : y.isFinite = true) :
    add r x y = negativeZero ∨
      add r x y = if x.rat + y.rat = 0 then finite 0 else r.fit (x.rat + y.rat) := by
  cases x <;> cases y <;> simp_all [add, isFinite]

theorem isFinite_add_exact (hx : x.isFinite = true) (hy : y.isFinite = true) :
    (add .exact x y).isFinite = true := by
  rcases add_of_isFinite .exact hx hy with h | h <;> rw [h]
  · rfl
  · split <;> rfl

theorem isFinite_sub_exact (hx : x.isFinite = true) (hy : y.isFinite = true) :
    (sub .exact x y).isFinite = true :=
  isFinite_add_exact hx ((isFinite_neg y).trans hy)

theorem isFinite_zero (negative : Bool) : (zero negative).isFinite = true := by
  cases negative <;> rfl

theorem isFinite_div_exact (hx : x.isFinite = true) (hy : y.isFinite = true) (h : y.rat ≠ 0) :
    (div .exact x y).isFinite = true := by
  have hzero : y.isZero = false := by simp [isZero, h]
  have hnan (z : Number) (hz : z.isFinite = true) : (z == nan) = false := by
    cases z <;> simp_all [isFinite]
  simp only [div, hnan x hx, hnan y hy, hx, hy, hzero, Bool.or_self, Bool.false_eq_true, if_false]
  split
  · exact isFinite_zero _
  · rfl

theorem isFinite_of_roundSix (h : (roundSix r x).isFinite = true) : x.isFinite = true := by
  cases x <;> first | rfl | exact h

theorem isFinite_roundSix_exact (h : x.isFinite = true) :
    (roundSix .exact x).isFinite = true := by
  cases x with
  | finite q =>
    rw [roundSix]
    split
    · exact isFinite_zero _
    · rfl
  | _ => exact h

/-- What is not negative is finite or beyond every number. -/
theorem eq_infinite_of_zero_le (h : le (finite 0) x = true) (big : x.isFinite = false) :
    x = infinite false := by
  cases x with
  | infinite negative => cases negative <;> first | rfl | cases h
  | nan => cases h
  | _ => cases big

/-- The sum of numbers that are not negative is not negative. -/
theorem zero_le_add (orderly : r.Orderly) (hx : x.isFinite = true) (hy : y.isFinite = true)
    (nonneg : 0 ≤ x.rat + y.rat) : le (finite 0) (add r x y) = true := by
  rcases add_of_isFinite r hx hy with h | h <;> rw [h]
  · rfl
  · split
    · rfl
    · rw [← orderly.zero]
      exact orderly.mono _ _ nonneg

/-- Of an end that is asked for and that of a file, one is finite if the smaller one is. -/
theorem isFinite_min_iff (hx : x.isFinite = true ∨ x = infinite false)
    (hy : y.isFinite = true ∨ y = infinite false ∨ y = nan) :
    (min x y).isFinite = true ↔ y.isFinite = true ∨ x.isFinite = true := by
  rcases hx with hx | rfl
  · have hleft : (min x y).isFinite = true := by
      unfold min
      split
      · rename_i hlt
        cases y <;> cases x <;> simp_all [lt, isFinite]
      · exact hx
    exact iff_of_true hleft (Or.inr hx)
  · rcases hy with hy | rfl | rfl
    · have hlt : lt y (infinite false) = true := by cases y <;> simp_all [lt, isFinite]
      rw [min, if_pos hlt]
      simp [hy]
    · decide
    · decide

end Number

/-! ### Sums -/

open Number

theorem isFinite_of_foldl_add {r : Rounding} {x : Number} {ds : List Number}
    (h : (ds.foldl (add r) x).isFinite = true) : x.isFinite = true ∧ ∀ d ∈ ds, d.isFinite = true := by
  induction ds generalizing x with
  | nil => exact ⟨h, nofun⟩
  | cons d rest ih =>
    obtain ⟨hsum, hrest⟩ := ih h
    obtain ⟨hx, hd⟩ := isFinite_of_add hsum
    exact ⟨hx, List.forall_mem_cons.mpr ⟨hd, hrest⟩⟩

theorem isFinite_foldl_add_exact {x : Number} {ds : List Number} (hx : x.isFinite = true)
    (h : ∀ d ∈ ds, d.isFinite = true) : (ds.foldl (add .exact) x).isFinite = true := by
  induction ds generalizing x with
  | nil => exact hx
  | cons d rest ih =>
    obtain ⟨hd, hrest⟩ := List.forall_mem_cons.mp h
    exact ih (isFinite_add_exact hx hd) hrest

/-! ### What a check leaves of numbers -/

/-- All numbers of an overlay are finite. -/
structure Overlay.IsFinite (o : Overlay) : Prop where
  start : o.start.isFinite = true
  finish : ∀ e, o.finish = some e → e.isFinite = true
  opacity : o.style.opacity.isFinite = true

/-- A trim has finite numbers that are not negative. -/
structure Trim.IsFinite (t : Trim) : Prop where
  start : t.start.isFinite = true
  start_nonneg : 0 ≤ t.start.rat
  finish : ∀ e, t.finish = some e → e.isFinite = true
  duration : ∀ d, t.duration = some d → d.isFinite = true ∧ 0 ≤ d.rat

/-- All numbers of a clip are finite, and it does not run backwards. -/
structure Clip.IsFinite (c : Clip) : Prop where
  trim : ∀ t, c.trim = some t → t.IsFinite
  speed : c.speed.isFinite = true
  forward : 0 < c.speed.rat
  volume : c.audioVolume.isFinite = true
  values : ∀ f ∈ c.visualFilters, ∀ x, f.value = some x → x.isFinite = true
  overlays : ∀ o ∈ c.overlays, o.IsFinite

namespace Number
variable {x s : Number}

theorem isNatural_iff : x.isNatural = true ↔ x.isFinite = true ∧ 0 ≤ x.rat := by
  rw [isNatural, Bool.and_eq_true]
  refine and_congr_right fun hx => ?_
  rw [lt_of_isFinite hx rfl, Bool.not_eq_true', decide_eq_false_iff_not, not_lt, rat_finite]

theorem isPositive_iff : x.isPositive = true ↔ x.isFinite = true ∧ 0 < x.rat := by
  rw [isPositive, Bool.and_eq_true]
  refine and_congr_right fun hx => ?_
  rw [le_of_isFinite hx rfl, Bool.not_eq_true', decide_eq_false_iff_not, not_le, rat_finite]

theorem isWithin_iff {low high : Rat} :
    x.isWithin low high = true ↔ x.isFinite = true ∧ low ≤ x.rat ∧ x.rat ≤ high := by
  rw [isWithin, Bool.and_eq_true, Bool.and_eq_true, and_assoc]
  refine and_congr_right fun hx => ?_
  rw [le_of_isFinite rfl hx, le_of_isFinite hx rfl, decide_eq_true_eq, decide_eq_true_eq, rat_finite,
    rat_finite]

/-- An end lies behind a start. -/
theorem isLater_iff (hs : s.isFinite = true) :
    (x.isFinite && !le x s) = true ↔ x.isFinite = true ∧ s.rat < x.rat := by
  rw [Bool.and_eq_true]
  refine and_congr_right fun hx => ?_
  rw [le_of_isFinite hx hs, Bool.not_eq_true', decide_eq_false_iff_not, not_le]

end Number

theorem Trim.isFinite_of_check {r : Rounding} {t : Trim} (h : t.check r = .ok ()) : t.IsFinite := by
  simp only [Trim.check, andThen_eq_ok_iff, ifGiven_eq_ok_iff, ensure_eq_ok_iff] at h
  obtain ⟨hstart, hfinish, hduration⟩ := h
  obtain ⟨start, start_nonneg⟩ := isNatural_iff.mp hstart
  refine ⟨start, start_nonneg, fun e he => (Bool.and_eq_true_iff.mp (hfinish e he)).1, fun d hd => ?_⟩
  obtain ⟨hfinite, hpositive⟩ := isPositive_iff.mp (hduration d hd).1
  exact ⟨hfinite, hpositive.le⟩

theorem Overlay.isFinite_of_check {o : Overlay} (h : o.check = .ok ()) : o.IsFinite := by
  simp only [Overlay.check, andThen_eq_ok_iff, ifGiven_eq_ok_iff, ensure_eq_ok_iff] at h
  obtain ⟨hstart, hfinish, -, hopacity, -⟩ := h
  exact ⟨(isNatural_iff.mp hstart).1, fun e he => (Bool.and_eq_true_iff.mp (hfinish e he)).1,
    (isWithin_iff.mp hopacity).1⟩

theorem isFinite_of_checkFilters {seen : List FilterType} {index : Nat} {fs : List VisualFilter}
    (h : checkFilters seen index fs = .ok ()) :
    ∀ f ∈ fs, ∀ x, f.value = some x → x.isFinite = true := by
  induction fs generalizing seen index with
  | nil => exact nofun
  | cons f rest ih =>
    rw [checkFilters] at h
    split at h
    · cases h
    · rename_i hfirst
      refine List.forall_mem_cons.mpr ⟨fun x hx => ?_, ih h⟩
      simp only [VisualFilter.check, andThen_eq_ok_iff, ifGiven_eq_ok_iff, ensure_eq_ok_iff] at hfirst
      exact (hfirst.2 x hx).1

theorem Clip.isFinite_of_check {r : Rounding} {c : Clip} (h : c.check r = .ok ()) : c.IsFinite := by
  simp only [Clip.check, andThen_eq_ok_iff, ifGiven_eq_ok_iff, ensure_eq_ok_iff,
    checkItems_eq_ok_iff, mapError_eq_ok_iff] at h
  obtain ⟨htrim, hspeed, hvolume, -, hvalues, -, -, hoverlays⟩ := h
  obtain ⟨speed, forward⟩ := isPositive_iff.mp (Bool.and_eq_true_iff.mp hspeed).1
  refine ⟨fun t ht => Trim.isFinite_of_check (htrim t ht), speed, forward,
    (isWithin_iff.mp hvolume).1, isFinite_of_checkFilters hvalues, fun o ho => ?_⟩
  obtain ⟨n, hn⟩ := List.getElem?_of_mem ho
  exact Overlay.isFinite_of_check (hoverlays n o hn)

/-- **A timeline that passes its check says finite numbers only.** -/
theorem Timeline.isFinite_of_check {r : Rounding} {t : Timeline} (h : t.check r = .ok ()) :
    ∀ c ∈ t.clips ++ t.soundtrack, c.IsFinite := fun c hc =>
  Clip.isFinite_of_check (clips_checked h c hc)

/-! ### The range of a clip -/

section Range
variable {k : Compiler} {c : Clip} {a : Asset}

/-- Where a clip ends in its file: the end that it asks for or that of the file, whichever comes
first. -/
def Compiler.finishOf (k : Compiler) (c : Clip) (a : Asset) : Number :=
  match a.duration, c.requestedEnd? k.rounding with
  | some d, none => d
  | some d, some e => Number.min e d
  | none, some e => e
  | none, none => Number.add k.rounding c.start k.defaults.fallbackDuration

/-- Length of a clip on the output. -/
def Compiler.lengthOf (k : Compiler) (c : Clip) (a : Asset) : Number :=
  Timing.duration k.rounding ⟨c.start, k.finishOf c a, c.speed⟩

theorem timing_eq_ok {i : Nat} {tm : Timing} {said : List String}
    (h : k.timing i c a = .ok (tm, said)) :
    tm = ⟨c.start, k.finishOf c a, c.speed⟩ ∧ ¬ c.StartsPastEnd a := by
  have hstart : ¬ c.StartsPastEnd a := fun ⟨d, hd, hle⟩ => by
    have herror : k.timing i c a = .error (.startPastEnd i c.start d) :=
      timing_eq_error_iff.mpr ⟨d, hd, hle, rfl⟩
    cases herror.symm.trans h
  refine ⟨?_, hstart⟩
  unfold Compiler.timing at h
  unfold Compiler.finishOf
  cases hd : a.duration with
  | some d =>
    have hlate : Number.le d c.start = false := by
      by_contra hle
      exact hstart ⟨d, hd, by simpa using hle⟩
    simp only [hd, hlate, Bool.false_eq_true, if_false] at h
    cases hend : c.requestedEnd? k.rounding with
    | none =>
      rw [hend] at h
      exact (Prod.mk.inj (Except.ok.inj h)).1.symm
    | some e =>
      rw [hend] at h
      exact (Prod.mk.inj (Except.ok.inj h)).1.symm
  | none =>
    rw [hd] at h
    cases hend : c.requestedEnd? k.rounding with
    | none =>
      rw [hend] at h
      exact (Prod.mk.inj (Except.ok.inj h)).1.symm
    | some e =>
      rw [hend] at h
      exact (Prod.mk.inj (Except.ok.inj h)).1.symm

theorem Clip.IsFinite.start (h : c.IsFinite) : c.start.isFinite = true ∧ 0 ≤ c.start.rat := by
  unfold Clip.start
  split
  · rename_i t ht
    exact ⟨(h.trim t ht).start, (h.trim t ht).start_nonneg⟩
  · exact ⟨rfl, le_refl _⟩

/-- Only a range that ends has a length. -/
theorem isFinite_of_lengthOf (hc : c.IsFinite) (h : (k.lengthOf c a).isFinite = true) :
    (k.finishOf c a).isFinite = true :=
  isFinite_of_sub (isFinite_of_div hc.speed h)

/-- In exact arithmetic a range that ends has a length. -/
theorem isFinite_lengthOf_exact (exact : k.rounding = .exact) (hc : c.IsFinite)
    (h : (k.finishOf c a).isFinite = true) : (k.lengthOf c a).isFinite = true := by
  unfold Compiler.lengthOf Timing.duration
  rw [exact]
  exact isFinite_div_exact (isFinite_sub_exact h hc.start.1) hc.speed hc.forward.ne'

/-- The end that a clip asks for is finite, or it is beyond every number. -/
theorem requestedEnd?_cases (orderly : k.rounding.Orderly) (hc : c.IsFinite) {e : Number}
    (he : c.requestedEnd? k.rounding = some e) : e.isFinite = true ∨ e = .infinite false := by
  unfold Clip.requestedEnd? at he
  split at he
  · cases he
  · rename_i t ht
    have htrim := hc.trim t ht
    split at he
    · rename_i e' d hfinish
      cases he
      exact Or.inl (htrim.finish e hfinish)
    · rename_i d _ hduration
      cases he
      obtain ⟨hfinite, hnonneg⟩ := htrim.duration d hduration
      have hsum := zero_le_add orderly htrim.start hfinite (add_nonneg htrim.start_nonneg hnonneg)
      by_cases hend : (Number.add k.rounding t.start d).isFinite = true
      · exact Or.inl hend
      · exact Or.inr (eq_infinite_of_zero_le hsum (by simpa using hend))
    · cases he

theorem isFinite_requestedEnd?_exact (exact : k.rounding = .exact) (hc : c.IsFinite) {e : Number}
    (he : c.requestedEnd? k.rounding = some e) : e.isFinite = true := by
  rw [exact] at he
  unfold Clip.requestedEnd? at he
  split at he
  · cases he
  · rename_i t ht
    have htrim := hc.trim t ht
    split at he
    · rename_i e' d hfinish
      cases he
      exact htrim.finish e hfinish
    · rename_i d _ hduration
      cases he
      exact isFinite_add_exact htrim.start (htrim.duration d hduration).1
    · cases he

/-- The end of a clip is known: its file has a length, or it asks for an end, or else the length
for files without one is used. -/
def Compiler.Ends (k : Compiler) (c : Clip) (a : Asset) : Prop :=
  (∃ d, a.duration = some d ∧ d.isFinite = true) ∨
  (∃ e, c.requestedEnd? k.rounding = some e ∧ e.isFinite = true) ∨
  a.duration = none ∧ c.requestedEnd? k.rounding = none ∧
    (Number.add k.rounding c.start k.defaults.fallbackDuration).isFinite = true

/-- **A range ends if and only if one of its two ends is known.** -/
theorem isFinite_finishOf_iff (orderly : k.rounding.Orderly) (hc : c.IsFinite)
    (early : ¬ c.StartsPastEnd a) : (k.finishOf c a).isFinite = true ↔ k.Ends c a := by
  unfold Compiler.finishOf Compiler.Ends
  cases hd : a.duration with
  | none => cases hend : c.requestedEnd? k.rounding <;> simp
  | some d =>
    cases hend : c.requestedEnd? k.rounding with
    | none => simp
    | some e =>
      have hfile : d.isFinite = true ∨ d = .infinite false ∨ d = .nan := by
        cases d with
        | finite | negativeZero => exact Or.inl rfl
        | nan => exact Or.inr (Or.inr rfl)
        | infinite negative =>
          cases negative with
          | false => exact Or.inr (Or.inl rfl)
          | true =>
            -- a file that ends before all numbers ends before the clip starts
            refine (early ⟨_, hd, ?_⟩).elim
            have hstart := hc.start.1
            cases hs : c.start <;> simp_all [le, isFinite]
      rw [isFinite_min_iff (requestedEnd?_cases orderly hc hend) hfile]
      simp

end Range

/-! ### Filters -/

/-- All numbers that filters write are finite. -/
def AllFinite (filters : List Filter) : Prop :=
  ∀ f ∈ filters, ∀ x ∈ f.numbers, x.isFinite = true

namespace AllFinite
variable {filters more : List Filter}

theorem nil : AllFinite [] := fun _ h => absurd h List.not_mem_nil

theorem cons {f : Filter} (hf : ∀ x ∈ f.numbers, x.isFinite = true) (h : AllFinite filters) :
    AllFinite (f :: filters) := List.forall_mem_cons.mpr ⟨hf, h⟩

/-- A filter without numbers. -/
theorem silent {f : Filter} (hf : f.numbers = []) (h : AllFinite filters) :
    AllFinite (f :: filters) := cons (by rw [hf]; exact nofun) h

/-- A filter with one number. -/
theorem one {f : Filter} {x : Number} (hf : f.numbers = [x]) (hx : x.isFinite = true)
    (h : AllFinite filters) : AllFinite (f :: filters) :=
  cons (by rw [hf]; exact List.forall_mem_singleton.mpr hx) h

theorem append (h : AllFinite filters) (hmore : AllFinite more) : AllFinite (filters ++ more) :=
  List.forall_mem_append.mpr ⟨h, hmore⟩

end AllFinite

section Filters
variable {c : Clip} {o : Overlay}

theorem isFinite_filterValue? (hc : c.IsFinite) {t : FilterType} {x : Number}
    (hx : c.filterValue? t = some x) : x.isFinite = true := by
  obtain ⟨f, hf, rfl⟩ := Option.map_eq_some_iff.mp hx
  have hmem : f ∈ c.visualFilters := List.mem_reverse.mp (List.mem_of_find?_eq_some hf)
  cases hvalue : f.value with
  | none => rfl
  | some x => exact hc.values f hmem x hvalue

theorem allFinite_filterFor (hc : c.IsFinite) {t : FilterType} {filter : Number → Filter}
    (h : ∀ x, (filter x).numbers = [x] ∨ (filter x).numbers = []) :
    AllFinite (c.filterFor t filter) := by
  unfold Clip.filterFor
  cases hx : c.filterValue? t with
  | none => exact .nil
  | some x =>
    rcases h x with h | h
    · exact .one h (isFinite_filterValue? hc hx) .nil
    · exact .silent h .nil

theorem allFinite_filterAbove (hc : c.IsFinite) {t : FilterType} {filter : Number → Filter}
    (h : ∀ x, (filter x).numbers = [x]) : AllFinite (c.filterAbove t filter) := by
  unfold Clip.filterAbove
  cases hx : c.filterValue? t with
  | none => exact .nil
  | some x =>
    dsimp only
    split
    · exact .one (h x) (isFinite_filterValue? hc hx) .nil
    · exact .nil

theorem isFinite_tones (hc : c.IsFinite) :
    ∀ x ∈ (Filter.tone c.tones).numbers, x.isFinite = true := by
  intro x hx
  obtain ⟨⟨s, y⟩, hy, rfl⟩ := List.mem_map.mp hx
  obtain ⟨⟨s', t⟩, -, h⟩ := List.mem_filterMap.mp hy
  obtain ⟨y', hy', heq⟩ := Option.map_eq_some_iff.mp h
  cases heq
  exact isFinite_filterValue? hc hy'

theorem allFinite_videoFilters (hc : c.IsFinite) {tm : Timing} (start : tm.start.isFinite = true)
    (finish : tm.finish.isFinite = true) : AllFinite (c.videoFilters tm) := by
  have hplain {α : Type} (value : Option α) {filter : α → Filter}
      (h : ∀ x, (filter x).numbers = []) : AllFinite (value.map filter).toList := by
    cases value with
    | none => exact .nil
    | some x => exact .silent (h x) .nil
  have htrim : ∀ x ∈ (Filter.trim tm.start tm.finish).numbers, x.isFinite = true :=
    List.forall_mem_cons.mpr ⟨start, List.forall_mem_singleton.mpr finish⟩
  unfold Clip.videoFilters
  refine .append (.append (.append (.append (.append (.append (.append (.append (.append
    (.cons htrim (.silent rfl .nil)) ?_) ?_) ?_) ?_) ?_) ?_) ?_) ?_) ?_
  · split
    · exact .nil
    · exact .one rfl hc.speed .nil
  · split
    · exact .nil
    · exact .cons (isFinite_tones hc) .nil
  · exact allFinite_filterFor hc fun _ => Or.inl rfl
  · exact allFinite_filterAbove hc fun _ => rfl
  · exact allFinite_filterAbove hc fun _ => rfl
  · exact allFinite_filterFor hc fun _ => Or.inr rfl
  · exact allFinite_filterFor hc fun _ => Or.inr rfl
  · exact hplain _ fun _ => rfl
  · exact hplain _ fun _ => rfl

theorem allFinite_canvas (out : Defaults) : AllFinite out.canvas :=
  .silent rfl (.silent rfl (.silent rfl (.silent rfl (.silent rfl .nil))))

theorem allFinite_blackFrame (out : Defaults) {duration : Number} (h : duration.isFinite = true) :
    AllFinite (out.blackFrame duration) := .one rfl h (.silent rfl (.silent rfl .nil))

theorem isFinite_window (ho : o.IsFinite) :
    ∀ x ∈ Window.numbers ⟨o.start, o.finish⟩, x.isFinite = true := by
  intro x hx
  unfold Window.numbers at hx
  split at hx
  · split at hx
    · cases hx
    · rw [List.mem_singleton.mp hx]
      exact ho.start
  · rename_i e hfinish
    rcases List.mem_cons.mp hx with rfl | hx
    · exact ho.start
    · rw [List.mem_singleton.mp hx]
      exact ho.finish e hfinish

theorem isFinite_drawText (ho : o.IsFinite) (k : Compiler) (words : String) :
    ∀ x ∈ (Filter.drawText (k.drawText o words)).numbers, x.isFinite = true := by
  intro x hx
  rcases List.mem_append.mp hx with hx | hx
  · split at hx
    · rw [List.mem_singleton.mp hx]
      exact ho.opacity
    · cases hx
  · exact isFinite_window ho x hx

theorem allFinite_imageFilters (ho : o.IsFinite) : AllFinite o.imageFilters := by
  unfold Overlay.imageFilters
  refine .append (.append ?_ (.silent rfl .nil)) ?_
  · cases o.style.width with
    | none => exact .nil
    | some w => exact .silent rfl .nil
  · split
    · exact .one rfl ho.opacity .nil
    · exact .nil

theorem allFinite_atLeastOne {filters : List Filter} (h : AllFinite filters) :
    AllFinite (atLeastOne filters) := by
  unfold atLeastOne
  split
  · exact .silent rfl .nil
  · exact h

/-- The chains of a picture have finite numbers if its filters and overlays have. -/
theorem allFinite_layers {k : Compiler} {clip index next : Nat} {inputs : List Label}
    {filters : List Filter} {os : List Overlay} (hos : ∀ o ∈ os, o.IsFinite)
    (h : AllFinite filters) :
    ∀ ch ∈ k.layers clip index next inputs filters os, AllFinite ch.filters := by
  induction os generalizing index next inputs filters with
  | nil => exact List.forall_mem_singleton.mpr (allFinite_atLeastOne h)
  | cons o rest ih =>
    obtain ⟨ho, hrest⟩ := List.forall_mem_cons.mp hos
    cases hcontent : o.content with
    | text words written source =>
      simp only [Compiler.layers, hcontent]
      exact ih hrest (h.append (.cons (isFinite_drawText ho k words) .nil))
    | image source caption =>
      have hoverlay : AllFinite [.overlay o.x o.y ⟨o.start, o.finish⟩] :=
        .cons (isFinite_window ho) .nil
      simp only [Compiler.layers, hcontent, List.forall_mem_cons]
      exact ⟨allFinite_atLeastOne h, allFinite_imageFilters ho, ih hrest hoverlay⟩

theorem isFinite_tempo {r : Rounding} {speed x : Number} (hspeed : speed.isFinite = true)
    (hx : x ∈ Tempo.factors r speed) : x.isFinite = true := by
  have hlast {rest y : Number} (hrest : rest.isFinite = true) (hy : y ∈ Tempo.lastFactor r rest) :
      y.isFinite = true := by
    unfold Tempo.lastFactor at hy
    split at hy
    · cases hy
    · rwa [List.mem_singleton.mp hy]
  cases speed with
  | nan | infinite => cases hspeed
  | negativeZero => exact hlast rfl hx
  | finite q =>
    rw [Tempo.factors, Tempo.ratFactors] at hx
    rcases List.mem_append.mp hx with hx | hx
    · rcases List.mem_append.mp hx with hx | hx <;> rw [List.eq_of_mem_replicate hx] <;> rfl
    · exact hlast rfl hx

/-- Of a sound, only the end of its range may be no finite number. -/
theorem allFinite_audioFilters_iff (hc : c.IsFinite) (r : Rounding) (finish : Option Number)
    (rate : Int) :
    AllFinite (c.audioFilters r finish rate) ↔ ∀ e, finish = some e → e.isFinite = true := by
  constructor
  · intro h e he
    refine h (.audioTrim c.start finish) (by simp [Clip.audioFilters]) e ?_
    rw [he]
    exact List.mem_cons_of_mem _ (List.mem_singleton_self e)
  · intro h
    have htrim : ∀ x ∈ (Filter.audioTrim c.start finish).numbers, x.isFinite = true :=
      List.forall_mem_cons.mpr ⟨hc.start.1, fun x hx => h x (Option.mem_toList.mp hx)⟩
    refine .append (.append (.append (.cons htrim (.silent rfl .nil)) ?_) ?_) (.silent rfl .nil)
    · intro f hf x hx
      obtain ⟨y, hy, rfl⟩ := List.mem_map.mp hf
      rw [List.mem_singleton.mp hx]
      exact isFinite_tempo hc.speed hy
    · split
      · exact .nil
      · exact .one rfl hc.volume .nil

/-! ### Sections -/

/-- **The stage of a clip has finite numbers if and only if the clip has a length.** -/
theorem allFinite_clipPart_iff {k : Compiler} {out : Defaults} {assets : Assets} {i n : Nat}
    {a : Asset} {said : List String} (hc : c.IsFinite) :
    (∀ ch ∈ (k.clipPart out assets i n c a ⟨c.start, k.finishOf c a, c.speed⟩ said).stage.chains,
      AllFinite ch.filters) ↔ (k.lengthOf c a).isFinite = true := by
  constructor
  · intro h
    have hsound := h _ (List.mem_append_right _ (List.mem_singleton_self _))
    have hlength : .audioLength (k.lengthOf c a) ∈ (c.audioChain k.rounding i a
        ⟨c.start, k.finishOf c a, c.speed⟩ n out.sampleRate).filters := by
      unfold Clip.audioChain Compiler.lengthOf
      split <;> simp
    exact hsound _ hlength _ (List.mem_singleton_self _)
  · intro h
    have hfinish := isFinite_of_lengthOf hc h
    refine List.forall_mem_append.mpr
      ⟨allFinite_layers hc.overlays ?_, List.forall_mem_singleton.mpr ?_⟩
    · split
      · exact (allFinite_videoFilters hc hc.start.1 hfinish).append (allFinite_canvas out)
      · exact allFinite_blackFrame out h
    · unfold Clip.audioChain
      split
      · refine .append ((allFinite_audioFilters_iff hc _ _ _).mpr ?_) (.one rfl h (.one rfl h .nil))
        intro e he
        rwa [← Option.some.inj he]
      · exact .silent rfl (.one rfl h (.silent rfl .nil))

theorem allFinite_soundtrackPart_iff {k : Compiler} {out : Defaults} {i n : Nat} {a : Asset}
    (hc : c.IsFinite) : (∀ ch ∈ (k.soundtrackPart out i n c a).stage.chains, AllFinite ch.filters) ↔
      ∀ e, c.requestedEnd? k.rounding = some e → e.isFinite = true := by
  rw [Compiler.soundtrackPart, List.forall_mem_singleton]
  exact allFinite_audioFilters_iff hc _ _ _

theorem allFinite_finishStages {out : Defaults} {count items : Nat} {st : Stage Label Filter}
    (h : st ∈ finishStages out count items) : ∀ ch ∈ st.chains, AllFinite ch.filters := by
  simp only [finishStages, List.mem_append, List.mem_singleton] at h
  rcases h with (rfl | h) | rfl
  · unfold joinStage
    split <;> exact List.forall_mem_cons.mpr
      ⟨.silent rfl .nil, List.forall_mem_singleton.mpr (.silent rfl .nil)⟩
  · split at h
    · cases h
    · rw [List.mem_singleton.mp h]
      exact List.forall_mem_singleton.mpr (.silent rfl .nil)
  · exact fun _ h => absurd h List.not_mem_nil

end Filters

/-! ### Plans -/

section Plans
variable {k : Compiler} {t : Timeline} {assets : Assets} {p : Plan Label Filter}

theorem forall_numbers_iff :
    (∀ x ∈ p.numbers, x.isFinite = true) ↔ ∀ ch ∈ p.chains, AllFinite ch.filters := by
  simp only [Plan.numbers, List.forall_mem_flatMap, AllFinite]

/-- All clips have a length. -/
def Compiler.Measures (k : Compiler) (t : Timeline) (assets : Assets) : Prop :=
  ∀ c ∈ t.clips, ∀ a, assets c.source.key = some a → (k.lengthOf c a).isFinite = true

namespace SectionsOf
variable {clips soundtrack : List Section}

/-- The section of a clip, with the range that the clip shows. -/
theorem section_of_clip (h : SectionsOf k t assets clips soundtrack) {i : Nat} {c : Clip} {a : Asset}
    (hc : t.clips[i]? = some c) (ha : assets c.source.key = some a) :
    ∃ said, clips[i]? = some (k.clipPart (k.defaults.under t.settings) assets i (t.clipInput i) c a
      ⟨c.start, k.finishOf c a, c.speed⟩ said) := by
  have hi : i < clips.length := h.length_clips ▸ (List.getElem?_eq_some_iff.mp hc).1
  obtain ⟨c', a', tm, said, hc', ha', htiming, hpart⟩ :=
    h.clip_getElem (List.getElem?_eq_getElem hi)
  obtain rfl := Option.some.inj (hc.symm.trans hc')
  obtain rfl := Option.some.inj (ha.symm.trans ha')
  obtain ⟨rfl, -⟩ := timing_eq_ok htiming
  exact ⟨said, (List.getElem?_eq_getElem hi).trans (congrArg some hpart)⟩

theorem stage_of_clip (h : SectionsOf k t assets clips soundtrack) {i : Nat} {c : Clip} {a : Asset}
    (hc : t.clips[i]? = some c) (ha : assets c.source.key = some a) :
    ∃ said, (k.planOf t clips soundtrack).stages[i]? = some
      (k.clipPart (k.defaults.under t.settings) assets i (t.clipInput i) c a
        ⟨c.start, k.finishOf c a, c.speed⟩ said).stage := by
  obtain ⟨said, hsection⟩ := h.section_of_clip hc ha
  have hi : i < clips.length := (List.getElem?_eq_some_iff.mp hsection).1
  refine ⟨said, ?_⟩
  rw [planOf_stages, List.append_assoc, List.getElem?_append_left (by simpa using hi),
    List.getElem?_map, hsection]
  rfl

/-- Each clip has a section, and each section a clip. -/
theorem forall_clips_iff (h : SectionsOf k t assets clips soundtrack) {P : Section → Prop}
    {Q : Clip → Asset → Prop} (hPQ : ∀ i n c a said, c ∈ t.clips →
      (P (k.clipPart (k.defaults.under t.settings) assets i n c a
        ⟨c.start, k.finishOf c a, c.speed⟩ said) ↔ Q c a)) :
    (∀ s ∈ clips, P s) ↔ ∀ c ∈ t.clips, ∀ a, assets c.source.key = some a → Q c a := by
  constructor
  · intro hall c hc a ha
    obtain ⟨i, hi⟩ := List.getElem?_of_mem hc
    obtain ⟨said, hsection⟩ := h.section_of_clip hi ha
    exact (hPQ _ _ _ _ _ hc).mp (hall _ (List.mem_of_getElem? hsection))
  · intro hall s hs
    obtain ⟨i, hi⟩ := List.getElem?_of_mem hs
    obtain ⟨c, a, tm, said, hc, ha, ht, rfl⟩ := h.clip_getElem hi
    obtain ⟨rfl, -⟩ := timing_eq_ok ht
    have hmem := List.mem_of_getElem? hc
    exact (hPQ _ _ _ _ _ hmem).mpr (hall c hmem a ha)

theorem forall_soundtrack_iff (h : SectionsOf k t assets clips soundtrack) {P : Section → Prop}
    {Q : Clip → Prop} (hPQ : ∀ m n c a, c ∈ t.soundtrack →
      (P (k.soundtrackPart (k.defaults.under t.settings) m n c a) ↔ Q c)) :
    (∀ s ∈ soundtrack, P s) ↔ ∀ c ∈ t.soundtrack, Q c := by
  constructor
  · intro hall c hc
    obtain ⟨m, hm, rfl⟩ := List.mem_iff_getElem.mp hc
    have hlength : m < soundtrack.length := h.length_soundtrack ▸ hm
    obtain ⟨c, a, hc', -, -, hsection⟩ := h.soundtrack_getElem (List.getElem?_eq_getElem hlength)
    obtain rfl := Option.some.inj ((List.getElem?_eq_getElem hm).symm.trans hc')
    have hP := hall _ (List.getElem_mem hlength)
    rw [hsection] at hP
    exact (hPQ _ _ _ _ hc).mp hP
  · intro hall s hs
    obtain ⟨m, hm⟩ := List.getElem?_of_mem hs
    obtain ⟨c, a, hc, -, -, rfl⟩ := h.soundtrack_getElem hm
    have hmem := List.mem_of_getElem? hc
    exact (hPQ _ _ _ _ hmem).mpr (hall c hmem)

end SectionsOf

theorem forall_chains_iff {clips soundtrack : List Section} {P : Chain Label Filter → Prop} :
    (∀ ch ∈ (k.planOf t clips soundtrack).chains, P ch) ↔
      (∀ s ∈ clips, ∀ ch ∈ s.stage.chains, P ch) ∧
      (∀ s ∈ soundtrack, ∀ ch ∈ s.stage.chains, P ch) ∧
      ∀ st ∈ finishStages (k.defaults.under t.settings) clips.length soundtrack.length,
        ∀ ch ∈ st.chains, P ch := by
  rw [Plan.chains, planOf_stages, List.forall_mem_flatMap, List.forall_mem_append,
    List.forall_mem_append, List.forall_mem_map, List.forall_mem_map, and_assoc]

/-- **The numbers of a plan are finite if and only if all clips have a length**, and what the items of
the soundtrack ask for is finite. -/
theorem numbers_isFinite_iff (h : k.compile t assets = .ok p) :
    (∀ x ∈ p.numbers, x.isFinite = true) ↔ k.Measures t assets ∧
      ∀ c ∈ t.soundtrack, ∀ e, c.requestedEnd? k.rounding = some e → e.isFinite = true := by
  have hfinite := Timeline.isFinite_of_check (compile_eq_ok_iff.mp h).1
  obtain ⟨clips, soundtrack, hs, rfl⟩ := exists_sectionsOf h
  rw [forall_numbers_iff, forall_chains_iff, and_iff_left fun st hst => allFinite_finishStages hst]
  refine and_congr (hs.forall_clips_iff fun i n c a said hc => ?_)
    (hs.forall_soundtrack_iff fun m n c a hc => ?_)
  · exact allFinite_clipPart_iff (hfinite c (List.mem_append_left _ hc))
  · exact allFinite_soundtrackPart_iff (hfinite c (List.mem_append_right _ hc))

/-- Only clips that have a length add up to one. -/
theorem measures_of_duration (h : k.compile t assets = .ok p) (hp : p.duration.isFinite = true) :
    k.Measures t assets := by
  obtain ⟨clips, soundtrack, hs, rfl⟩ := exists_sectionsOf h
  have hlengths := (isFinite_of_foldl_add (isFinite_of_roundSix hp)).2
  rw [List.forall_mem_map] at hlengths
  exact (hs.forall_clips_iff fun i n c a said hc => Iff.rfl).mp hlengths

theorem isFinite_duration_exact (exact : k.rounding = .exact) (h : k.compile t assets = .ok p)
    (measures : k.Measures t assets) : p.duration.isFinite = true := by
  obtain ⟨clips, soundtrack, hs, rfl⟩ := exists_sectionsOf h
  have hlengths : ∀ s ∈ clips, s.duration.isFinite = true :=
    (hs.forall_clips_iff fun i n c a said hc => Iff.rfl).mpr measures
  change (roundSix k.rounding (total k.rounding (clips.map Section.duration))).isFinite = true
  rw [exact]
  exact isFinite_roundSix_exact (isFinite_foldl_add_exact rfl (List.forall_mem_map.mpr hlengths))

theorem startsInside_of_compile (h : k.compile t assets = .ok p) : t.StartsInside assets := by
  by_contra late
  obtain ⟨hcheck, hneed, -⟩ := compile_eq_ok_iff.mp h
  obtain ⟨i, c, a, d, -, -, -, -, herror⟩ :=
    compile_of_not_startsInside hcheck (needAll_eq_ok_iff.mp hneed) late
  cases herror.symm.trans h

/-- A clip with a length ends somewhere. -/
theorem ends_of_measures (orderly : k.rounding.Orderly) (h : k.compile t assets = .ok p)
    (measures : k.Measures t assets) :
    ∀ c ∈ t.clips, ∀ a, assets c.source.key = some a → k.Ends c a := by
  intro c hc a ha
  have hfinite := Timeline.isFinite_of_check (compile_eq_ok_iff.mp h).1 c (List.mem_append_left _ hc)
  exact (isFinite_finishOf_iff orderly hfinite (startsInside_of_compile h c hc a ha)).mp
    (isFinite_of_lengthOf hfinite (measures c hc a ha))

/-- **In exact arithmetic only the length of a file can be no finite number**, and it matters where
no end is asked for. -/
theorem measures_exact_iff (exact : k.rounding = .exact)
    (fallback : k.defaults.fallbackDuration.isFinite = true) (h : k.compile t assets = .ok p) :
    k.Measures t assets ↔ ∀ c ∈ t.clips, c.requestedEnd? k.rounding = none →
      ∀ a d, assets c.source.key = some a → a.duration = some d → d.isFinite = true := by
  have orderly : k.rounding.Orderly := exact ▸ Rounding.exact_orderly
  have hfinite := Timeline.isFinite_of_check (compile_eq_ok_iff.mp h).1
  constructor
  · intro measures c hc hopen a d ha hd
    rcases ends_of_measures orderly h measures c hc a ha with ⟨d', hd', hend⟩ | ⟨e, he, -⟩ | ⟨hd', -⟩
    · obtain rfl := Option.some.inj (hd.symm.trans hd')
      exact hend
    · cases hopen.symm.trans he
    · cases hd.symm.trans hd'
  · intro known c hc a ha
    have hclip := hfinite c (List.mem_append_left _ hc)
    refine isFinite_lengthOf_exact exact hclip
      ((isFinite_finishOf_iff orderly hclip (startsInside_of_compile h c hc a ha)).mpr ?_)
    cases hend : c.requestedEnd? k.rounding with
    | some e => exact Or.inr (Or.inl ⟨e, hend, isFinite_requestedEnd?_exact exact hclip hend⟩)
    | none =>
      cases hd : a.duration with
      | some d => exact Or.inl ⟨d, hd, known c hc hend a d ha hd⟩
      | none =>
        refine Or.inr (Or.inr ⟨hd, hend, ?_⟩)
        rw [exact]
        exact isFinite_add_exact hclip.start.1 fallback

end Plans

/-- **Which numbers are written.**  The numbers of a compiled plan stand in its graph, and one that is
not finite stands there as "nan", "inf" or "-inf".  There is none if and only if every clip has a
finite length, and every item of the soundtrack that asks for an end asks for a finite one; and so it
is if the length of the whole is finite.  A clip has a finite length only if its file has one, if it
asks for an end that is finite, or if neither says anything and a length is assumed.

The check of the timeline sees to the numbers of the request, and nothing sees to the lengths of the
files.  With exact arithmetic these decide alone: all is finite if and only if the files of all clips
that ask for no end have, as far as they have a length, a finite one. -/
theorem plan_numbers_finite (k : Compiler) (t : Timeline) (assets : Assets) (p : Plan Label Filter)
    (orderly : k.rounding.Orderly) (h : k.compile t assets = .ok p) :
    (∀ x ∈ p.numbers, Text.StandsIn x.sixPlaces p.toText.graph ∧
      (x.sixPlaces ∈ ["nan", "inf", "-inf"] ↔ x.isFinite = false)) ∧
    ((∀ x ∈ p.numbers, x.isFinite = true) ↔ k.Measures t assets ∧
      ∀ c ∈ t.soundtrack, ∀ e, c.requestedEnd? k.rounding = some e → e.isFinite = true) ∧
    (p.duration.isFinite = true → k.Measures t assets) ∧
    (k.Measures t assets → ∀ c ∈ t.clips, ∀ a, assets c.source.key = some a → k.Ends c a) ∧
    (k.rounding = .exact → k.defaults.fallbackDuration.isFinite = true →
      ((∀ x ∈ p.numbers, x.isFinite = true) ∧ p.duration.isFinite = true ↔
        ∀ c ∈ t.clips, c.requestedEnd? k.rounding = none →
          ∀ a d, assets c.source.key = some a → a.duration = some d → d.isFinite = true)) := by
  refine ⟨fun x hx => ⟨Plan.stands_graph hx, sixPlaces_mem_words⟩, numbers_isFinite_iff h,
    measures_of_duration h, ends_of_measures orderly h, fun exact fallback => ?_⟩
  rw [← measures_exact_iff exact fallback h, numbers_isFinite_iff h]
  refine ⟨fun hall => hall.1.1, fun measures => ⟨⟨measures, fun c hc e he => ?_⟩,
    isFinite_duration_exact exact h measures⟩⟩
  have hfinite := Timeline.isFinite_of_check (compile_eq_ok_iff.mp h).1 c (List.mem_append_right _ hc)
  exact isFinite_requestedEnd?_exact exact hfinite he

theorem plan_numbers_finite_sample : Rounding.binary64.Orderly ∧
    ∃ p, Compiler.standard.compile Sample.timeline (Sample.files 8 true) = .ok p ∧
      ∀ x ∈ p.numbers, x.isFinite = true := by
  obtain ⟨p, h⟩ := Sample.exists_plan
  obtain ⟨-, hiff, -⟩ := plan_numbers_finite Compiler.standard Sample.timeline
    (Sample.files 8 true) p Rounding.binary64_orderly h
  refine ⟨Rounding.binary64_orderly, p, h, hiff.mpr ⟨?_, by decide +kernel⟩⟩
  have hlengths : ∀ c ∈ Sample.timeline.clips, ((Sample.files 8 true c.source.key).all fun a =>
      (Compiler.standard.lengthOf c a).isFinite) = true := by decide +kernel
  intro c hc a ha
  have hlength := hlengths c hc
  rwa [ha] at hlength

/-- What the probe program may say of a file. -/
def Sample.endlessReport : Probe.Outcome :=
  .ran ("\x7b\"streams\": [\x7b\"codec_type\": \"video\"\x7d], " ++
    "\"format\": \x7b\"duration\": \"nan\"\x7d\x7d") "" 0

/-- The file of a film of which the probe program says that. -/
def Sample.endlessFiles : Assets := fun _ =>
  match Probe.probe "0.mp4" endlessReport with
  | .ok i => some ⟨"assets/0.mp4", i.hasVideo, i.hasAudio, i.duration⟩
  | .error _ => none

/-- A length that is no number passes from the probe program into the graph. -/
theorem nan_in_graph :
    (Probe.probe "0.mp4" Sample.endlessReport).toOption.map Probe.MediaInfo.duration =
        some (some .nan) ∧
      ∃ p, Compiler.standard.compile Sample.film Sample.endlessFiles = .ok p ∧
        Filter.trim (.finite 0) .nan ∈ p.chains.flatMap Chain.filters ∧
        Text.StandsIn "nan" p.toText.graph ∧ p.duration = .nan := by
  refine ⟨by decide +kernel, ?_⟩
  have hplan : (Compiler.standard.compile Sample.film Sample.endlessFiles).toOption.any (fun p =>
      decide (Filter.trim (.finite 0) .nan ∈ p.chains.flatMap Chain.filters) &&
        decide (p.duration = .nan)) = true := by decide +kernel
  cases h : Compiler.standard.compile Sample.film Sample.endlessFiles with
  | error f =>
    rw [h] at hplan
    cases hplan
  | ok p =>
    rw [h] at hplan
    obtain ⟨htrim, hduration⟩ := Bool.and_eq_true_iff.mp hplan
    have hmem := of_decide_eq_true htrim
    obtain ⟨c, hc, hf⟩ := List.mem_flatMap.mp hmem
    have hnan : Number.nan ∈ p.numbers := List.mem_flatMap.mpr
      ⟨c, hc, List.mem_flatMap.mpr ⟨_, hf, List.mem_cons_of_mem _ (List.mem_singleton_self _)⟩⟩
    exact ⟨p, rfl, hmem, Plan.stands_graph hnan, of_decide_eq_true hduration⟩

end Montage
