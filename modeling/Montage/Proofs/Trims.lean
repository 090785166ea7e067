import Montage.Proofs.AlikeClips
import Montage.Proofs.ExactNumbers
import Montage.Proofs.Validity

/-! # The range that a clip shows

A clip may say where it ends in its file, or how long it is, and the file may say where it ends itself.
In exact arithmetic a clip that passed the check shows a range that is never empty and that passes
neither of these ends (`Compiler.Shows`), unless it starts where its file is over already; then there is no
plan.

Nothing but its start and the end that it asks for goes from a trim into a plan, so it is the same whether
a length or an end is given (`Clip.SameRange.alike`).
-/
namespace Montage

open Number

/-! ### Ends -/

/-- Where a clip asks to end in its file: at the end of its trim, or its length behind the start. -/
def Clip.wantedEnd? (c : Clip) : Option ℚ :=
  c.trim.bind fun t => (t.finish.map Number.rat).or (t.duration.map fun d => t.start.rat + d.rat)

/-- The ends that are known for a clip: the one that it asks for, and that of its file. -/
def Clip.ends (c : Clip) (a : Asset) : List ℚ :=
  c.wantedEnd?.toList ++ (a.duration.map Number.rat).toList

section Ends
variable {k : Compiler} {c : Clip} {a : Asset}

/-- A valid clip asks for an end behind its start, and the compiler computes it. -/
theorem requestedEnd?_cases_exact (hc : c.Valid .exact) :
    (c.requestedEnd? .exact = none ∧ c.wantedEnd? = none) ∨
      ∃ e, c.requestedEnd? .exact = some e ∧ e.isFinite = true ∧ c.wantedEnd? = some e.rat ∧
        c.start.rat < e.rat := by
  unfold Clip.requestedEnd? Clip.wantedEnd? Clip.start
  cases htrim : c.trim with
  | none => exact .inl ⟨rfl, rfl⟩
  | some t =>
    have ht := hc.trim t htrim
    cases hfinish : t.finish with
    | some e =>
      obtain ⟨hfinite, hlater⟩ := ht.finish e hfinish
      exact .inr ⟨e, by simp [hfinish], hfinite, by simp [hfinish], hlater⟩
    | none =>
      cases hduration : t.duration with
      | none => exact .inl ⟨by simp [hfinish, hduration], by simp [hfinish, hduration]⟩
      | some d =>
        obtain ⟨hfinite, hpositive⟩ := ht.duration d hduration
        have hsum := rat_add_exact ht.start.1 hfinite
        refine .inr ⟨add .exact t.start d, by simp [hfinish, hduration],
          isFinite_add_exact ht.start.1 hfinite, by simp [hfinish, hduration, hsum], ?_⟩
        rw [hsum]
        exact lt_add_of_pos_right _ hpositive

/-- The smaller one of two numbers is one of them, and below both. -/
theorem min_least {x y : Number} (hx : x.isFinite = true) (hy : y.isFinite = true) :
    (Number.min x y = x ∨ Number.min x y = y) ∧ (Number.min x y).rat ≤ x.rat ∧
      (Number.min x y).rat ≤ y.rat := by
  rw [Number.min, lt_of_isFinite hy hx]
  by_cases h : y.rat < x.rat
  · rw [if_pos (decide_eq_true h)]
    exact ⟨.inr rfl, h.le, le_refl _⟩
  · rw [if_neg (by simpa using h)]
    exact ⟨.inl rfl, le_refl _, not_lt.mp h⟩

/-- **A range ends at the first of the ends that are known.** -/
theorem finishOf_least (exact : k.rounding = .exact) (hc : c.Valid .exact)
    (known : ∀ d, a.duration = some d → d.isFinite = true) (hends : c.ends a ≠ []) :
    (k.finishOf c a).isFinite = true ∧ (k.finishOf c a).rat ∈ c.ends a ∧
      ∀ e ∈ c.ends a, (k.finishOf c a).rat ≤ e := by
  unfold Compiler.finishOf
  unfold Clip.ends at hends ⊢
  rw [exact]
  rcases requestedEnd?_cases_exact hc with ⟨hend, hwanted⟩ | ⟨e, hend, he, hwanted, -⟩
  · cases hd : a.duration with
    | none => simp [hwanted, hd] at hends
    | some d => simp [hend, hwanted, known d hd]
  · cases hd : a.duration with
    | none => simp [hend, hwanted, he]
    | some d =>
      obtain ⟨hone, hwant, hfile⟩ := min_least he (known d hd)
      rcases hone with h | h <;> simp_all

theorem ends_eq_nil_iff (hc : c.Valid .exact) :
    c.ends a = [] ↔ a.duration = none ∧ c.requestedEnd? .exact = none := by
  rcases requestedEnd?_cases_exact hc with ⟨hend, hwanted⟩ | ⟨e, hend, -, hwanted, -⟩ <;>
    simp [Clip.ends, hend, hwanted]

theorem start_lt_of_mem_ends (hc : c.Valid .exact)
    (early : ∀ d, a.duration = some d → c.start.rat < d.rat) {e : ℚ} (he : e ∈ c.ends a) :
    c.start.rat < e := by
  rcases List.mem_append.mp he with hwant | hfile
  · rcases requestedEnd?_cases_exact hc with ⟨-, hwanted⟩ | ⟨x, -, -, hwanted, hlater⟩
    · rw [hwanted] at hwant
      cases hwant
    · rw [hwanted] at hwant
      rwa [List.mem_singleton.mp hwant]
  · obtain ⟨d, hd, rfl⟩ := Option.map_eq_some_iff.mp (Option.mem_toList.mp hfile)
    exact early d hd

/-! ### What is shown -/

/-- A range starts where the clip says and is not empty.  It ends at the first of the ends that are known,
and if there are none, a length is assumed, of which there is one warning. -/
structure Compiler.Shows (k : Compiler) (c : Clip) (a : Asset) (tm : Timing) (said : List String) :
    Prop where
  speed : tm.speed = c.speed
  start : tm.start = c.start
  inside : Number.le (.finite 0) tm.start = true
  nonempty : Number.lt tm.start tm.finish = true
  least : c.ends a ≠ [] → tm.finish.isFinite = true ∧ tm.finish.rat ∈ c.ends a ∧
    (∀ e ∈ c.ends a, tm.finish.rat ≤ e) ∧ said = []
  assumed : c.ends a = [] →
    tm.finish = Number.add .exact c.start k.defaults.fallbackDuration ∧ said.length = 1

/-- What is above zero leads behind every number. -/
theorem lt_add_exact {x y : Number} (hx : x.isFinite = true)
    (hy : Number.lt (.finite 0) y = true) : Number.lt x (Number.add .exact x y) = true := by
  by_cases hfinite : y.isFinite = true
  · rw [lt_of_isFinite rfl hfinite, decide_eq_true_eq, rat_finite] at hy
    rw [lt_of_isFinite hx (isFinite_add_exact hx hfinite), rat_add_exact hx hfinite,
      decide_eq_true_eq]
    exact lt_add_of_pos_right _ hy
  · obtain rfl := eq_infinite_of_zero_le (lt_imp_le hy) (by simpa using hfinite)
    cases x <;> simp_all [Number.add, Number.lt, Number.isFinite]

/-- There is a warning where no end is known. -/
theorem length_warnings {i : Nat} {tm : Timing} {said : List String}
    (h : k.timing i c a = .ok (tm, said)) :
    said.length = if a.duration = none ∧ c.requestedEnd? k.rounding = none then 1 else 0 := by
  cases hd : a.duration with
  | some d =>
    simp only [Compiler.timing, hd] at h
    split at h
    · cases h
    · cases h
      rw [if_neg fun hnone => nomatch hnone.1]
      rfl
  | none =>
    cases hend : c.requestedEnd? k.rounding with
    | some e =>
      simp only [Compiler.timing, hd, hend] at h
      cases h
      rw [if_neg fun hnone => nomatch hnone.2]
      rfl
    | none =>
      simp only [Compiler.timing, hd, hend] at h
      cases h
      rw [if_pos ⟨rfl, rfl⟩]
      rfl

/-- **A clip shows its range, unless its file is over where it starts.** -/
theorem timing_shows (exact : k.rounding = .exact)
    (fallback : Number.lt (.finite 0) k.defaults.fallbackDuration = true) (hc : c.Valid .exact)
    (known : ∀ d, a.duration = some d → d.isFinite = true)
    (early : ∀ d, a.duration = some d → c.start.rat < d.rat) (i : Nat) :
    ∃ tm said, k.timing i c a = .ok (tm, said) ∧ k.Shows c a tm said := by
  obtain ⟨hstart, hnonneg⟩ := (Clip.isFinite_of_check (Clip.check_eq_ok_iff.mpr hc)).start
  cases htiming : k.timing i c a with
  | error f =>
    obtain ⟨d, hd, hle, -⟩ := timing_eq_error_iff.mp htiming
    exact absurd (rat_le_of_le (known d hd) hstart hle) (early d hd).not_ge
  | ok shown =>
    obtain ⟨tm, said⟩ := shown
    obtain ⟨rfl, -⟩ := timing_eq_ok htiming
    have hwarnings := length_warnings htiming
    simp only [exact, ← ends_eq_nil_iff hc] at hwarnings
    have hleast : c.ends a ≠ [] → (k.finishOf c a).isFinite = true ∧
        (k.finishOf c a).rat ∈ c.ends a ∧ (∀ e ∈ c.ends a, (k.finishOf c a).rat ≤ e) ∧
        said = [] := by
      intro hends
      obtain ⟨hfinite, hmem, hall⟩ := finishOf_least exact hc known hends
      rw [if_neg hends] at hwarnings
      exact ⟨hfinite, hmem, hall, List.length_eq_zero_iff.mp hwarnings⟩
    have hassumed : c.ends a = [] →
        k.finishOf c a = Number.add .exact c.start k.defaults.fallbackDuration ∧
          said.length = 1 := by
      intro hnone
      obtain ⟨hd, hend⟩ := (ends_eq_nil_iff hc).mp hnone
      rw [if_pos hnone] at hwarnings
      exact ⟨by simp only [Compiler.finishOf, exact, hd, hend], hwarnings⟩
    have hbehind : Number.lt c.start (k.finishOf c a) = true := by
      by_cases hends : c.ends a = []
      · rw [(hassumed hends).1]
        exact lt_add_exact hstart fallback
      · obtain ⟨hfinite, hmem, -⟩ := hleast hends
        rw [lt_of_isFinite hstart hfinite]
        exact decide_eq_true (start_lt_of_mem_ends hc early hmem)
    exact ⟨_, said, rfl, rfl, rfl, (le_of_isFinite rfl hstart).trans (decide_eq_true hnonneg), hbehind,
      hleast, hassumed⟩

end Ends

/-! ### The same range in other words -/

/-- One clip says how long its range is, and the other one where this leads to. -/
def Clip.GivesLengthFor (c d : Clip) : Prop :=
  ∃ s x e : Number, x.isFinite = true ∧ e.isFinite = true ∧ e.rat = s.rat + x.rat ∧
    c.trim = some ⟨s, none, some x⟩ ∧ d = { c with trim := some ⟨s, some e, none⟩ }

/-- Two clips differ in nothing but that one may say how long its range is where the other one says where
it ends. -/
def Clip.SameRange (c d : Clip) : Prop := c = d ∨ c.GivesLengthFor d ∨ d.GivesLengthFor c

/-- Two timelines have clips and items with the same ranges, and the same settings. -/
structure Timeline.SameRanges (t u : Timeline) : Prop where
  clips : List.Forall₂ Clip.SameRange t.clips u.clips
  soundtrack : List.Forall₂ Clip.SameRange t.soundtrack u.soundtrack
  settings : t.settings = u.settings

section Reworded
variable {k : Compiler} {assets : Assets} {c d : Clip} {t u : Timeline}

/-- A length is valid if and only if the end is to which it leads. -/
theorem Trim.valid_length_iff {r : Rounding} {s x e : Number} (hx : x.isFinite = true)
    (he : e.isFinite = true) (hsum : e.rat = s.rat + x.rat) :
    Trim.Valid r ⟨s, none, some x⟩ ↔ Trim.Valid r ⟨s, some e, none⟩ := by
  constructor
  · intro h
    refine ⟨h.start, ?_, nofun, nofun⟩
    rintro _ ⟨⟩
    exact ⟨he, hsum ▸ lt_add_of_pos_right _ (h.duration x rfl).2⟩
  · intro h
    refine ⟨h.start, nofun, ?_, nofun⟩
    rintro _ ⟨⟩
    have hlater := (h.finish e rfl).2
    rw [hsum] at hlater
    exact ⟨hx, pos_of_lt_add_right hlater⟩

/-- The compiler computes the end to which a length leads. -/
theorem Trim.Valid.add_eq {r : Rounding} {s x e : Number} (h : Trim.Valid r ⟨s, none, some x⟩)
    (he : e.isFinite = true) (hsum : e.rat = s.rat + x.rat) : Number.add .exact s x = e := by
  obtain ⟨hx, hpositive⟩ := h.duration x rfl
  have hstart : s.isFinite = true ∧ 0 ≤ s.rat := h.start
  have hne : s.rat + x.rat ≠ 0 := (add_pos_of_nonneg_of_pos hstart.2 hpositive).ne'
  rw [eq_finite_of_rat he hsum hne,
    eq_finite_of_rat (isFinite_add_exact hstart.1 hx) (rat_add_exact hstart.1 hx) hne]

/-- **Whether a length is given or an end, the compiler cannot tell.** -/
theorem Clip.GivesLengthFor.alike (exact : k.rounding = .exact) (h : c.GivesLengthFor d) :
    k.Alike assets c d := by
  obtain ⟨s, x, e, hx, he, hsum, htrim, rfl⟩ := h
  obtain ⟨source, mediaType, trim, speed, filters, crop, scale, overlays, volume⟩ := c
  subst htrim
  have hend (r : Rounding) (hcheck : Clip.check r ⟨source, mediaType, some ⟨s, none, some x⟩, speed,
      filters, crop, scale, overlays, volume⟩ = .ok ()) : Number.add .exact s x = e :=
    ((Clip.check_eq_ok_iff.mp hcheck).trim _ rfl).add_eq he hsum
  refine ⟨rfl, rfl, ?_, fun hcheck out index next => ?_, fun hcheck out index next => ?_⟩
  · simp only [Clip.check, andThen_eq_ok_iff, ifGiven_eq_ok_iff, Option.some.injEq, forall_eq',
      Trim.check_eq_ok_iff, Trim.valid_length_iff hx he hsum]
    rfl
  · have htiming (i : Nat) (a : Asset) : k.timing i ⟨source, mediaType, some ⟨s, none, some x⟩, speed,
          filters, crop, scale, overlays, volume⟩ a =
        k.timing i ⟨source, mediaType, some ⟨s, some e, none⟩, speed, filters, crop, scale, overlays,
          volume⟩ a := by
      simp only [Compiler.timing, Clip.requestedEnd?, exact, hend _ hcheck]
      rfl
    simp only [Compiler.clipSection, htiming]
    rfl
  · simp only [Compiler.soundtrackSection, Clip.requestedEnd?, exact, hend _ hcheck]
    rfl

theorem Clip.SameRange.alike (exact : k.rounding = .exact) (h : c.SameRange d) :
    k.Alike assets c d := by
  rcases h with rfl | h | h
  · exact .refl k assets c
  · exact h.alike exact
  · exact (h.alike exact).symm

theorem Timeline.SameRanges.alikeThroughout (exact : k.rounding = .exact) (h : t.SameRanges u) :
    k.AlikeThroughout assets t u where
  clips := h.clips.imp fun _ _ => Clip.SameRange.alike exact
  soundtrack := h.soundtrack.imp fun _ _ => Clip.SameRange.alike exact
  settings := h.settings

end Reworded

/-- **In exact arithmetic a clip shows a range that is never empty, or its file is over before it
starts.**  The range ends at the end that is asked for or at that of the file, whichever comes first, and
without either a length is assumed and there is one warning.  Timelines that give lengths of ranges or the
ends to which they lead have the same plans. -/
theorem clips_show_their_range (k : Compiler) (exact : k.rounding = .exact)
    (fallback : Number.lt (.finite 0) k.defaults.fallbackDuration = true) :
    (∀ (i : Nat) (c : Clip) (a : Asset), c.check k.rounding = .ok () →
      (∀ d, a.duration = some d → d.isFinite = true) →
      ((∃ d, a.duration = some d ∧ d.rat ≤ c.start.rat) →
        ∃ f, k.timing i c a = .error f ∧ f.problem.kind = .invalidTrim) ∧
      ((∀ d, a.duration = some d → c.start.rat < d.rat) →
        ∃ tm said, k.timing i c a = .ok (tm, said) ∧ k.Shows c a tm said)) ∧
    ∀ (assets : Assets) (t u : Timeline), t.SameRanges u →
      ∀ p, k.compile t assets = .ok p ↔ k.compile u assets = .ok p := by
  constructor
  · intro i c a hcheck known
    constructor
    · rintro ⟨d, hd, hlate⟩
      have hle : Number.le d c.start = true := by
        rw [le_of_isFinite (known d hd) (Clip.isFinite_of_check hcheck).start.1]
        exact decide_eq_true hlate
      exact ⟨_, timing_eq_error_iff.mpr ⟨d, hd, hle, rfl⟩, rfl⟩
    · intro early
      rw [exact] at hcheck
      exact timing_shows exact fallback (Clip.check_eq_ok_iff.mp hcheck) known early i
  · intro assets t u same
    exact (same.alikeThroughout exact).compile_iff

namespace Sample

/-- A clip with a range. -/
def excerpt (trim : Trim) : Clip :=
  { Clip.whole (file "beach.mp4") .video (.finite 1) with trim := some trim }

/-- Nothing but a clip with a range. -/
def excerptAlone (trim : Trim) : Timeline := ⟨[excerpt trim], .unset, [], noSoundtrack⟩

/-- Three seconds from the second on. -/
def byLength : Trim := ⟨.finite 2, none, some (.finite 3)⟩

def byEnd : Trim := ⟨.finite 2, some (.finite 5), none⟩

/-- The file of the clip, as long as it is. -/
def fileOf (seconds : Rat) : Asset := ⟨"/work/0.mp4", true, true, some (.finite seconds)⟩

end Sample

/-- A range that the file cuts short, one behind its end, and one in two wordings. -/
theorem clips_show_their_range_sample :
    (∃ tm said, Sample.unrounded.timing 0 (Sample.excerpt Sample.byLength) (Sample.fileOf 4) =
      .ok (tm, said) ∧ tm.finish.rat = 4) ∧
    (∃ f, Sample.unrounded.timing 0 (Sample.excerpt Sample.byLength) (Sample.fileOf 2) =
      .error f) ∧
    ∃ p, Sample.unrounded.compile (Sample.excerptAlone Sample.byLength) (Sample.files 8 true) =
        .ok p ∧
      Sample.unrounded.compile (Sample.excerptAlone Sample.byEnd) (Sample.files 8 true) = .ok p := by
  obtain ⟨hrange, hplans⟩ := clips_show_their_range Sample.unrounded rfl (by decide)
  have hcheck : (Sample.excerpt Sample.byLength).check .exact = .ok () := by decide +kernel
  have known (seconds : Rat) : ∀ d, (Sample.fileOf seconds).duration = some d →
      d.isFinite = true := by
    rintro d ⟨⟩
    rfl
  refine ⟨?_, ?_, ?_⟩
  · obtain ⟨tm, said, htiming, hshows⟩ := (hrange 0 _ _ hcheck (known 4)).2 (by
      rintro d ⟨⟩
      decide +kernel)
    have hends : (Sample.excerpt Sample.byLength).ends (Sample.fileOf 4) = [5, 4] := by
      decide +kernel
    obtain ⟨-, hmem, hleast, -⟩ := hshows.least (by simp [hends])
    rw [hends] at hmem hleast
    have hfile := hleast 4 (by simp)
    rcases List.mem_pair.mp hmem with h | h
    · rw [h] at hfile
      norm_num at hfile
    · exact ⟨tm, said, htiming, h⟩
  · obtain ⟨f, hf, -⟩ := (hrange 0 _ _ hcheck (known 2)).1 ⟨_, rfl, by decide +kernel⟩
    exact ⟨f, hf⟩
  · have same : (Sample.excerptAlone Sample.byLength).SameRanges
        (Sample.excerptAlone Sample.byEnd) :=
      ⟨.cons (.inr (.inl ⟨_, _, .finite 5, rfl, rfl, by decide +kernel, rfl, rfl⟩)) .nil, .nil, rfl⟩
    obtain ⟨p, hp⟩ : ∃ p, Sample.unrounded.compile (Sample.excerptAlone Sample.byLength)
        (Sample.files 8 true) = .ok p :=
      exists_plan (by decide +kernel) (by decide +kernel) (by decide +kernel) (by decide +kernel)
    exact ⟨p, hp, (hplans _ _ _ same p).mp hp⟩

end Montage
