import Montage.Proofs.ExactNumbers
import Montage.Proofs.Validity

/-! # Factors of a tempo

A tempo filter at most doubles or halves, so a speed is split: a factor is taken out as long as the rest
lies outside of what one filter can do (`Tempo.Loop`), first twos and then halves.  For a speed above
zero both loops end, and the bound on their steps that the definition carries is never reached
(`Tempo.ratFactors_loops`); for other speeds the second one goes on forever (`Tempo.loops_end_iff`).

What is taken out and what is left make up the speed (`Tempo.Loop.pow_mul`), so in exact arithmetic the
factors multiply to it, up to a rest that is as good as one and is left out.
-/
namespace Montage

open Number

namespace Tempo

/-! ### Taking out factors -/

/-- Takes a factor out of a number as long as the number is outside; counts the factors and keeps the
rest. -/
inductive Loop (outside : ℚ → Prop) (factor : ℚ) : ℚ → Nat → ℚ → Prop
  | stop {q : ℚ} (inside : ¬outside q) : Loop outside factor q 0 q
  | again {q rest : ℚ} {n : Nat} (h : outside q) (more : Loop outside factor (q / factor) n rest) :
    Loop outside factor q (n + 1) rest

namespace Loop
variable {outside : ℚ → Prop} {factor q rest : ℚ} {n : Nat}

/-- **Nothing is lost.** -/
theorem pow_mul (h : Loop outside factor q n rest) (hfactor : factor ≠ 0) :
    factor ^ n * rest = q := by
  induction h with
  | stop => rw [pow_zero, one_mul]
  | again _ _ ih => rw [pow_succ', mul_assoc, ih, mul_div_cancel₀ _ hfactor]

theorem inside (h : Loop outside factor q n rest) : ¬outside rest := by
  induction h with
  | stop inside => exact inside
  | again _ _ ih => exact ih

/-- What is inside is kept. -/
theorem of_inside (h : Loop outside factor q n rest) (hq : ¬outside q) : n = 0 ∧ rest = q := by
  cases h with
  | stop => exact ⟨rfl, rfl⟩
  | again houtside => exact absurd houtside hq

/-- What every factor that is taken out preserves holds of the rest. -/
theorem keeps {I : ℚ → Prop} (h : Loop outside factor q n rest) (hq : I q)
    (step : ∀ p, outside p → I p → I (p / factor)) : I rest := by
  induction h with
  | stop => exact hq
  | again houtside _ ih => exact ih (step _ houtside hq)

/-- What is left after twos were taken out is above one. -/
theorem eq_or_one_lt (h : Loop (2 < ·) 2 q n rest) : rest = q ∨ 1 < rest :=
  h.keeps (I := fun p => p = q ∨ 1 < p) (.inl rfl) fun p hp _ => .inr (by linarith)

end Loop

/-! ### Enough steps -/

theorem halveDown_loop {fuel : Nat} {q : ℚ} (h : q < 2 ^ (fuel + 1)) :
    Loop (2 < ·) 2 q (halveDown fuel q).1 (halveDown fuel q).2 := by
  induction fuel generalizing q with
  | zero => exact .stop (by simpa using h.le)
  | succ fuel ih =>
    rw [halveDown]
    split
    · rename_i houtside
      exact .again houtside (ih (by rw [pow_succ] at h; linarith))
    · rename_i hinside
      exact .stop hinside

theorem doubleUp_loop {fuel : Nat} {q : ℚ} (h : 1 < q * 2 ^ (fuel + 1)) :
    Loop (· < 1 / 2) (1 / 2) q (doubleUp fuel q).1 (doubleUp fuel q).2 := by
  induction fuel generalizing q with
  | zero =>
    refine .stop (not_lt.mpr ?_)
    rw [zero_add, pow_one] at h
    linarith
  | succ fuel ih =>
    rw [doubleUp]
    split
    · rename_i houtside
      have hdouble : q / (1 / 2) = q * 2 := by ring
      refine .again houtside (hdouble ▸ ih ?_)
      rw [pow_succ'] at h
      linarith
    · rename_i hinside
      exact .stop hinside

/-- A number of which the numerator has few digits is not large. -/
theorem lt_two_pow_of_num {q : ℚ} (hq : 0 < q) {n : Nat} (hn : q.num.natAbs.log2 < n) :
    q < 2 ^ n := by
  have hnum : q.num.natAbs ≠ 0 := Int.natAbs_ne_zero.mpr (Rat.num_pos.mpr hq).ne'
  have hbound : (q.num.natAbs : ℚ) < 2 ^ n := by exact_mod_cast (Nat.log2_lt hnum).mp hn
  have hden : (1 : ℚ) ≤ q.den := by exact_mod_cast q.den_pos
  calc q = q.num.natAbs / q.den := by rw [← abs_eq_natAbs_div, abs_of_pos hq]
    _ ≤ q.num.natAbs := div_le_self (Nat.cast_nonneg _) hden
    _ < 2 ^ n := hbound

/-- A number of which the denominator has few digits is not small. -/
theorem one_lt_mul_two_pow_of_den {q : ℚ} (hq : 0 < q) {n : Nat} (hn : q.den.log2 < n) :
    1 < q * 2 ^ n := by
  have hbound : (q.den : ℚ) < 2 ^ n := by exact_mod_cast (Nat.log2_lt q.den_ne_zero).mp hn
  have hnum : (1 : ℚ) ≤ q.num := by exact_mod_cast Rat.num_pos.mpr hq
  have hden : (0 : ℚ) < q.den := by exact_mod_cast q.den_pos
  calc (1 : ℚ) = q.den / q.den := (div_self hden.ne').symm
    _ < 2 ^ n / q.den := div_lt_div_of_pos_right hbound hden
    _ ≤ q.num * 2 ^ n / q.den :=
      div_le_div_of_nonneg_right (le_mul_of_one_le_left (by positivity) hnum) hden.le
    _ = q * 2 ^ n := by
      conv_rhs => rw [← Rat.num_div_den q]
      ring

/-- **The bound on the steps is never reached**: both loops come to their end. -/
theorem ratFactors_loops (r : Rounding) {q : ℚ} (hq : 0 < q) : ∃ twos middle halves rest,
    Loop (2 < ·) 2 q twos middle ∧ Loop (· < 1 / 2) (1 / 2) middle halves rest ∧
      ratFactors r q = List.replicate twos (.finite 2) ++ List.replicate halves (.finite (1 / 2)) ++
        lastFactor r (.finite rest) := by
  have hdown := halveDown_loop (lt_two_pow_of_num hq
    (n := q.num.natAbs.log2 + q.den.log2 + 2 + 1) (by omega))
  have hmiddle : 1 < (halveDown (q.num.natAbs.log2 + q.den.log2 + 2) q).2 *
      2 ^ (q.num.natAbs.log2 + q.den.log2 + 2 + 1) := by
    -- what is left is the number itself, or it is above one
    rcases hdown.eq_or_one_lt with heq | hone
    · rw [heq]
      exact one_lt_mul_two_pow_of_den hq (by omega)
    · exact one_lt_mul_of_lt_of_le hone (one_le_pow₀ (by norm_num))
  exact ⟨_, _, _, _, hdown, doubleUp_loop hmiddle, rfl⟩

/-- **The loops end for the speeds above zero.** -/
theorem loops_end_iff {q : ℚ} : (∃ twos middle halves rest,
    Loop (2 < ·) 2 q twos middle ∧ Loop (· < 1 / 2) (1 / 2) middle halves rest) ↔ 0 < q := by
  constructor
  · rintro ⟨twos, middle, halves, rest, hdown, hup⟩
    by_contra hq
    obtain ⟨-, rfl⟩ := hdown.of_inside (by linarith)
    have hrest : rest ≤ 0 :=
      hup.keeps (I := (· ≤ 0)) (not_lt.mp hq) fun p _ hp => by linarith
    exact hup.inside (by linarith)
  · intro hq
    obtain ⟨twos, middle, halves, rest, hdown, hup, -⟩ := ratFactors_loops .exact hq
    exact ⟨twos, middle, halves, rest, hdown, hup⟩

/-! ### Factors in exact arithmetic -/

/-- A rest is as good as one. -/
def Negligible (rest : ℚ) : Prop := |rest - 1| ≤ 1 / 1000000000 * max |rest| 1

instance (rest : ℚ) : Decidable (Negligible rest) := inferInstanceAs (Decidable (_ ≤ _))

theorem lastFactor_exact (rest : ℚ) :
    lastFactor .exact (.finite rest) = if Negligible rest then [] else [.finite rest] := by
  have hclose : isClose .exact (.finite rest) (.finite 1) (1 / 1000000000) 0 = true ↔
      Negligible rest := by
    rw [isClose_exact_iff rfl rfl (by norm_num) (le_refl 0), rat_finite, rat_finite, abs_one]
    exact or_iff_left_of_imp fun h => h.trans (by positivity)
  exact if_congr hclose rfl rfl

/-- **A speed is a product of twos or of halves and of a rest that one filter can do.** -/
theorem exists_split {q : ℚ} (hq : 0 < q) : ∃ factor twosOrHalves rest,
    (factor = 2 ∨ factor = 1 / 2) ∧ 1 / 2 ≤ rest ∧ rest ≤ 2 ∧ factor ^ twosOrHalves * rest = q ∧
      ratFactors .exact q = List.replicate twosOrHalves (.finite factor) ++
        if Negligible rest then [] else [.finite rest] := by
  obtain ⟨twos, middle, halves, rest, hdown, hup, hfactors⟩ := ratFactors_loops .exact hq
  rw [lastFactor_exact] at hfactors
  have hlow : 1 / 2 ≤ rest := not_lt.mp hup.inside
  have hhigh : rest ≤ 2 :=
    hup.keeps (I := (· ≤ 2)) (not_lt.mp hdown.inside) fun p hp _ => by linarith
  cases hdown with
  | stop => exact ⟨1 / 2, halves, rest, .inr rfl, hlow, hhigh, hup.pow_mul (by norm_num), hfactors⟩
  | @again _ _ n houtside hmore =>
    -- once twos were taken out, there are no halves left
    have hmiddle : ¬middle < 1 / 2 := by
      rcases hmore.eq_or_one_lt with rfl | hone <;> linarith
    obtain ⟨rfl, rfl⟩ := hup.of_inside hmiddle
    have hall : Loop (2 < ·) 2 q (n + 1) rest := .again houtside hmore
    refine ⟨2, n + 1, rest, .inl rfl, hlow, hhigh, hall.pow_mul (by norm_num), ?_⟩
    rwa [List.replicate_zero, List.append_nil] at hfactors

theorem eq_of_mem_dropLast {α : Type} {n : Nat} {x y : α} {last : List α} (hlast : last.length ≤ 1)
    (h : y ∈ (List.replicate n x ++ last).dropLast) : y = x := by
  cases last with
  | nil =>
    rw [List.append_nil] at h
    exact List.eq_of_mem_replicate (List.mem_of_mem_dropLast h)
  | cons z more =>
    obtain rfl : more = [] := List.length_eq_zero_iff.mp (by simpa using hlast)
    rw [List.dropLast_concat] at h
    exact List.eq_of_mem_replicate h

/-- What lies between a half and two is written so. -/
theorem written_within {x : Number} (hlow : 1 / 2 ≤ x.rat) (hhigh : x.rat ≤ 2) :
    1 / 2 ≤ x.written ∧ x.written ≤ 2 := by
  have hhalf : (Number.finite (1 / 2)).written = 1 / 2 :=
    written_of_millionths (n := 500000) (by norm_num)
  have htwo : (Number.finite 2).written = 2 := written_of_millionths (n := 2000000) (by norm_num)
  constructor
  · rw [← hhalf]
    exact written_mono hlow
  · rw [← htwo]
    exact written_mono hhigh

end Tempo

/-- The factor of a tempo filter. -/
def Filter.tempo? : Filter → Option Number
  | .tempo x => some x
  | _ => none

/-- A sound goes through the tempo filters of its speed, and no others. -/
theorem tempos_audioFilters (c : Clip) (r : Rounding) (finish : Option Number) (rate : Int) :
    (c.audioFilters r finish rate).filterMap Filter.tempo? = Tempo.factors r c.speed := by
  have htempos (l : List Number) : (l.map Filter.tempo).filterMap Filter.tempo? = l := by
    rw [List.filterMap_map]
    exact List.filterMap_some
  have hvolume : (if Number.same c.audioVolume (.finite 1) then []
      else [Filter.volume c.audioVolume]).filterMap Filter.tempo? = [] := by
    split <;> rfl
  have hrange : [Filter.audioTrim c.start finish, .resetAudio].filterMap Filter.tempo? = [] := rfl
  have hformat : [Filter.audioFormat rate].filterMap Filter.tempo? = [] := rfl
  simp only [Clip.audioFilters, List.filterMap_append, htempos, hvolume, hrange, hformat,
    List.nil_append, List.append_nil]

open Tempo in
/-- **A sound goes at its speed, whatever the speed.**  The loops that split a speed end if and only if it
is above zero.  Each factor lies between a half and two, as a number and as it is written; all but the
last one are twos, or all but the last one are halves; and in exact arithmetic they multiply to the speed,
unless a rest was left out that is as good as one.  The speed of a clip that passed the check is above zero
and at most a hundred, and its sound goes through the factors of this speed. -/
theorem tempos_multiply_to_speed :
    (∀ speed : Number, speed.isFinite = true → 0 < speed.rat →
      (∃ twos middle halves rest, Loop (2 < ·) 2 speed.rat twos middle ∧
        Loop (· < 1 / 2) (1 / 2) middle halves rest ∧
        factors .exact speed = List.replicate twos (.finite 2) ++
          List.replicate halves (.finite (1 / 2)) ++ lastFactor .exact (.finite rest)) ∧
      (∀ f ∈ factors .exact speed, f.isFinite = true ∧ 1 / 2 ≤ f.rat ∧ f.rat ≤ 2 ∧
        ∃ w, readPlaces? f.sixPlaces = some w ∧ 1 / 2 ≤ w ∧ w ≤ 2) ∧
      ((∀ f ∈ (factors .exact speed).dropLast, f = .finite 2) ∨
        ∀ f ∈ (factors .exact speed).dropLast, f = .finite (1 / 2)) ∧
      (((factors .exact speed).map Number.rat).prod = speed.rat ∨
        ∃ rest, ((factors .exact speed).map Number.rat).prod * rest = speed.rat ∧
          |rest - 1| ≤ 1 / 1000000000 * Max.max |rest| 1)) ∧
    (∀ q : ℚ, (∃ twos middle halves rest, Loop (2 < ·) 2 q twos middle ∧
      Loop (· < 1 / 2) (1 / 2) middle halves rest) ↔ 0 < q) ∧
    ∀ (r : Rounding) (c : Clip), c.check r = .ok () →
      (c.speed.isFinite = true ∧ 0 < c.speed.rat ∧ c.speed.rat ≤ 100) ∧
      ∀ finish rate, (c.audioFilters .exact finish rate).filterMap Filter.tempo? =
        factors .exact c.speed := by
  refine ⟨?_, fun q => loops_end_iff, ?_⟩
  swap
  · intro r c hcheck
    exact ⟨(Clip.check_eq_ok_iff.mp hcheck).speed, tempos_audioFilters c .exact⟩
  intro speed hfinite hpositive
  generalize hq : speed.rat = q at hpositive ⊢
  obtain rfl := eq_finite_of_rat hfinite hq hpositive.ne'
  obtain ⟨factor, count, rest, hfactor, hlow, hhigh, hproduct, hsplit⟩ := exists_split hpositive
  refine ⟨ratFactors_loops .exact hpositive, ?_, ?_, ?_⟩
  · intro f hf
    have hwithin : f.isFinite = true ∧ 1 / 2 ≤ f.rat ∧ f.rat ≤ 2 := by
      rw [factors, hsplit] at hf
      rcases List.mem_append.mp hf with hf | hf
      · rw [List.eq_of_mem_replicate hf]
        rcases hfactor with rfl | rfl <;> norm_num
      · split at hf
        · cases hf
        · rw [List.mem_singleton.mp hf]
          exact ⟨rfl, hlow, hhigh⟩
    exact ⟨hwithin.1, hwithin.2.1, hwithin.2.2, _, readPlaces?_sixPlaces hwithin.1,
      written_within hwithin.2.1 hwithin.2.2⟩
  · have hall : ∀ f ∈ (factors .exact (.finite q)).dropLast, f = .finite factor := by
      intro f hf
      rw [factors, hsplit] at hf
      apply eq_of_mem_dropLast _ hf
      split <;> simp
    rcases hfactor with rfl | rfl
    · exact .inl hall
    · exact .inr hall
  · rw [factors, hsplit]
    by_cases hone : Negligible rest
    · exact .inr ⟨rest, by simpa [hone] using hproduct, hone⟩
    · exact .inl (by simpa [hone] using hproduct)

/-- A clip at the greatest speed. -/
def Sample.hundredfold : Clip :=
  { Clip.whole (Sample.file "beach.mp4") .video (.finite 1) with speed := .finite 100 }

/-- A hundred is six doublings and a rest, and the sound of a clip at that speed goes through them. -/
theorem tempos_multiply_to_speed_hundredfold :
    (∀ f ∈ Tempo.factors .exact (.finite 100), ∃ w, readPlaces? f.sixPlaces = some w ∧
      1 / 2 ≤ w ∧ w ≤ 2) ∧
    Sample.hundredfold.check .exact = .ok () ∧
    (Sample.hundredfold.audioFilters .exact none 48000).filterMap Filter.tempo? =
      List.replicate 6 (.finite 2) ++ [.finite (25 / 16)] := by
  obtain ⟨hspeeds, -, hclips⟩ := tempos_multiply_to_speed
  have hcheck : Sample.hundredfold.check .exact = .ok () := by decide +kernel
  obtain ⟨-, hwithin, -⟩ := hspeeds (.finite 100) rfl (by decide +kernel)
  refine ⟨fun f hf => (hwithin f hf).2.2.2, hcheck, ?_⟩
  rw [(hclips .exact Sample.hundredfold hcheck).2 none 48000]
  decide +kernel

end Montage
