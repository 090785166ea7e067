import Montage.Proofs.EngineRuns
import Montage.Proofs.NearestOrder

/-! # Shares of the work

The engine reports how many microseconds it has encoded, and what is passed on is the share that they
are of the length of the plan.  A share is never more than one, whatever is reported
(`Engine.share_le_one`), and shares are in the order of the times, since rounding keeps the order
(`Engine.pairwise_sharesOf`).  But nothing keeps a share from being less than nothing: it has the
sign of the time, and the engine may report any integer (`Engine.share_le_zero`).
-/
namespace Montage

/-! ### Numbers in order -/

namespace Number
variable {x y z : Number}

/-- What lies between two finite numbers is finite. -/
theorem isFinite_of_between {p q : ℚ} (h : le (finite p) x = true) (h' : le x (finite q) = true) :
    x.isFinite = true := by
  cases x <;> simp_all [isFinite, le]

theorem min_le_bound (x : Number) (q : ℚ) : le (min (finite q) x) (finite q) = true := by
  unfold min
  split
  · rename_i h
    exact lt_imp_le h
  · simp

theorem min_mono {q : ℚ} (h : le x y = true) :
    le (min (finite q) x) (min (finite q) y) = true := by
  rw [min.eq_def (finite q) y]
  split
  · rename_i hy
    rw [min, if_pos (lt_of_le_lt h hy)]
    exact h
  · exact min_le_bound x q

theorem le_min_bound {p q : ℚ} (hpq : p ≤ q) (h : le (finite p) x = true) :
    le (finite p) (min (finite q) x) = true := by
  unfold min
  split
  · exact h
  · simpa using hpq

/-- Both zeros stand at the same place. -/
theorem zero_le_eq (negative : Bool) : le (zero negative) x = le (finite 0) x := by
  cases negative <;> cases x <;> rfl

theorem le_zero_eq (negative : Bool) : le x (zero negative) = le x (finite 0) := by
  cases negative <;> cases x <;> rfl

variable {r : Rounding}

/-- A finite number over a positive one stands where the rounded quotient stands. -/
theorem div_finite (orderly : r.Orderly) (hx : x.isFinite = true) {q : ℚ} (hq : 0 < q)
    (y : Number) : le (div r x (finite q)) y = le (r.fit (x.rat / q)) y ∧
      le y (div r x (finite q)) = le y (r.fit (x.rat / q)) := by
  have hzero : (finite q).isZero = false := by simp [isZero, hq.ne']
  by_cases h : x.isZero = true
  · have hrat : x.rat = 0 := by
      rw [isZero, Bool.and_eq_true, beq_iff_eq] at h
      exact h.2
    have hdiv : ∃ negative, div r x (finite q) = zero negative :=
      ⟨x.isNegative != (finite q).isNegative, by
        cases x <;> simp_all [div, isFinite]⟩
    obtain ⟨negative, hdiv⟩ := hdiv
    rw [hdiv, hrat, zero_div, orderly.zero, zero_le_eq, le_zero_eq]
    exact ⟨rfl, rfl⟩
  · have hdiv : div r x (finite q) = r.fit (x.rat / q) := by
      cases x <;> simp_all [div, isFinite]
    rw [hdiv]
    exact ⟨rfl, rfl⟩

theorem div_infinite (hx : x.isFinite = true) :
    ∃ negative, div r x (infinite false) = zero negative := by
  cases x <;> simp_all [div, isFinite]

/-- Finite numbers in order have quotients by a positive number in order. -/
theorem div_mono (orderly : r.Orderly) (hx : x.isFinite = true) (hy : y.isFinite = true)
    (h : x.rat ≤ y.rat) {d : Number} (hd : lt (finite 0) d = true) :
    le (div r x d) (div r y d) = true := by
  cases d with
  | nan | negativeZero => cases hd
  | infinite negative =>
    obtain rfl : negative = false := by simpa [lt] using hd
    obtain ⟨a, ha⟩ := div_infinite (r := r) hx
    obtain ⟨b, hb⟩ := div_infinite (r := r) hy
    rw [ha, hb, zero_le_eq, le_zero_eq]
    rfl
  | finite q =>
    have hq : 0 < q := by simpa using hd
    rw [(div_finite orderly hx hq _).1, (div_finite orderly hy hq _).2]
    exact orderly.mono _ _ (div_le_div_of_nonneg_right h hq.le)

theorem zero_div_eq (r : Rounding) {d : Number} (hd : lt (finite 0) d = true) :
    ∃ negative, div r (finite 0) d = zero negative := by
  cases d with
  | nan | negativeZero => cases hd
  | infinite negative => exact ⟨(finite 0).isNegative != negative, rfl⟩
  | finite q =>
    have hq : q ≠ 0 := (show 0 < q by simpa using hd).ne'
    exact ⟨(finite 0).isNegative != (finite q).isNegative, by simp [div, isZero, hq]⟩

theorem zero_le_div (orderly : r.Orderly) (hx : x.isFinite = true) (h : 0 ≤ x.rat) {d : Number}
    (hd : lt (finite 0) d = true) : le (finite 0) (div r x d) = true := by
  have hzero := div_mono (x := finite 0) orderly rfl hx h hd
  obtain ⟨negative, hdiv⟩ := zero_div_eq r hd
  rwa [hdiv, zero_le_eq] at hzero

theorem div_le_zero (orderly : r.Orderly) (hx : x.isFinite = true) (h : x.rat ≤ 0) {d : Number}
    (hd : lt (finite 0) d = true) : le (div r x d) (finite 0) = true := by
  have hzero := div_mono (y := finite 0) orderly hx rfl h hd
  obtain ⟨negative, hdiv⟩ := zero_div_eq r hd
  rwa [hdiv, le_zero_eq] at hzero

end Number

/-! ### Shares -/

namespace Engine

open Number

variable {r : Rounding} {duration x y : Number}

theorem share_eq_some_iff : share r duration x = some y ↔
    lt (.finite 0) duration = true ∧ y = min (.finite 1) (div r x duration) := by
  rw [share]
  split
  · rename_i h
    simp [h, eq_comm]
  · rename_i h
    simp [h]

/-- A share is never more than one. -/
theorem share_le_one (h : share r duration x = some y) : le y (.finite 1) = true := by
  obtain ⟨-, rfl⟩ := share_eq_some_iff.mp h
  exact min_le_bound _ 1

theorem zero_le_share (orderly : r.Orderly) (hx : x.isFinite = true) (nonneg : 0 ≤ x.rat)
    (h : share r duration x = some y) : le (.finite 0) y = true := by
  obtain ⟨hd, rfl⟩ := share_eq_some_iff.mp h
  exact le_min_bound zero_le_one (zero_le_div orderly hx nonneg hd)

/-- Nothing keeps a share from being negative. -/
theorem share_le_zero (orderly : r.Orderly) (hx : x.isFinite = true) (nonpos : x.rat ≤ 0)
    (h : share r duration x = some y) : le y (.finite 0) = true := by
  obtain ⟨hd, rfl⟩ := share_eq_some_iff.mp h
  have hdiv := div_le_zero orderly hx nonpos hd
  have hone : lt (.finite 0) (.finite 1) = true := by simp
  rwa [Number.min, if_pos (lt_of_le_lt hdiv hone)]

/-- Shares are in the order of the times. -/
theorem share_mono (orderly : r.Orderly) {x' y' : Number} (hx : x.isFinite = true)
    (hx' : x'.isFinite = true) (hle : x.rat ≤ x'.rat) (h : share r duration x = some y)
    (h' : share r duration x' = some y') : le y y' = true := by
  obtain ⟨hd, rfl⟩ := share_eq_some_iff.mp h
  obtain ⟨-, rfl⟩ := share_eq_some_iff.mp h'
  exact min_mono (div_mono orderly hx hx' hle hd)

/-! ### Times -/

theorem seconds_eq_ok (orderly : r.Orderly) {n : Int} (h : seconds r n = .ok x) :
    x = r.fit (n / 1000000) ∧ x.isFinite = true := by
  have hvalue : (if n = 0 then .finite 0 else r.fit ((n : ℚ) / 1000000)) = r.fit (n / 1000000) := by
    split
    · rename_i hn
      rw [hn, Int.cast_zero, zero_div, orderly.zero]
    · rfl
  rw [seconds, hvalue] at h
  split at h
  · rename_i hfinite
    obtain rfl := Except.ok.inj h
    exact ⟨rfl, hfinite⟩
  · cases h

theorem seconds_mono (orderly : r.Orderly) {n m : Int} (hnm : n ≤ m) (hx : seconds r n = .ok x)
    (hy : seconds r m = .ok y) : x.rat ≤ y.rat := by
  obtain ⟨rfl, hfinite⟩ := seconds_eq_ok orderly hx
  obtain ⟨rfl, hfinite'⟩ := seconds_eq_ok orderly hy
  have hquotient : (n : ℚ) / 1000000 ≤ m / 1000000 :=
    div_le_div_of_nonneg_right (by exact_mod_cast hnm) (by norm_num)
  exact rat_le_of_le hfinite hfinite' (orderly.mono _ _ hquotient)

theorem seconds_zero (r : Rounding) : seconds r 0 = .ok (.finite 0) := rfl

/-- The microseconds that lines report. -/
def reported (ls : List (List UInt8)) : List Int := ls.filterMap progressMicroseconds?

/-- The shares that are passed on of what lines report. -/
def sharesOf (r : Rounding) (duration : Number) (ls : List (List UInt8)) : List Number :=
  (reportedTimes r ls).1.filterMap (share r duration)

/-- Every time that is read was reported. -/
theorem mem_reportedTimes {ls : List (List UInt8)} (hx : x ∈ (reportedTimes r ls).1) :
    ∃ n ∈ reported ls, seconds r n = .ok x := by
  induction ls with
  | nil => cases hx
  | cons l rest ih =>
    have hrest (h : x ∈ (reportedTimes r rest).1) :
        ∃ n ∈ reported (l :: rest), seconds r n = .ok x := by
      obtain ⟨n, hn, hseconds⟩ := ih h
      exact ⟨n, (List.sublist_cons_self l rest).filterMap _ |>.subset hn, hseconds⟩
    cases hn : progressMicroseconds? l with
    | none =>
      simp only [reportedTimes, hn] at hx
      exact hrest hx
    | some n =>
      cases hs : seconds r n with
      | error f =>
        simp only [reportedTimes, hn, hs] at hx
        cases hx
      | ok z =>
        simp only [reportedTimes, hn, hs] at hx
        rcases List.mem_cons.mp hx with rfl | hx
        · exact ⟨n, List.mem_filterMap.mpr ⟨l, List.mem_cons_self, hn⟩, hs⟩
        · exact hrest hx

/-- Of a report of a time after the beginning no negative share is passed on. -/
theorem zero_le_share_of_nonneg (orderly : r.Orderly) {n : Int} (nonneg : 0 ≤ n)
    (time : seconds r n = .ok x) (h : share r duration x = some y) : le (.finite 0) y = true :=
  zero_le_share orderly (seconds_eq_ok orderly time).2
    (seconds_mono orderly nonneg (seconds_zero r) time) h

theorem share_le_zero_of_nonpos (orderly : r.Orderly) {n : Int} (nonpos : n ≤ 0)
    (time : seconds r n = .ok x) (h : share r duration x = some y) : le y (.finite 0) = true :=
  share_le_zero orderly (seconds_eq_ok orderly time).2
    (seconds_mono orderly nonpos time (seconds_zero r)) h

theorem mem_sharesOf {ls : List (List UInt8)} (hy : y ∈ sharesOf r duration ls) :
    ∃ n ∈ reported ls, ∃ x, seconds r n = .ok x ∧ share r duration x = some y := by
  obtain ⟨x, hx, h⟩ := List.mem_filterMap.mp hy
  obtain ⟨n, hn, time⟩ := mem_reportedTimes hx
  exact ⟨n, hn, x, time, h⟩

/-- Times that are reported in order are read in order. -/
theorem pairwise_reportedTimes (orderly : r.Orderly) {ls : List (List UInt8)}
    (h : (reported ls).Pairwise (· ≤ ·)) :
    (reportedTimes r ls).1.Pairwise fun x y => x.rat ≤ y.rat := by
  induction ls with
  | nil => exact List.Pairwise.nil
  | cons l rest ih =>
    cases hn : progressMicroseconds? l with
    | none =>
      rw [reported, List.filterMap_cons_none hn] at h
      simp only [reportedTimes, hn]
      exact ih h
    | some n =>
      rw [reported, List.filterMap_cons_some hn, List.pairwise_cons] at h
      cases hs : seconds r n with
      | error f =>
        simp only [reportedTimes, hn, hs]
        exact List.Pairwise.nil
      | ok z =>
        simp only [reportedTimes, hn, hs]
        refine List.pairwise_cons.mpr ⟨fun y hy => ?_, ih h.2⟩
        obtain ⟨m, hm, hsm⟩ := mem_reportedTimes hy
        exact seconds_mono orderly (h.1 m hm) hs hsm

/-- **Shares are in the order of the reports.** -/
theorem pairwise_sharesOf (orderly : r.Orderly) (duration : Number) {ls : List (List UInt8)}
    (h : (reported ls).Pairwise (· ≤ ·)) :
    (sharesOf r duration ls).Pairwise fun x y => le x y = true := by
  refine List.pairwise_filterMap.mpr ((pairwise_reportedTimes orderly h).imp_of_mem ?_)
  intro x x' hx hx' hle y hy y' hy'
  obtain ⟨n, -, hn⟩ := mem_reportedTimes hx
  obtain ⟨m, -, hm⟩ := mem_reportedTimes hx'
  exact share_mono orderly (seconds_eq_ok orderly hn).2 (seconds_eq_ok orderly hm).2 hle hy hy'

/-! ### Percent -/

theorem truncate_le {q : ℚ} (h : q ≤ 100) : truncate q ≤ 100 := by
  unfold truncate
  split
  · rename_i hneg
    have : 0 ≤ (-q).floor := Rat.le_floor_iff.mpr (by push_cast; linarith)
    omega
  · have : (q.floor : ℚ) ≤ 100 := (Rat.floor_le q).trans h
    exact_mod_cast this

theorem truncate_nonneg {q : ℚ} (h : 0 ≤ q) : 0 ≤ truncate q := by
  rw [truncate, if_neg (not_lt.mpr h)]
  exact Rat.le_floor_iff.mpr (by push_cast; exact h)

/-- A hundred times a finite number stands where the rounded product stands. -/
theorem mul_hundred (orderly : r.Orderly) (hx : x.isFinite = true) (z : Number) :
    le (mul r x (.finite 100)) z = le (r.fit (x.rat * 100)) z ∧
      le z (mul r x (.finite 100)) = le z (r.fit (x.rat * 100)) := by
  by_cases h : x.rat = 0
  · obtain ⟨negative, hmul⟩ : ∃ negative, mul r x (.finite 100) = zero negative :=
      ⟨x.isNegative != (finite 100).isNegative, by
        cases x <;> simp_all [mul, isFinite, isZero]⟩
    rw [hmul, h, zero_mul, orderly.zero, zero_le_eq, le_zero_eq]
    exact ⟨rfl, rfl⟩
  · have hmul : mul r x (.finite 100) = r.fit (x.rat * 100) := by
      cases x <;> simp_all [mul, isFinite, isZero]
    rw [hmul]
    exact ⟨rfl, rfl⟩

theorem percent_eq_ok {p : Int} (h : percent r x = .ok p) :
    (mul r x (.finite 100)).isFinite = true ∧ p = truncate (mul r x (.finite 100)).rat := by
  rw [percent] at h
  split at h
  · rename_i hfinite
    exact ⟨hfinite, (Except.ok.inj h).symm⟩
  · cases h

theorem mul_le_hundred (orderly : r.Orderly) (hx : x.isFinite = true)
    (h : le x (.finite 1) = true) : le (mul r x (.finite 100)) (.finite 100) = true := by
  have hrat : x.rat ≤ 1 := rat_le_of_le (y := .finite 1) hx rfl h
  rw [(mul_hundred orderly hx _).1, ← orderly.hundred]
  exact orderly.mono _ _ (by linarith)

/-- No percentage of a share is more than a hundred. -/
theorem percent_le {p : Int} (orderly : r.Orderly) (h : le x (.finite 1) = true)
    (hp : percent r x = .ok p) : p ≤ 100 := by
  obtain ⟨hfinite, rfl⟩ := percent_eq_ok hp
  have hx : x.isFinite = true := by
    cases x with
    | finite | negativeZero => rfl
    | nan => cases h
    | infinite => cases hfinite
  exact truncate_le (rat_le_of_le (y := .finite 100) hfinite rfl (mul_le_hundred orderly hx h))

/-- A share that is not negative has a percentage. -/
theorem exists_percent (orderly : r.Orderly) (h : le (.finite 0) x = true)
    (h' : le x (.finite 1) = true) : ∃ p, percent r x = .ok p ∧ 0 ≤ p ∧ p ≤ 100 := by
  have hx := isFinite_of_between h h'
  have hrat : 0 ≤ x.rat := rat_le_of_le (x := .finite 0) rfl hx h
  have hlow : le (.finite 0) (mul r x (.finite 100)) = true := by
    rw [(mul_hundred orderly hx _).2, ← orderly.zero]
    exact orderly.mono _ _ (by linarith)
  have hfinite := isFinite_of_between hlow (mul_le_hundred orderly hx h')
  have hp : percent r x = .ok (truncate (mul r x (.finite 100)).rat) := if_pos hfinite
  exact ⟨_, hp, truncate_nonneg (rat_le_of_le (x := .finite 0) rfl hfinite hlow),
    percent_le orderly h' hp⟩

end Engine
end Montage
