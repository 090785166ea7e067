import Montage.Proofs.ExactNumbers
import Montage.Proofs.ReadNumbers
import Mathlib.Computability.RegularExpressions
import Mathlib.Data.List.DropRight
import Mathlib.Tactic.IntervalCases

/-! # The texts of numbers

All numbers of a graph are written in one form (`Number.placesForm`): perhaps a minus, a whole number
without zeros in front, and perhaps a point with at most six places, the last of which is not zero.
Such a text says a whole number of millionths, the one nearest to the number, and of two that are equally
near the even one (`Number.NearestMillionths`).  There is exactly one such number of millionths, and the
text depends on nothing else (`Number.sixPlaces_eq_countText`).  So the values of texts are in the order
of their numbers, and two numbers have the same text if and only if the same number of millionths is
nearest to both (`decimals_canonical`).
-/
namespace Montage

namespace Number

/-! ### The form -/

section Form

open RegularExpression

/-- One of some characters. -/
def oneOf (cs : List Char) : RegularExpression Char := (cs.map char).sum

/-- What may be left out. -/
def perhaps (P : RegularExpression Char) : RegularExpression Char := 1 + P

def digit : RegularExpression Char := oneOf "0123456789".toList

def nonzeroDigit : RegularExpression Char := oneOf "123456789".toList

/-- A whole number without zeros in front. -/
def wholeForm : RegularExpression Char := char '0' + nonzeroDigit * digit.star

/-- The texts `-?(0|[1-9][0-9]*)(\.[0-9]{0,5}[1-9])?`. -/
def placesForm : RegularExpression Char :=
  perhaps (char '-') * wholeForm * perhaps (char '.' * perhaps digit ^ 5 * nonzeroDigit)

variable {P : RegularExpression Char} {cs : List Char} {c : Char} {n : Nat}

theorem mem_oneOf (h : c ∈ cs) : [c] ∈ (oneOf cs).matches' := by
  induction cs with
  | nil => cases h
  | cons d rest ih =>
    rw [oneOf, List.map_cons, List.sum_cons, matches'_add, Language.mem_add]
    rcases List.mem_cons.mp h with rfl | h
    · exact Or.inl rfl
    · exact Or.inr (ih h)

theorem nil_mem_perhaps (P : RegularExpression Char) : [] ∈ (perhaps P).matches' :=
  Or.inl Language.nil_mem_one

theorem mem_perhaps (h : cs ∈ P.matches') : cs ∈ (perhaps P).matches' := Or.inr h

/-- A digit is one of ten characters. -/
theorem exists_of_isDigit (h : c.isDigit = true) : ∃ n, 48 ≤ n ∧ n ≤ 57 ∧ c = Char.ofNat n := by
  have hc : '0' ≤ c ∧ c ≤ '9' := by simpa [Char.isDigit, Char.le_def] using h
  exact ⟨c.toNat, hc.1, hc.2, (Char.ofNat_toNat c).symm⟩

theorem mem_digit (h : c.isDigit = true) : [c] ∈ digit.matches' := by
  refine mem_oneOf ?_
  obtain ⟨n, hlow, hhigh, rfl⟩ := exists_of_isDigit h
  interval_cases n <;> decide

theorem mem_nonzeroDigit (h : c.isDigit = true) (hc : c ≠ '0') : [c] ∈ nonzeroDigit.matches' := by
  refine mem_oneOf ?_
  obtain ⟨n, hlow, hhigh, rfl⟩ := exists_of_isDigit h
  interval_cases n
  · exact absurd rfl hc
  all_goals decide

/-- Digits are one after the other. -/
theorem digits_eq_flatten (cs : List Char) (n : Nat) :
    cs = (cs.map ([·]) ++ List.replicate n []).flatten := by
  rw [List.flatten_append, List.flatten_replicate_nil, List.append_nil]
  exact (List.flatMap_singleton' cs).symm

theorem mem_star_digit (h : ∀ c ∈ cs, c.isDigit = true) : cs ∈ digit.star.matches' := by
  refine Language.mem_kstar.mpr ⟨_, digits_eq_flatten cs 0, fun y hy => ?_⟩
  rw [List.replicate_zero, List.append_nil] at hy
  obtain ⟨c, hc, rfl⟩ := List.mem_map.mp hy
  exact mem_digit (h c hc)

theorem mem_pow_digit (h : ∀ c ∈ cs, c.isDigit = true) (short : cs.length ≤ n) :
    cs ∈ (perhaps digit ^ n).matches' := by
  rw [matches'_pow, Language.mem_pow]
  refine ⟨_, digits_eq_flatten cs (n - cs.length), ?_, fun y hy => ?_⟩
  · rw [List.length_append, List.length_map, List.length_replicate]
    omega
  · rcases List.mem_append.mp hy with hy | hy
    · obtain ⟨c, hc, rfl⟩ := List.mem_map.mp hy
      exact mem_perhaps (mem_digit (h c hc))
    · rw [List.eq_of_mem_replicate hy]
      exact nil_mem_perhaps digit

/-! ### Texts have the form -/

/-- Only zero begins with a zero. -/
theorem digits_of_pos (h : 0 < n) : ∃ c rest, Nat.toDigits 10 n = c :: rest ∧ c ≠ '0' := by
  induction n using Nat.strong_induction_on with
  | h n ih =>
    rw [Nat.toDigits_eq_if (by decide)]
    split
    · rename_i hsmall
      refine ⟨Nat.digitChar n, [], rfl, ?_⟩
      interval_cases n <;> decide
    · rename_i hlarge
      obtain ⟨c, rest, heq, hc⟩ := ih (n / 10) (by omega) (by omega)
      exact ⟨c, rest ++ [Nat.digitChar (n % 10)], by rw [heq, List.cons_append], hc⟩

theorem mem_wholeForm (n : Nat) : Nat.toDigits 10 n ∈ wholeForm.matches' := by
  rcases Nat.eq_zero_or_pos n with rfl | hpos
  · exact Or.inl (by rw [Nat.toDigits_zero]; rfl)
  · obtain ⟨c, rest, heq, hc⟩ := digits_of_pos hpos
    have hdigits : ∀ d ∈ c :: rest, d.isDigit = true :=
      fun d hd => isDigit_of_mem_digits (heq ▸ hd)
    obtain ⟨hfirst, hrest⟩ := List.forall_mem_cons.mp hdigits
    rw [heq]
    exact Or.inr (Language.append_mem_mul (mem_nonzeroDigit hfirst hc) (mem_star_digit hrest))

/-- The last of the places is not zero. -/
theorem trimmedPlaces_cases (n : Nat) :
    trimmedPlaces n = [] ∨ ∃ before c, trimmedPlaces n = before ++ [c] ∧ c ≠ '0' := by
  by_cases hnone : trimmedPlaces n = []
  · exact Or.inl hnone
  · have hlast := List.rdropWhile_last_not (· == '0') (padLeft 6 (Nat.repr n)).toList hnone
    refine Or.inr ⟨_, _, (List.dropLast_append_getLast hnone).symm, fun heq => hlast ?_⟩
    exact beq_iff_eq.mpr heq

/-- With a minus or without. -/
theorem mem_placesForm {sign : List Char} (hsign : sign ∈ (perhaps (char '-')).matches') (n : Nat) :
    sign ++ (placesText n).toList ∈ placesForm.matches' := by
  obtain ⟨hdigits, k, hlength, -⟩ := digits_trimmedPlaces (Nat.mod_lt n (by decide : 0 < 1000000))
  rw [toList_placesText, ← List.append_assoc]
  refine Language.append_mem_mul (Language.append_mem_mul hsign (mem_wholeForm _)) ?_
  rcases trimmedPlaces_cases (n % 1000000) with hnone | ⟨before, c, heq, hc⟩
  · rw [if_pos hnone]
    exact nil_mem_perhaps _
  · rw [heq] at hdigits hlength ⊢
    rw [List.length_append, List.length_singleton] at hlength
    obtain ⟨hbefore, hlast⟩ := List.forall_mem_append.mp hdigits
    rw [if_neg (by simp)]
    refine mem_perhaps ?_
    have hpoint : ['.'] ++ before ∈ (char '.' * perhaps digit ^ 5).matches' :=
      Language.append_mem_mul rfl (mem_pow_digit hbefore (by omega))
    exact Language.append_mem_mul hpoint (mem_nonzeroDigit (hlast c (List.mem_singleton_self c)) hc)

end Form

/-! ### The nearest number of millionths -/

/-- A whole number of millionths is nearest to a rational, and it is even if another one is as near. -/
structure NearestMillionths (q : ℚ) (m : ℤ) : Prop where
  nearest : ∀ k : ℤ, |q - m / 1000000| ≤ |q - k / 1000000|
  even : ∀ k : ℤ, k ≠ m → |q - k / 1000000| = |q - m / 1000000| → Even m

/-- The whole number of millionths that is written for a number. -/
def count (x : Number) : ℤ := if x.rat < 0 then -(millionths x.rat : ℤ) else millionths x.rat

theorem written_eq (x : Number) : x.written = x.count / 1000000 := by
  rw [written, count]
  split
  · push_cast
    ring
  · push_cast
    ring

/-- A half becomes even, whichever side it comes from. -/
theorem even_halfEven_of_tie {n d : Nat} (hd : 0 < d)
    (h : |(halfEven n d : ℚ) - n / d| = 1 / 2) : Even (halfEven n d) := by
  have hpos : (0 : ℚ) < d := by exact_mod_cast hd
  have hnonneg : (0 : ℚ) ≤ n / d := by positivity
  obtain ⟨k, hk⟩ : ∃ k : Nat, (n : ℚ) / d = k + 1 / 2 := by
    rcases (abs_eq (by norm_num)).mp h with habove | hbelow
    · have hne : halfEven n d ≠ 0 := by
        intro hzero
        rw [hzero, Nat.cast_zero] at habove
        linarith
      obtain ⟨k, hk⟩ := Nat.exists_eq_succ_of_ne_zero hne
      rw [hk, Nat.cast_succ] at habove
      exact ⟨k, by linarith⟩
    · exact ⟨halfEven n d, by linarith⟩
  have htwice : 2 * n = (2 * k + 1) * d := by
    rw [div_eq_iff hpos.ne'] at hk
    have htwice : 2 * (n : ℚ) = (2 * k + 1) * d := by
      rw [hk]
      ring
    exact_mod_cast htwice
  rw [halfEven_of_tie hd htwice, Nat.even_add, Nat.even_iff, Nat.even_iff, Nat.mod_mod]

/-- How far a number is off what is written for it, in millionths. -/
theorem abs_sub_count (x : Number) : |x.rat - x.count / 1000000| =
    |(millionths x.rat : ℚ) - (x.rat.num.natAbs * 1000000 : Nat) / x.rat.den| / 1000000 := by
  have hquotient : ((x.rat.num.natAbs * 1000000 : Nat) : ℚ) / x.rat.den = |x.rat| * 1000000 := by
    rw [abs_eq_natAbs_div]
    push_cast
    ring
  have hunit : |(1000000 : ℚ)| = 1000000 := by norm_num
  rw [hquotient, ← hunit, ← abs_div, hunit, count]
  split
  · rename_i hneg
    rw [abs_of_neg hneg]
    push_cast
    congr 1
    ring
  · rename_i hneg
    rw [abs_of_nonneg (not_lt.mp hneg), abs_sub_comm]
    push_cast
    congr 1
    ring

theorem abs_sub_count_le (x : Number) : |x.rat - x.count / 1000000| ≤ 1 / 2000000 := by
  rw [← written_eq, abs_sub_comm]
  exact abs_written_sub_le x

/-- Another number of millionths is at least half a millionth off. -/
theorem half_le_of_ne {q : ℚ} {m k : ℤ} (hm : |q - m / 1000000| ≤ 1 / 2000000) (hne : k ≠ m) :
    1 / 2000000 ≤ |q - k / 1000000| := by
  have hgap : (1 : ℚ) ≤ |(m : ℚ) - k| := by exact_mod_cast Int.one_le_abs (sub_ne_zero.mpr hne.symm)
  have hsplit : ((m : ℚ) - k) / 1000000 = (q - k / 1000000) - (q - m / 1000000) := by ring
  have htriangle := abs_sub (q - (k : ℚ) / 1000000) (q - m / 1000000)
  rw [← hsplit, abs_div, abs_of_pos (by norm_num : (0 : ℚ) < 1000000)] at htriangle
  linarith

/-- **What is written is nearest.** -/
theorem nearestMillionths_count (x : Number) : NearestMillionths x.rat x.count := by
  have hoff := abs_sub_count_le x
  refine ⟨fun k => ?_, fun k hne htie => ?_⟩
  · by_cases hk : k = x.count
    · rw [hk]
    · exact hoff.trans (half_le_of_ne hoff hk)
  · -- both are half a millionth off, so the number lies in the middle
    have hhalf : |x.rat - (x.count : ℚ) / 1000000| = 1 / 2000000 :=
      hoff.antisymm (htie ▸ half_le_of_ne hoff hne)
    rw [abs_sub_count] at hhalf
    have heven : Even (millionths x.rat) :=
      even_halfEven_of_tie x.rat.den_pos (by rw [millionths] at hhalf; linarith)
    rw [count]
    split
    · exact ((Int.even_coe_nat _).mpr heven).neg
    · exact (Int.even_coe_nat _).mpr heven

/-- **There is one nearest number of millionths only**: of two that are equally near, both would be even. -/
theorem NearestMillionths.unique {q : ℚ} {m n : ℤ} (hm : NearestMillionths q m)
    (hn : NearestMillionths q n) : m = n := by
  have hoff {k : ℤ} (hk : NearestMillionths q k) : |q - (k : ℚ) / 1000000| ≤ 1 / 2000000 :=
    (hk.nearest (finite q).count).trans (abs_sub_count_le (finite q))
  by_contra hne
  have hsame : |q - (n : ℚ) / 1000000| = |q - (m : ℚ) / 1000000| :=
    le_antisymm (hn.nearest m) (hm.nearest n)
  have heven : Even (m - n) := (hm.even n (Ne.symm hne) hsame).sub (hn.even m hne hsame.symm)
  have hgap : |(m : ℚ) - n| ≤ 1 := by
    have hsplit : ((m : ℚ) - n) / 1000000 = (q - n / 1000000) - (q - m / 1000000) := by ring
    have htriangle := abs_sub (q - (n : ℚ) / 1000000) (q - m / 1000000)
    rw [← hsplit, abs_div, abs_of_pos (by norm_num : (0 : ℚ) < 1000000)] at htriangle
    linarith [hoff hm, hoff hn]
  have hgap : |m - n| ≤ 1 := by exact_mod_cast hgap
  obtain ⟨hlow, hhigh⟩ := abs_le.mp hgap
  obtain ⟨k, hk⟩ := heven
  omega

/-! ### Texts and counts -/

/-- The text of a whole number of millionths. -/
def countText (m : ℤ) : String :=
  if m < 0 then "-" ++ placesText m.natAbs else placesText m.natAbs

theorem sixPlacesRat_eq_countText (q : ℚ) : sixPlacesRat q = countText (finite q).count := by
  rw [sixPlacesRat_eq, countText]
  by_cases hneg : q < 0
  · have hcount : (finite q).count = -(millionths q : ℤ) := if_pos hneg
    have hsign : -(millionths q : ℤ) < 0 ↔ q < 0 ∧ millionths q ≠ 0 := by
      rw [and_iff_right hneg]
      omega
    rw [hcount, Int.natAbs_neg, Int.natAbs_natCast]
    exact if_congr hsign.symm rfl rfl
  · have hcount : (finite q).count = millionths q := if_neg hneg
    rw [hcount, Int.natAbs_natCast, if_neg fun h => hneg h.1, if_neg (by omega)]

/-- **The text of a number depends on its nearest number of millionths alone.** -/
theorem sixPlaces_eq_countText {x : Number} (hx : x.isFinite = true) :
    x.sixPlaces = countText x.count :=
  (sixPlaces_eq hx).trans (sixPlacesRat_eq_countText x.rat)

variable {x y : Number}

theorem readPlaces?_eq_count (hx : x.isFinite = true) :
    readPlaces? x.sixPlaces = some ((x.count : ℚ) / 1000000) := by
  rw [readPlaces?_sixPlaces hx, written_eq]

theorem sixPlaces_mem_placesForm (hx : x.isFinite = true) :
    x.sixPlaces.toList ∈ placesForm.matches' := by
  rw [sixPlaces_eq_countText hx, countText]
  split
  · rw [String.toList_append]
    exact mem_placesForm (mem_perhaps rfl) x.count.natAbs
  · rw [← List.nil_append (placesText x.count.natAbs).toList]
    exact mem_placesForm (nil_mem_perhaps _) x.count.natAbs

/-- Zero has no minus. -/
theorem sixPlaces_ne_minus_zero (hx : x.isFinite = true) : x.sixPlaces ≠ "-0" := by
  intro hminus
  have hread := readPlaces?_eq_count hx
  have hnought : readPlaces? "-0" = some 0 := by decide +kernel
  rw [hminus, hnought] at hread
  have hzero : x.count = 0 := by
    have hquotient : (x.count : ℚ) / 1000000 = 0 := (Option.some.inj hread).symm
    have hcast : (x.count : ℚ) = 0 := by linarith
    exact_mod_cast hcast
  rw [sixPlaces_eq_countText hx, hzero] at hminus
  exact absurd hminus (by decide)

theorem sixPlaces_eq_iff (hx : x.isFinite = true) (hy : y.isFinite = true) :
    x.sixPlaces = y.sixPlaces ↔ x.count = y.count := by
  constructor
  · intro hsame
    have hread := readPlaces?_eq_count hx
    rw [hsame, readPlaces?_eq_count hy] at hread
    have hquotient : (y.count : ℚ) / 1000000 = x.count / 1000000 := Option.some.inj hread
    have hcast : (x.count : ℚ) = y.count := by linarith
    exact_mod_cast hcast
  · intro hcount
    rw [sixPlaces_eq_countText hx, sixPlaces_eq_countText hy, hcount]

end Number

open Number

/-- **The text of a finite number is canonical.**  It has the one form of all texts of numbers and is not
`-0`; it says the number of millionths that is nearest to the number, and the even one of two that are
equally near.  So the values of texts are in the order of their numbers, and two numbers have one text if
and only if the same number of millionths is nearest to both. -/
theorem decimals_canonical :
    (∀ x : Number, x.isFinite = true →
      x.sixPlaces.toList ∈ placesForm.matches' ∧ x.sixPlaces ≠ "-0" ∧
      ∃ m : ℤ, (∀ k : ℤ, NearestMillionths x.rat k ↔ k = m) ∧
        readPlaces? x.sixPlaces = some ((m : ℚ) / 1000000)) ∧
    ∀ x y : Number, x.isFinite = true → y.isFinite = true →
      (x.rat ≤ y.rat → ∃ v w, readPlaces? x.sixPlaces = some v ∧
        readPlaces? y.sixPlaces = some w ∧ v ≤ w) ∧
      (x.sixPlaces = y.sixPlaces ↔
        ∃ m : ℤ, NearestMillionths x.rat m ∧ NearestMillionths y.rat m) := by
  refine ⟨fun x hx => ⟨sixPlaces_mem_placesForm hx, sixPlaces_ne_minus_zero hx, x.count,
    fun k => ⟨fun hk => hk.unique (nearestMillionths_count x), ?_⟩, readPlaces?_eq_count hx⟩,
    fun x y hx hy => ⟨fun hle => ⟨_, _, readPlaces?_sixPlaces hx, readPlaces?_sixPlaces hy,
      written_mono hle⟩, ?_⟩⟩
  · rintro rfl
    exact nearestMillionths_count x
  · rw [sixPlaces_eq_iff hx hy]
    constructor
    · intro hcount
      exact ⟨x.count, nearestMillionths_count x, hcount ▸ nearestMillionths_count y⟩
    · rintro ⟨m, hxm, hym⟩
      rw [(nearestMillionths_count x).unique hxm, (nearestMillionths_count y).unique hym]

/-- Of two doubles in the middle one is written with the number of millionths below and one with that
above, and what is nearer to zero than to any other number of millionths is written without a minus. -/
theorem decimals_canonical_ties :
    ((finite (1 / 128)).sixPlaces = "0.007812" ∧ NearestMillionths (1 / 128) 7812) ∧
    ((finite (3 / 128)).sixPlaces = "0.023438" ∧ NearestMillionths (3 / 128) 23438) ∧
    (finite (-1 / 4194304)).sixPlaces = (finite 0).sixPlaces ∧
      ∃ m : ℤ, NearestMillionths (-1 / 4194304) m ∧ NearestMillionths 0 m := by
  obtain ⟨hone, htwo⟩ := decimals_canonical
  have hnearest {q : ℚ} {m : ℤ} (hread : readPlaces? (finite q).sixPlaces = some ((m : ℚ) / 1000000)) :
      NearestMillionths q m := by
    obtain ⟨-, -, n, hn, hvalue⟩ := hone (finite q) rfl
    have hquotient : (n : ℚ) / 1000000 = m / 1000000 := Option.some.inj (hvalue.symm.trans hread)
    have hcast : (m : ℚ) = n := by linarith
    exact (hn m).mpr (by exact_mod_cast hcast)
  have hsame : (finite (-1 / 4194304)).sixPlaces = (finite 0).sixPlaces := by decide +kernel
  refine ⟨⟨by decide +kernel, hnearest (by decide +kernel)⟩,
    ⟨by decide +kernel, hnearest (by decide +kernel)⟩, hsame, ?_⟩
  exact (htwo (finite (-1 / 4194304)) (finite 0) rfl rfl).2.mp hsame

end Montage
