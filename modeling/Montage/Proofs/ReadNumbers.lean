import Montage.Proofs.LabelText
import Montage.Proofs.NearestOrder
import Mathlib.Data.List.TakeWhile
import Mathlib.Tactic.FieldSimp
import Mathlib.Tactic.Linarith

/-! # Numbers as they are read

A number stands in a graph with at most six places.  Whoever reads the decimal again gets a multiple of a
millionth, the nearest to the number, and of two that are equally near the even one
(`Number.readPlaces?_sixPlaces`).  So what is read is off by half a millionth at most
(`Number.abs_written_sub_le`).  The order of two numbers is never turned round, but two different
numbers can be read as one, unless they are more than a millionth apart
(`Number.written_lt_written`).
-/
namespace Montage.Number

/-! ### A reader of decimals -/

/-- Reads digits, and if there is a point digits behind it, up to the end. -/
def magnitude? (cs : List Char) : Option ℚ :=
  let (whole, rest) := takeDigits Text.asciiDigit? cs
  if whole = [] then none
  else match rest with
    | [] => some (ofDigits whole : ℚ)
    | '.' :: more =>
      let (places, rest) := takeDigits Text.asciiDigit? more
      if places = [] ∨ rest ≠ [] then none
      else some ((ofDigits (whole ++ places) : ℚ) / 10 ^ places.length)
    | _ => none

/-- Reads a decimal: perhaps a sign, then a magnitude. -/
def readPlaces? (s : String) : Option ℚ :=
  (magnitude? (takeSign s.toList).2).map fun q => if (takeSign s.toList).1 then -q else q

/-- The multiple of a millionth nearest to a number. -/
def written (x : Number) : ℚ :=
  if x.rat < 0 then -(millionths x.rat / 1000000) else millionths x.rat / 1000000

/-! ### Digits -/

theorem asciiDigit?_of_isDigit {c : Char} (h : c.isDigit = true) :
    Text.asciiDigit? c = some (digitOf c) := by
  have hc : '0' ≤ c ∧ c ≤ '9' := by simpa [Char.isDigit, Char.le_def] using h
  simp [Text.asciiDigit?, hc, digitOf]

theorem takeDigits_ascii {cs rest : List Char} (h : ∀ c ∈ cs, c.isDigit = true)
    (hrest : ∀ c, rest.head? = some c → Text.asciiDigit? c = none) :
    takeDigits Text.asciiDigit? (cs ++ rest) = (cs.map digitOf, rest) := by
  induction cs with
  | nil =>
    cases rest with
    | nil => rfl
    | cons c rest => simp [takeDigits, hrest c rfl]
  | cons c cs ih =>
    have hc := asciiDigit?_of_isDigit (h c List.mem_cons_self)
    simp [takeDigits, hc, ih fun d hd => h d (List.mem_cons_of_mem _ hd)]

theorem foldl_digits (n : Nat) (ds : List Nat) :
    ds.foldl (fun n d => 10 * n + d) n = n * 10 ^ ds.length + ofDigits ds := by
  induction ds generalizing n with
  | nil => simp [ofDigits]
  | cons d ds ih =>
    rw [ofDigits, List.foldl_cons, List.foldl_cons, ih, ih (10 * 0 + d), List.length_cons]
    ring

theorem ofDigits_append (ds es : List Nat) :
    ofDigits (ds ++ es) = ofDigits ds * 10 ^ es.length + ofDigits es := by
  rw [ofDigits, List.foldl_append, foldl_digits]
  rfl

theorem ofDigits_zeros (k : Nat) : ofDigits (List.replicate k 0) = 0 := by
  induction k with
  | zero => rfl
  | succ k ih =>
    rw [List.replicate_succ', ofDigits_append, ih]
    rfl

/-- Zeros in front do not matter, and a number below a million has six digits then. -/
theorem digits_padLeft {n : Nat} (h : n < 1000000) :
    (padLeft 6 (Nat.repr n)).toList.length = 6 ∧
      (∀ c ∈ (padLeft 6 (Nat.repr n)).toList, c.isDigit = true) ∧
      ofDigits ((padLeft 6 (Nat.repr n)).toList.map digitOf) = n := by
  have hrepr : (Nat.repr n).toList = Nat.toDigits 10 n := by simp
  have hlength : (Nat.toDigits 10 n).length ≤ 6 :=
    Nat.length_toDigits_le_iff (by decide) (by decide) |>.mpr (by simpa using h)
  have hpad : (padLeft 6 (Nat.repr n)).toList =
      List.replicate (6 - (Nat.toDigits 10 n).length) '0' ++ Nat.toDigits 10 n := by
    rw [padLeft, String.toList_append, String.toList_ofList, ← String.length_toList, hrepr]
  rw [hpad]
  refine ⟨?_, ?_, ?_⟩
  · rw [List.length_append, List.length_replicate]
    omega
  · rw [List.forall_mem_append]
    refine ⟨fun c hc => ?_, fun c hc => isDigit_of_mem_digits hc⟩
    rw [List.eq_of_mem_replicate hc]
    rfl
  · have hzero : digitOf '0' = 0 := rfl
    rw [List.map_append, List.map_replicate, hzero, ofDigits_append, ofDigits_zeros,
      ofDigits_digits, Nat.zero_mul, Nat.zero_add]

/-- **The places without the zeros at their end say the same.** -/
theorem digits_trimmedPlaces {n : Nat} (h : n < 1000000) :
    (∀ c ∈ trimmedPlaces n, c.isDigit = true) ∧
      ∃ k, (trimmedPlaces n).length + k = 6 ∧
        ofDigits ((trimmedPlaces n).map digitOf) * 10 ^ k = n := by
  obtain ⟨hlength, hdigits, hvalue⟩ := digits_padLeft h
  obtain ⟨k, hk⟩ : ∃ k, (padLeft 6 (Nat.repr n)).toList = trimmedPlaces n ++ List.replicate k '0' := by
    refine ⟨((padLeft 6 (Nat.repr n)).toList.reverse.takeWhile (· == '0')).length, ?_⟩
    have hzeros : (padLeft 6 (Nat.repr n)).toList.reverse.takeWhile (· == '0') =
        List.replicate ((padLeft 6 (Nat.repr n)).toList.reverse.takeWhile (· == '0')).length '0' :=
      List.eq_replicate_of_mem fun c hc => by simpa using List.mem_takeWhile_imp hc
    rw [trimmedPlaces, ← List.reverse_replicate, ← hzeros, ← List.reverse_append,
      List.takeWhile_append_dropWhile, List.reverse_reverse]
  rw [hk] at hlength hdigits hvalue
  refine ⟨fun c hc => hdigits c (List.mem_append_left _ hc), k, ?_, ?_⟩
  · simpa using hlength
  · have hzero : digitOf '0' = 0 := rfl
    rw [List.map_append, List.map_replicate, hzero, ofDigits_append, ofDigits_zeros,
      List.length_replicate, Nat.add_zero] at hvalue
    exact hvalue

/-! ### What is written is read -/

theorem magnitude?_whole (n : Nat) : magnitude? (Nat.toDigits 10 n) = some (n : ℚ) := by
  have htake : takeDigits Text.asciiDigit? (Nat.toDigits 10 n ++ []) =
      ((Nat.toDigits 10 n).map digitOf, []) :=
    takeDigits_ascii (fun c => isDigit_of_mem_digits) fun c hc => by cases hc
  have hne : (Nat.toDigits 10 n).map digitOf ≠ [] := by simp [Nat.toDigits_ne_nil]
  rw [List.append_nil] at htake
  rw [magnitude?, htake]
  simp only [if_neg hne, ofDigits_digits]

theorem magnitude?_places {n : Nat} {ps : List Char} (hps : ∀ c ∈ ps, c.isDigit = true)
    (given : ps ≠ []) : magnitude? (Nat.toDigits 10 n ++ '.' :: ps) =
      some (((n * 10 ^ ps.length + ofDigits (ps.map digitOf) : Nat) : ℚ) / 10 ^ ps.length) := by
  have hpoint : ∀ c, ('.' :: ps).head? = some c → Text.asciiDigit? c = none := by
    intro c hc
    cases hc
    decide
  have hwhole := takeDigits_ascii (fun c => isDigit_of_mem_digits (n := n)) hpoint
  have hplaces : takeDigits Text.asciiDigit? (ps ++ []) = (ps.map digitOf, []) :=
    takeDigits_ascii hps fun c hc => by cases hc
  rw [List.append_nil] at hplaces
  have hne : (Nat.toDigits 10 n).map digitOf ≠ [] := by simp [Nat.toDigits_ne_nil]
  have hne' : ¬ (ps.map digitOf = [] ∨ ([] : List Char) ≠ []) := by simp [given]
  rw [magnitude?, hwhole]
  simp only [if_neg hne, hplaces, if_neg hne', ofDigits_append, ofDigits_digits, List.length_map]

/-- Six places and a whole number make a count of millionths. -/
theorem millionths_split {n w v l k : Nat} (hl : l + k = 6)
    (hn : 1000000 * w + v * 10 ^ k = n) : ((w * 10 ^ l + v : Nat) : ℚ) / 10 ^ l = n / 1000000 := by
  have hpower : (10 : ℚ) ^ l * 10 ^ k = 1000000 := by
    rw [← pow_add, hl]
    norm_num
  rw [div_eq_div_iff (by positivity) (by norm_num), ← hn]
  push_cast
  calc ((w : ℚ) * 10 ^ l + v) * 1000000 = 1000000 * w * 10 ^ l + v * (10 ^ l * 10 ^ k) := by
        rw [hpower]
        ring
    _ = (1000000 * w + v * 10 ^ k) * 10 ^ l := by ring

/-- The text of a count of millionths. -/
def placesText (n : Nat) : String :=
  if trimmedPlaces (n % 1000000) = [] then Nat.repr (n / 1000000)
  else Nat.repr (n / 1000000) ++ "." ++ String.ofList (trimmedPlaces (n % 1000000))

theorem sixPlacesRat_eq (q : ℚ) : sixPlacesRat q =
    if q < 0 ∧ millionths q ≠ 0 then "-" ++ placesText (millionths q)
    else placesText (millionths q) := rfl

theorem toList_placesText (n : Nat) : (placesText n).toList = Nat.toDigits 10 (n / 1000000) ++
    if trimmedPlaces (n % 1000000) = [] then [] else '.' :: trimmedPlaces (n % 1000000) := by
  rw [placesText]
  split <;> simp

/-- **A count of millionths is read as it was written.** -/
theorem magnitude?_placesText (n : Nat) :
    magnitude? (placesText n).toList = some ((n : ℚ) / 1000000) := by
  obtain ⟨hdigits, k, hlength, hvalue⟩ := digits_trimmedPlaces (Nat.mod_lt n (by decide))
  have hsplit := Nat.div_add_mod n 1000000
  rw [← hvalue] at hsplit
  have hn := millionths_split hlength hsplit
  rw [toList_placesText]
  split
  · rename_i hnone
    rw [hnone] at hn
    rw [List.append_nil, magnitude?_whole, ← hn]
    simp [ofDigits]
  · rename_i hplaces
    rw [magnitude?_places hdigits hplaces, hn]

/-- **A finite number is read as the multiple of a millionth nearest to it.** -/
theorem readPlaces?_sixPlaces {x : Number} (hx : x.isFinite = true) :
    readPlaces? x.sixPlaces = some x.written := by
  have hunsigned (n : Nat) : takeSign (placesText n).toList = (false, (placesText n).toList) := by
    have hdigit (c : Char) := isDigit_of_mem_digits (n := n / 1000000) (c := c)
    rw [toList_placesText]
    cases h : Nat.toDigits 10 (n / 1000000) with
    | nil => exact absurd h Nat.toDigits_ne_nil
    | cons c rest =>
      have hc := hdigit c (h ▸ List.mem_cons_self)
      rw [List.cons_append, takeSign]
      · rintro more heq
        rw [(List.cons.inj heq).1] at hc
        cases hc
      · rintro more heq
        rw [(List.cons.inj heq).1] at hc
        cases hc
  have hrat (q : ℚ) : readPlaces? (sixPlacesRat q) = some (written (.finite q)) := by
    have hmagnitude := magnitude?_placesText (millionths q)
    rw [sixPlacesRat_eq, written, rat_finite]
    split
    · rename_i hq
      have hsign : takeSign ("-" ++ placesText (millionths q)).toList =
          (true, (placesText (millionths q)).toList) := by
        rw [String.toList_append]
        rfl
      rw [readPlaces?, hsign, if_pos hq.1]
      simp only [hmagnitude, Option.map_some, if_true]
    · rename_i hq
      rw [readPlaces?, hunsigned]
      simp only [hmagnitude, Option.map_some, Bool.false_eq_true, if_false]
      split
      · rename_i hneg
        have hzero : millionths q = 0 := by
          by_contra hne
          exact hq ⟨hneg, hne⟩
        simp [hzero]
      · rfl
  cases x with
  | finite q => exact hrat q
  | negativeZero => exact hrat 0
  | infinite | nan => cases hx

/-- What is not finite is not read. -/
theorem readPlaces?_of_not_isFinite {x : Number} (hx : x.isFinite = false) :
    readPlaces? x.sixPlaces = none := by
  cases x with
  | finite | negativeZero => cases hx
  | nan => decide
  | infinite negative => cases negative <;> decide

/-! ### How far it is off -/

theorem abs_eq_natAbs_div (q : ℚ) : |q| = q.num.natAbs / q.den := by
  conv_lhs => rw [← Rat.num_div_den q]
  rw [abs_div, Nat.abs_cast, Nat.cast_natAbs, Int.cast_abs]

/-- The count of millionths nearest to a magnitude is off by half a millionth at most. -/
theorem abs_millionths_sub_le (q : ℚ) : |(millionths q : ℚ) / 1000000 - (|q|)| ≤ 1 / 2000000 := by
  have hoff := abs_halfEven_sub_le (q.num.natAbs * 1000000) q.den_pos
  have hquotient : ((q.num.natAbs * 1000000 : Nat) : ℚ) / q.den = (|q|) * 1000000 := by
    rw [abs_eq_natAbs_div]
    push_cast
    ring
  rw [hquotient] at hoff
  have hcount : |(millionths q : ℚ) - (|q|) * 1000000| ≤ 1 / 2 := hoff
  rw [abs_le] at hcount ⊢
  constructor <;> linarith [hcount.1, hcount.2]

/-- **What is read is off by half a millionth at most.** -/
theorem abs_written_sub_le (x : Number) : |x.written - x.rat| ≤ 1 / 2000000 := by
  have h := abs_millionths_sub_le x.rat
  rw [written]
  split
  · rename_i hneg
    rw [abs_of_neg hneg] at h
    rw [← abs_neg]
    convert h using 2
    ring
  · rename_i hneg
    rwa [abs_of_nonneg (not_lt.mp hneg)] at h

/-- Numbers that are more than a millionth apart are read in their order. -/
theorem written_lt_written {x y : Number} (h : x.rat + 1 / 1000000 < y.rat) :
    x.written < y.written := by
  have hx := abs_le.mp (abs_written_sub_le x)
  have hy := abs_le.mp (abs_written_sub_le y)
  linarith

/-- A larger magnitude has no smaller count. -/
theorem millionths_mono {p q : ℚ} (h : |p| ≤ |q|) : millionths p ≤ millionths q := by
  rw [abs_eq_natAbs_div, abs_eq_natAbs_div, div_le_div_iff₀ (by exact_mod_cast p.den_pos)
    (by exact_mod_cast q.den_pos)] at h
  have hle : p.num.natAbs * q.den ≤ q.num.natAbs * p.den := by exact_mod_cast h
  refine halfEven_mono p.den_pos q.den_pos ?_
  calc p.num.natAbs * 1000000 * q.den = p.num.natAbs * q.den * 1000000 := by ring
    _ ≤ q.num.natAbs * p.den * 1000000 := Nat.mul_le_mul_right _ hle
    _ = q.num.natAbs * 1000000 * p.den := by ring

/-- **The order is never turned round.** -/
theorem written_mono {x y : Number} (h : x.rat ≤ y.rat) : x.written ≤ y.written := by
  have hcount {z w : Number} (hzw : |z.rat| ≤ |w.rat|) :
      (millionths z.rat : ℚ) / 1000000 ≤ millionths w.rat / 1000000 := by
    have hle : (millionths z.rat : ℚ) ≤ millionths w.rat := by exact_mod_cast millionths_mono hzw
    linarith
  have hnonneg (z : Number) : (0 : ℚ) ≤ millionths z.rat / 1000000 := by positivity
  rw [written, written]
  by_cases hx : x.rat < 0
  · rw [if_pos hx]
    by_cases hy : y.rat < 0
    · rw [if_pos hy]
      refine neg_le_neg (hcount ?_)
      rw [abs_of_neg hx, abs_of_neg hy]
      exact neg_le_neg h
    · rw [if_neg hy]
      exact (neg_nonpos.mpr (hnonneg x)).trans (hnonneg y)
  · have hy : ¬ y.rat < 0 := fun hy => hx (h.trans_lt hy)
    rw [if_neg hx, if_neg hy]
    refine hcount ?_
    rwa [abs_of_nonneg (not_lt.mp hx), abs_of_nonneg (not_lt.mp hy)]

theorem halfEven_eq_zero_iff {n d : Nat} (hd : 0 < d) : halfEven n d = 0 ↔ 2 * n ≤ d := by
  constructor
  · intro h
    have hlow := le_two_mul_halfEven n hd
    rw [h] at hlow
    omega
  · intro h
    have hwhole : n / d = 0 := Nat.div_eq_of_lt (by omega)
    have hrest : n % d = n := Nat.mod_eq_of_lt (by omega)
    rw [halfEven, hwhole, hrest]
    split
    · rfl
    · rw [if_neg (by omega)]

/-- **A number of half a millionth or less is read as nought or below.** -/
theorem written_pos_iff {x : Number} : 0 < x.written ↔ 1 / 2000000 < x.rat := by
  have hden : (0 : ℚ) < x.rat.den := by exact_mod_cast x.rat.den_pos
  have hzero : millionths x.rat = 0 ↔ |x.rat| ≤ 1 / 2000000 := by
    have hcount : millionths x.rat = 0 ↔ 2 * (x.rat.num.natAbs * 1000000) ≤ x.rat.den :=
      halfEven_eq_zero_iff x.rat.den_pos
    rw [hcount, abs_eq_natAbs_div, div_le_div_iff₀ hden (by norm_num)]
    constructor <;> intro h
    · have h' : 2 * ((x.rat.num.natAbs : ℚ) * 1000000) ≤ x.rat.den := by exact_mod_cast h
      linarith
    · have h' : 2 * ((x.rat.num.natAbs : ℚ) * 1000000) ≤ x.rat.den := by linarith
      exact_mod_cast h'
  rw [written]
  split
  · rename_i hneg
    refine iff_of_false (not_lt.mpr (neg_nonpos.mpr (by positivity))) ?_
    linarith
  · rename_i hneg
    rw [abs_of_nonneg (not_lt.mp hneg)] at hzero
    have hpos : 0 < (millionths x.rat : ℚ) / 1000000 ↔ millionths x.rat ≠ 0 := by
      rw [← Nat.pos_iff_ne_zero]
      constructor
      · intro h
        by_contra hnot
        rw [Nat.eq_zero_of_not_pos hnot] at h
        norm_num at h
      · intro h
        have h' : (0 : ℚ) < millionths x.rat := by exact_mod_cast h
        positivity
    rw [hpos, Ne, hzero, not_le]

/-- A whole number of millionths is read as it is. -/
theorem written_of_millionths {x : Number} {n : Nat} (h : x.rat = n / 1000000) :
    x.written = x.rat := by
  have hnonneg : ¬ x.rat < 0 := by
    rw [h]
    exact not_lt.mpr (by positivity)
  have hoff := abs_le.mp (abs_written_sub_le x)
  rw [written, if_neg hnonneg, h] at hoff ⊢
  -- two whole numbers that are half a unit apart at most are the same
  have hup : (millionths (n / 1000000) : ℚ) < n + 1 := by linarith
  have hlow : (n : ℚ) < millionths (n / 1000000) + 1 := by linarith
  have hsame : millionths (n / 1000000) = n := by
    have hup' : millionths (n / 1000000) < n + 1 := by exact_mod_cast hup
    have hlow' : n < millionths (n / 1000000) + 1 := by exact_mod_cast hlow
    omega
  rw [hsame]

end Montage.Number
