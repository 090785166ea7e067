import Montage.Json.Reader
import Montage.Json.Writer

/-! # Numbers, words and texts in a stored text

A reader takes what it needs from the front of a text and hands on the rest.  What stands behind a value in
a stored text is a comma or the end of the line (`Ended`), and neither belongs to a number or a word, so
both are read as if nothing stood behind them (`value_append_number`, `word?_append`).  A text ends at its
own quote, so anything may stand behind it (`stringRest_quoted`).

Whether a number is read back from its own text depends on the digits that are printed.  About that nothing
is said here; the text around a number does not disturb its reading.
-/
namespace Montage.Json

open Montage.Text Montage.Number

/-- What stands behind a value in a stored text: nothing, a comma or the end of the line. -/
def Ended (rest : List Char) : Prop := ∀ c, rest.head? = some c → c = ',' ∨ c = '\n'

theorem ended_nil : Ended [] := by
  intro c hc
  cases hc

theorem ended_cons {c : Char} {rest : List Char} (h : c = ',' ∨ c = '\n') : Ended (c :: rest) := by
  intro d hd
  cases hd
  exact h

theorem Ended.of_cons {c : Char} {rest : List Char} (h : Ended (c :: rest)) : c = ',' ∨ c = '\n' :=
  h c rfl

/-! ### Blanks -/

theorem skip_append {cs : List Char} (h : skip cs ≠ []) (rest : List Char) :
    skip (cs ++ rest) = skip cs ++ rest := by
  rw [skip] at h ⊢
  rw [List.dropWhile_append, if_neg (by simpa using h)]
  rfl

theorem skip_append_blank {cs : List Char} (h : skip cs = []) (rest : List Char) :
    skip (cs ++ rest) = skip rest := by
  rw [skip] at h ⊢
  rw [List.dropWhile_append, if_pos (by simpa using h)]
  rfl

theorem skip_cons {c : Char} (rest : List Char)
    (h : c ≠ ' ' ∧ c ≠ '\t' ∧ c ≠ '\n' ∧ c ≠ '\r') : skip (c :: rest) = c :: rest := by
  simp [skip, h]

/-- A number, whole or not. -/
def isNumber : Json → Bool
  | int _ | float _ => true
  | _ => false

/-! ### Numbers -/

section Numbers
variable {cs rest : List Char}

theorem takeDigits_ended (ended : Ended rest) (cs : List Char) :
    takeDigits asciiDigit? (cs ++ rest) =
      ((takeDigits asciiDigit? cs).1, (takeDigits asciiDigit? cs).2 ++ rest) := by
  induction cs with
  | nil =>
    cases rest with
    | nil => rfl
    | cons c rest => rcases ended.of_cons with rfl | rfl <;> rfl
  | cons c cs ih =>
    rw [List.cons_append, takeDigits, takeDigits]
    split
    · rw [ih]
    · rfl

theorem takeSign_ended (ended : Ended rest) (cs : List Char) :
    takeSign (cs ++ rest) = ((takeSign cs).1, (takeSign cs).2 ++ rest) := by
  cases cs with
  | nil =>
    cases rest with
    | nil => rfl
    | cons c rest => rcases ended.of_cons with rfl | rfl <;> rfl
  | cons c cs =>
    by_cases hminus : c = '-'
    · subst hminus
      rfl
    · by_cases hplus : c = '+'
      · subst hplus
        rfl
      · simp [takeSign, hminus, hplus]

theorem wholePart_ended (ended : Ended rest) (cs : List Char) :
    wholePart (cs ++ rest) = (wholePart cs).map fun p => (p.1, p.2 ++ rest) := by
  have htake := takeDigits_ended ended cs
  cases cs with
  | nil =>
    cases rest with
    | nil => rfl
    | cons c rest => rcases ended.of_cons with rfl | rfl <;> rfl
  | cons c cs =>
    by_cases hzero : c = '0'
    · subst hzero
      rfl
    · have hdigits (l : List Char) : wholePart (c :: l) =
          if (takeDigits asciiDigit? (c :: l)).1 = [] then none
          else some (takeDigits asciiDigit? (c :: l)) := by
        unfold wholePart
        split
        · rename_i heq
          exact absurd (List.cons.inj heq).1 hzero
        · obtain ⟨ds, more⟩ := takeDigits asciiDigit? (c :: l)
          cases ds <;> rfl
      rw [List.cons_append] at htake ⊢
      rw [hdigits, hdigits, htake]
      split <;> rfl

/-- The places behind a point, and what follows them. -/
def places (cs : List Char) : List Nat × List Char :=
  match cs with
  | '.' :: more => match takeDigits asciiDigit? more with
    | ([], _) => ([], cs)
    | r => r
  | _ => ([], cs)

theorem places_ended (ended : Ended rest) (cs : List Char) :
    places (cs ++ rest) = ((places cs).1, (places cs).2 ++ rest) := by
  cases cs with
  | nil =>
    cases rest with
    | nil => rfl
    | cons c rest => rcases ended.of_cons with rfl | rfl <;> rfl
  | cons c cs =>
    by_cases hpoint : c = '.'
    · subst hpoint
      simp only [List.cons_append, places, takeDigits_ended ended]
      cases h : takeDigits asciiDigit? cs with
      | mk ds more => cases ds <;> rfl
    · simp [places, hpoint]

/-- The exponent behind its letter, and what follows it. -/
def exponent (cs : List Char) : Option Int × List Char :=
  match cs with
  | c :: more =>
    if c = 'e' ∨ c = 'E' then
      let (down, more) := takeSign more
      match takeDigits asciiDigit? more with
      | ([], _) => (none, cs)
      | (ds, after) => (some (if down then -(ofDigits ds : Int) else (ofDigits ds : Int)), after)
    else (none, cs)
  | [] => (none, cs)

theorem exponent_ended (ended : Ended rest) (cs : List Char) :
    exponent (cs ++ rest) = ((exponent cs).1, (exponent cs).2 ++ rest) := by
  cases cs with
  | nil =>
    cases rest with
    | nil => rfl
    | cons c rest => rcases ended.of_cons with rfl | rfl <;> rfl
  | cons c cs =>
    by_cases hletter : c = 'e' ∨ c = 'E'
    · simp only [List.cons_append, exponent, hletter, if_true, takeSign_ended ended,
        takeDigits_ended ended]
      cases h : takeDigits asciiDigit? (takeSign cs).2 with
      | mk ds more => cases ds <;> rfl
    · simp [exponent, hletter]

theorem number_of_none {negative : Bool} {start : Nat} (h : wholePart cs = none) :
    number negative start cs = .error (.value, start) := by
  unfold number
  rw [h]

theorem number_of_some {negative : Bool} {start : Nat} {whole : List Nat} {more : List Char}
    (h : wholePart cs = some (whole, more)) :
    number negative start cs =
      if (places more).1 = [] ∧ (exponent (places more).2).1 = none then
        if whole.length > longestInteger then .error (.longInteger whole.length, start)
        else .ok (.int (signed negative whole), (exponent (places more).2).2)
      else .ok (.float (ofDecimal negative (ofDigits (whole ++ (places more).1))
        ((exponent (places more).2).1.getD 0 - (places more).1.length)),
          (exponent (places more).2).2) := by
  unfold number
  rw [h]
  exact rfl

/-- A number is read as if nothing stood behind it. -/
theorem number_append {negative : Bool} {start : Nat} {v : Json} {more : List Char}
    (ended : Ended rest) (h : number negative start cs = .ok (v, more)) (other : Nat) :
    number negative other (cs ++ rest) = .ok (v, more ++ rest) ∧ v.isNumber = true := by
  cases hwhole : wholePart cs with
  | none =>
    rw [number_of_none hwhole] at h
    cases h
  | some p =>
    obtain ⟨whole, behind⟩ := p
    have hbehind : wholePart (cs ++ rest) = some (whole, behind ++ rest) := by
      rw [wholePart_ended ended, hwhole, Option.map_some]
    rw [number_of_some hwhole] at h
    rw [number_of_some hbehind]
    simp only [places_ended ended, exponent_ended ended] at h ⊢
    split at h
    · rename_i hint
      rw [if_pos hint]
      split at h
      · cases h
      · rename_i hlong
        cases h
        exact ⟨if_neg hlong, rfl⟩
    · rename_i hfloat
      cases h
      exact ⟨if_neg hfloat, rfl⟩

/-- A word is found as if nothing stood behind it. -/
theorem word?_append {w : List Char} (ended : Ended rest) (hw : ',' ∉ w ∧ '\n' ∉ w)
    (cs : List Char) : word? w (cs ++ rest) = (word? w cs).map (· ++ rest) := by
  induction w generalizing cs with
  | nil => cases cs <;> rfl
  | cons c w ih =>
    have hw' : ',' ∉ w ∧ '\n' ∉ w := by
      simp only [List.mem_cons, not_or] at hw
      exact ⟨hw.1.2, hw.2.2⟩
    cases cs with
    | nil =>
      cases rest with
      | nil => rfl
      | cons d rest =>
        have hne : c ≠ d := by
          rintro rfl
          rcases ended.of_cons with rfl | rfl
          · exact hw.1 List.mem_cons_self
          · exact hw.2 List.mem_cons_self
        simp [word?, hne]
    | cons d cs =>
      rw [List.cons_append, word?, word?]
      split
      · exact ih hw' cs
      · rfl

/-- What a list or an object is read as. -/
theorem items_ne_number {halves : Halves} {fuel room : Nat} {done : List Json} {v : Json}
    {more : List Char} (h : items halves fuel room done cs = .ok (v, more)) :
    v.isNumber = false := by
  induction fuel generalizing done cs with
  | zero => cases h
  | succ fuel ih =>
    rw [items] at h
    split at h
    · cases h
    · split at h
      · cases h
        rfl
      · exact ih h
      · cases h

theorem fields_ne_number {halves : Halves} {fuel room : Nat} {done : List (JsonText × Json)}
    {v : Json} {more : List Char} (h : fields halves fuel room done cs = .ok (v, more)) :
    v.isNumber = false := by
  induction fuel generalizing done cs with
  | zero => cases h
  | succ fuel ih =>
    unfold fields at h
    split at h
    · split at h
      · cases h
      · split at h
        · split at h
          · cases h
          · dsimp only at h
            split at h
            · cases h
              rfl
            · exact ih h
            · cases h
        · cases h
    · cases h

/-- Words that are values. -/
def words : List (List Char × Json) :=
  [("null".toList, .null), ("true".toList, .bool true), ("false".toList, .bool false),
    ("NaN".toList, .float .nan), ("Infinity".toList, .float (.infinite false)),
    ("-Infinity".toList, .float (.infinite true))]

/-- The first of some words that stands in front. -/
def wordIn (ws : List (List Char × Json)) (cs : List Char) : Option (Json × List Char) :=
  ws.findSome? fun w => (word? w.1 cs).map fun rest => (w.2, rest)

/-- A value without quotes and brackets is a word or a number. -/
theorem value_bare {halves : Halves} {fuel room : Nat} {c : Char}
    (hc : c ≠ '"' ∧ c ≠ '\x7b' ∧ c ≠ '[') (cs : List Char) :
    value halves (fuel + 1) room (c :: cs) =
      (wordIn words (c :: cs)).elim
        (if c = '-' then number true (cs.length + 1) cs
          else number false (cs.length + 1) (c :: cs)) .ok := by
  rw [value, if_neg hc.1, if_neg hc.2.1, if_neg hc.2.2]
  simp only [wordIn, words, List.findSome?_cons, List.findSome?_nil]
  cases word? "null".toList (c :: cs) with
  | some rest => rfl
  | none =>
  cases word? "true".toList (c :: cs) with
  | some rest => rfl
  | none =>
  cases word? "false".toList (c :: cs) with
  | some rest => rfl
  | none =>
  cases word? "NaN".toList (c :: cs) with
  | some rest => rfl
  | none =>
  cases word? "Infinity".toList (c :: cs) with
  | some rest => rfl
  | none => cases word? "-Infinity".toList (c :: cs) <;> rfl

/-- What is read as a number begins with no quote and no bracket. -/
theorem bare_of_number {halves : Halves} {fuel room : Nat} {c : Char} {v : Json} {more : List Char}
    (h : value halves fuel room (c :: cs) = .ok (v, more)) (hv : v.isNumber = true) :
    c ≠ '"' ∧ c ≠ '\x7b' ∧ c ≠ '[' := by
  cases fuel with
  | zero => cases h
  | succ fuel =>
    rw [value] at h
    refine ⟨fun hquote => ?_, fun hbrace => ?_, fun hbracket => ?_⟩
    · rw [if_pos hquote] at h
      split at h
      · cases h
      · cases h
        cases hv
    · rw [if_neg (by simp [hbrace]), if_pos hbrace] at h
      split at h
      · cases h
      · split at h
        · cases h
          cases hv
        · exact absurd (fields_ne_number h) (by simp [hv])
    · rw [if_neg (by simp [hbracket]), if_neg (by simp [hbracket]), if_pos hbracket] at h
      split at h
      · cases h
      · split at h
        · cases h
          cases hv
        · exact absurd (items_ne_number h) (by simp [hv])

theorem wordIn_append (ended : Ended rest) {ws : List (List Char × Json)}
    (hws : ∀ w ∈ ws, ',' ∉ w.1 ∧ '\n' ∉ w.1) (cs : List Char) :
    wordIn ws (cs ++ rest) = (wordIn ws cs).map fun p => (p.1, p.2 ++ rest) := by
  induction ws with
  | nil => rfl
  | cons w ws ih =>
    have hrest := ih fun v hv => hws v (List.mem_cons_of_mem w hv)
    simp only [wordIn, List.findSome?_cons] at hrest ⊢
    rw [word?_append ended (hws w List.mem_cons_self), hrest]
    cases word? w.1 cs <;> rfl

/-- **A text that is read as a number is read so with a stored text behind it**, whatever fuel and room
are left. -/
theorem value_append_number {fuel room : Nat} {v : Json} {more : List Char} (ended : Ended rest)
    (h : value [] fuel room cs = .ok (v, more)) (hv : v.isNumber = true) (fuel' room' : Nat) :
    value [] (fuel' + 1) room' (cs ++ rest) = .ok (v, more ++ rest) := by
  cases fuel with
  | zero => cases h
  | succ fuel =>
    cases cs with
    | nil => cases h
    | cons c cs =>
      have hbare := bare_of_number h hv
      rw [value_bare hbare] at h
      rw [List.cons_append, value_bare hbare, ← List.cons_append, wordIn_append ended (by decide)]
      cases hword : wordIn words (c :: cs) with
      | some p =>
        rw [hword] at h
        cases h
        rfl
      | none =>
        rw [hword, Option.elim_none] at h
        rw [Option.map_none, Option.elim_none]
        split at h
        · rename_i hminus
          rw [if_pos hminus]
          exact (number_append ended h _).1
        · rename_i hminus
          rw [if_neg hminus]
          exact (number_append ended h _).1

end Numbers

/-! ### Texts -/

theorem fourHex?_append {n : Nat} {cs more : List Char} (h : fourHex? cs = some (n, more))
    (rest : List Char) : fourHex? (cs ++ rest) = some (n, more ++ rest) := by
  unfold fourHex? at h
  split at h
  · simp only [List.cons_append, fourHex?, Option.bind_eq_bind, Option.bind_eq_some_iff,
      Option.some.injEq, Prod.mk.injEq] at h ⊢
    obtain ⟨i, hi, j, hj, k, hk, l, hl, hn, rfl⟩ := h
    exact ⟨i, hi, j, hj, k, hk, l, hl, hn, rfl⟩
  · cases h

/-- The escape of a control character says its code. -/
theorem unicodeEscape_control {n : Nat} (h : n < 0x20) {rest : List Char} (hrest : rest ≠ []) :
    unicodeEscape (hex 4 n ++ rest) = .ok (n, rest) := by
  have all : ∀ m ∈ List.range 0x20,
      fourHex? (hex 4 m) = some (m, []) ∧ (hex 4 m).length = 4 ∧ isHighHalf m = false := by decide
  obtain ⟨hvalue, hlength, hhalf⟩ := all n (List.mem_range.mpr h)
  have hdrop : (hex 4 n ++ rest).drop 4 = rest := List.drop_left' hlength
  rw [unicodeEscape, hdrop, if_neg (by simpa using hrest), fourHex?_append hvalue]
  dsimp only [List.nil_append]
  split
  · rw [hhalf]
    rfl
  · rfl

theorem isHalf_toNat (c : Char) : isHalf c.toNat = false := by
  have hvalid := c.valid
  simp only [UInt32.isValidChar, Nat.isValidChar] at hvalid
  have hvalue : c.val.toNat = c.toNat := rfl
  rw [hvalue] at hvalid
  simp only [isHalf, isHighHalf, isLowHalf]
  rcases hvalid with h | ⟨h, -⟩
  · simp; omega
  · simp; omega

/-- A character that was escaped is read back. -/
theorem stringRest_escaped (opened : Nat) (done : List Nat) (fuel : Nat) (c : Char)
    {rest : List Char} (hrest : rest ≠ []) :
    stringRest [] opened done (fuel + 1) (escapedCode false c.toNat ++ rest) =
      stringRest [] opened (c.toNat :: done) fuel rest := by
  rw [escapedCode, isHalf_toNat, Char.ofNat_toNat]
  simp only [Bool.false_eq_true, if_false]
  by_cases hquote : c = '"'
  · subst hquote
    rfl
  by_cases hslash : c = '\\'
  · subst hslash
    rfl
  by_cases hline : c = '\n'
  · subst hline
    rfl
  by_cases hreturn : c = '\r'
  · subst hreturn
    rfl
  by_cases htab : c = '\t'
  · subst htab
    rfl
  rw [if_neg hquote, if_neg hslash, if_neg hline, if_neg hreturn, if_neg htab]
  by_cases hback : c.toNat = 8
  · rw [if_pos hback, hback]
    rfl
  by_cases hfeed : c.toNat = 12
  · rw [if_neg hback, if_pos hfeed, hfeed]
    rfl
  rw [if_neg hback, if_neg hfeed]
  by_cases hcontrol : c.toNat < 0x20
  · rw [if_pos hcontrol, unitEscape]
    simp [stringRest, unicodeEscape_control hcontrol hrest]
  · rw [if_neg hcontrol]
    simp [stringRest, hquote, hslash, hcontrol, codeOf]

theorem escapedCode_ne_nil (n : Nat) : escapedCode false n ≠ [] := by
  rw [escapedCode]
  simp only [Bool.not_false, true_or, if_true]
  repeat' split
  all_goals exact List.cons_ne_nil _ _

/-- **A text is read back from between its quotes.** -/
theorem stringRest_written (opened : Nat) (done : List Nat) (cs : List Char) (fuel : Nat)
    (hfuel : cs.length < fuel) (rest : List Char) :
    stringRest [] opened done fuel
        (cs.flatMap (fun c => escapedCode false c.toNat) ++ '"' :: rest) =
      .ok (.ofCodes (done.reverse ++ cs.map Char.toNat), rest) := by
  induction cs generalizing done fuel with
  | nil =>
    obtain ⟨fuel, rfl⟩ := Nat.exists_eq_succ_of_ne_zero (Nat.ne_of_gt hfuel)
    simp [stringRest]
  | cons c cs ih =>
    obtain ⟨fuel, rfl⟩ := Nat.exists_eq_succ_of_ne_zero (Nat.ne_of_gt (Nat.zero_lt_of_lt hfuel))
    rw [List.flatMap_cons, List.append_assoc, stringRest_escaped opened done fuel c (by simp),
      ih (c.toNat :: done) fuel (by simpa using hfuel)]
    simp

/-- A text without halves of pairs is that of its code points. -/
theorem ofCodes_toNat (s : String) : JsonText.ofCodes (s.toList.map Char.toNat) = .plain s := by
  have hwhole : (s.toList.map Char.toNat).any isHalf = false := by
    rw [List.any_map, List.any_eq_false]
    intro c _
    simp [isHalf_toNat]
  have hsame : (s.toList.map Char.toNat).map Char.ofNat = s.toList := by
    rw [List.map_map]
    exact (List.map_congr_left fun c _ => Char.ofNat_toNat c).trans (List.map_id _)
  rw [JsonText.ofCodes, hwhole, hsame]
  simp

/-- What is written of a text. -/
def quotedBody (s : String) : List Char := s.toList.flatMap fun c => escapedCode false c.toNat

theorem toList_writeString (s : String) :
    (writeString .stored (.plain s)).toList = '"' :: (quotedBody s ++ ['"']) := by
  simp [writeString, JsonText.codes, quotedBody, List.flatMap_map, Style.stored]

theorem length_le_quotedBody (s : String) : s.toList.length ≤ (quotedBody s).length := by
  rw [quotedBody]
  induction s.toList with
  | nil => simp
  | cons c cs ih =>
    have hpos := List.length_pos_iff.mpr (escapedCode_ne_nil c.toNat)
    rw [List.flatMap_cons, List.length_append, List.length_cons]
    omega

/-- A name or a text is read back. -/
theorem stringRest_quoted (opened fuel : Nat) (s : String) (rest : List Char)
    (hfuel : (quotedBody s).length < fuel) :
    stringRest [] opened [] fuel (quotedBody s ++ '"' :: rest) = .ok (.plain s, rest) := by
  have hlength := length_le_quotedBody s
  have hread := stringRest_written opened [] s.toList fuel (by omega) rest
  rw [← quotedBody] at hread
  rw [hread, List.reverse_nil, List.nil_append, ofCodes_toNat]

end Montage.Json
