import Montage.Plan.Filter
import Montage.Proofs.LabelEvents
import Mathlib.Algebra.Group.Nat.Defs

/-! # Labels and their texts

The engine sees labels as texts, and tells a stream of an input file from a label of a chain by
its form alone.  Two things make this safe: no label of a chain has the form of a stream
(`streamOfText?_text`), and different labels have different texts (`Label.text_injective`).  So
the check of a plan's texts is the check of its labels (`Plan.checkLabels_toText`), as long as
no number of an input file is too long to be read (`Plan.checkTexts_toText`).
-/
namespace Montage

/-! ### Numbers in decimal digits -/

namespace Number

/-- The value of a digit as it is written. -/
def digitOf (c : Char) : Nat := c.toNat - 48

theorem digitValue?_of_isDigit {c : Char} (h : c.isDigit = true) :
    Text.digitValue? c = some (digitOf c) := by
  refine Text.digitValue?_of_asciiDigit? ?_
  have hc : '0' ≤ c ∧ c ≤ '9' := by simpa [Char.isDigit, Char.le_def] using h
  simp [Text.asciiDigit?, hc, digitOf]

/-- A text that does not go on with a digit. -/
def DigitsEnd (cs : List Char) : Prop := ∀ c, cs.head? = some c → Text.digitValue? c = none

theorem takeDigits_append {cs rest : List Char} (h : ∀ c ∈ cs, c.isDigit = true)
    (hrest : DigitsEnd rest) :
    takeDigits Text.digitValue? (cs ++ rest) = (cs.map digitOf, rest) := by
  induction cs with
  | nil =>
    cases rest with
    | nil => rfl
    | cons c rest => simp [takeDigits, hrest c rfl]
  | cons c cs ih =>
    have hc := digitValue?_of_isDigit (h c (List.mem_cons_self ..))
    simp [takeDigits, hc, ih fun d hd => h d (List.mem_cons_of_mem _ hd)]

theorem isDigit_of_mem_digits {n : Nat} {c : Char} (h : c ∈ Nat.toDigits 10 n) :
    c.isDigit = true :=
  Nat.isDigit_of_mem_toDigits (by decide) (by decide) h

/-- The digits of a number say the number. -/
theorem ofDigits_digits (n : Nat) : ofDigits ((Nat.toDigits 10 n).map digitOf) = n := by
  rw [ofDigits, List.foldl_map]
  exact Nat.ofDigitChars_ten_toDigits

/-- A number can be told from what follows its digits. -/
theorem digits_append_inj {n m : Nat} {rest rest' : List Char}
    (hrest : DigitsEnd rest) (hrest' : DigitsEnd rest')
    (h : Nat.toDigits 10 n ++ rest = Nat.toDigits 10 m ++ rest') : n = m ∧ rest = rest' := by
  have hn := takeDigits_append (fun c => isDigit_of_mem_digits (n := n)) hrest
  have hm := takeDigits_append (fun c => isDigit_of_mem_digits (n := m)) hrest'
  rw [h, hm] at hn
  obtain ⟨hds, rfl⟩ := Prod.mk.inj hn
  refine ⟨?_, rfl⟩
  rw [← ofDigits_digits n, ← hds, ofDigits_digits]

theorem digits_inj {n m : Nat} (h : Nat.toDigits 10 n = Nat.toDigits 10 m) : n = m := by
  rw [← ofDigits_digits n, h, ofDigits_digits]

end Number

/-! ### Texts of labels -/

namespace Label

/-- The characters of a label. -/
theorem toList_text (l : Label) : l.text.toList =
    match l with
    | stream i c => Nat.toDigits 10 i ++ ':' :: c.word.toList
    | clipVideo i => 'v' :: Nat.toDigits 10 i
    | clipAudio i => 'a' :: Nat.toDigits 10 i
    | base i o => 'c' :: (Nat.toDigits 10 i ++ 'o' :: Nat.toDigits 10 o)
    | image i o => 'i' :: 'm' :: 'g' :: (Nat.toDigits 10 i ++ 'o' :: Nat.toDigits 10 o)
    | soundtrack i => 's' :: Nat.toDigits 10 i
    | programAudio => "program_a".toList
    | outputVideo => "outv".toList
    | outputAudio => "outa".toList := by
  cases l <;> simp [text]

theorem feed_not_mem_digits (n : Nat) : '\n' ∉ Nat.toDigits 10 n :=
  fun h => absurd (Number.isDigit_of_mem_digits h) (by decide)

/-- A label is one line. -/
theorem feed_not_mem_text (l : Label) : '\n' ∉ l.text.toList := by
  rw [toList_text]
  cases l with
  | stream i c => cases c <;> simp [Channel.word, feed_not_mem_digits]
  | _ => simp [feed_not_mem_digits]

end Label

theorem Text.dropFinalFeed_of_not_mem {cs : List Char} (h : '\n' ∉ cs) :
    Text.dropFinalFeed cs = cs := by
  unfold Text.dropFinalFeed
  split
  · rename_i rest hrest
    have : '\n' ∈ cs.reverse := by rw [hrest]; exact List.mem_cons_self ..
    exact absurd (List.mem_reverse.mp this) h
  · rfl

namespace Label

/-- **Only the labels of streams have the form of a stream**, and they name the input file. -/
theorem streamDigits?_text (l : Label) : streamDigits? l.text =
    match l with
    | stream i _ => some ((Nat.toDigits 10 i).map Number.digitOf)
    | _ => none := by
  rw [streamDigits?, Text.dropFinalFeed_of_not_mem (feed_not_mem_text l), toList_text]
  cases l with
  | stream i c =>
    -- the colon ends the digits, and there is at least one of them
    have hne : (Nat.toDigits 10 i).map Number.digitOf ≠ [] := by simp
    simp only
    rw [Number.takeDigits_append (fun c => Number.isDigit_of_mem_digits)
      (by rintro c ⟨⟩; decide)]
    cases hds : (Nat.toDigits 10 i).map Number.digitOf with
    | nil => exact absurd hds hne
    | cons d ds => cases c <;> simp [Channel.word]
  | _ => simp [Number.takeDigits, show Text.digitValue? 'v' = none by decide,
      show Text.digitValue? 'a' = none by decide, show Text.digitValue? 'c' = none by decide,
      show Text.digitValue? 'i' = none by decide, show Text.digitValue? 's' = none by decide,
      show Text.digitValue? 'p' = none by decide, show Text.digitValue? 'o' = none by decide]

theorem streamOfText?_text (l : Label) : streamOfText? l.text = l.input? := by
  rw [streamOfText?, streamDigits?_text]
  cases l with
  | stream i c => simp [input?, Number.ofDigits_digits]
  | _ => rfl

/-- The two numbers of a label can be told apart. -/
theorem digits_o_inj {i o i' o' : Nat}
    (h : Nat.toDigits 10 i ++ 'o' :: Nat.toDigits 10 o =
      Nat.toDigits 10 i' ++ 'o' :: Nat.toDigits 10 o') : i = i' ∧ o = o' := by
  obtain ⟨hi, ho⟩ := Number.digits_append_inj (by rintro c ⟨⟩; decide) (by rintro c ⟨⟩; decide) h
  exact ⟨hi, Number.digits_inj (List.cons.inj ho).2⟩

/-- **Different labels have different texts.** -/
theorem text_injective : Function.Injective text := by
  intro l l' h
  have hin : l.input? = l'.input? := by rw [← streamOfText?_text, h, streamOfText?_text]
  have hcs : l.text.toList = l'.text.toList := congrArg String.toList h
  rw [toList_text, toList_text] at hcs
  -- labels of two kinds begin with different letters, or one of them is a stream and the other is
  -- not; what is left are pairs of one kind, whose digits have to be told apart
  cases l <;> cases l' <;> simp [input?] at hcs hin ⊢
  case stream.stream i c i' c' =>
    subst hin
    cases c <;> cases c' <;> simp [Channel.word] at hcs ⊢
  case clipVideo.clipVideo => exact Number.digits_inj hcs
  case clipAudio.clipAudio => exact Number.digits_inj hcs
  case base.base => exact digits_o_inj hcs
  case image.image => exact digits_o_inj hcs
  case soundtrack.soundtrack => exact Number.digits_inj hcs

end Label

/-- **The check of a plan's texts is the check of its labels.** -/
theorem Plan.checkLabels_toText (p : Plan Label Filter) :
    (p.map Label.text Filter.text).checkLabels streamOfText? =
      (p.checkLabels Label.input?).mapError (LabelFault.map Label.text) :=
  p.checkLabels_map Label.text_injective Label.streamOfText?_text Filter.text

/-- A number below `10 ^ 4300` is not too long to be read. -/
theorem longNumber?_text {e : LabelEvent Label}
    (h : ∀ stage l i, e = .read stage l → l.input? = some i → i < 10 ^ Number.longestInteger) :
    (e.map Label.text).longNumber? = none := by
  cases e with
  | write stage l => rfl
  | read stage l =>
    rw [LabelEvent.map, LabelEvent.longNumber?, Label.streamDigits?_text]
    cases l with
    | stream i c =>
      have hi := h stage _ i rfl rfl
      have hlen := (Nat.length_toDigits_le_iff (b := 10) (by decide) (by decide)).mpr hi
      simpa using hlen
    | _ => rfl

/-- The numbers of the input files can be read unless there are more than `10 ^ 4300` of them. -/
theorem Plan.checkTexts_toText {p : Plan Label Filter} (hok : p.checkLabels Label.input? = .ok ())
    (hlen : p.inputs.length ≤ 10 ^ Number.longestInteger) :
    (p.map Label.text Filter.text).checkTexts = .ok () := by
  have hshort : (p.map Label.text Filter.text).events.findSome? LabelEvent.longNumber? = none := by
    rw [Plan.events_map, List.findSome?_eq_none_iff]
    intro e' he'
    obtain ⟨e, he, rfl⟩ := List.mem_map.mp he'
    refine longNumber?_text fun stage l i hread hi => ?_
    subst hread
    exact Nat.lt_of_lt_of_le ((Plan.checkLabels_eq_ok_iff.mp hok).present stage l i he hi) hlen
  rw [Plan.checkTexts, hshort]
  simp only
  rw [p.checkLabels_toText, hok]
  rfl

end Montage
