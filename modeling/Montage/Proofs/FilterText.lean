import Montage.Plan.Compile
import Montage.Proofs.Checks
import Montage.Proofs.LabelText
import Montage.Proofs.Scanning

/-! # Texts of filters

A filter is written for two readers, that of the graph and that of its options.  Most of what is
written is plain to both: numbers, colours and names consist of characters that neither takes for
more than themselves (`IsInert`).  What comes from the request as it is, words and the path of a
font, is escaped for both, and conditions on the time stand between quotes.  So the text of a filter
is a word for the reader of the graph (`Filter.isWord_text`), and the options of a text overlay are
read as they were meant (`drawText_options_read`).
-/
namespace Montage

open Plan

/-! ### Characters that say nothing to a reader -/

/-- The graph's reader takes each character for itself. -/
def IsPlain (s : String) : Prop := ∀ c ∈ s.toList, isGraphSpecial c = false

/-- Both readers take each character for itself. -/
def IsInert (s : String) : Prop :=
  ∀ c ∈ s.toList, isGraphSpecial c = false ∧ isOptionSpecial c = false

instance (s : String) : Decidable (IsPlain s) := List.decidableBAll _ s.toList

instance (s : String) : Decidable (IsInert s) := List.decidableBAll _ s.toList

@[simp] theorem isPlain_append {a b : String} : IsPlain (a ++ b) ↔ IsPlain a ∧ IsPlain b := by
  simp [IsPlain, or_imp, forall_and]

@[simp] theorem isInert_append {a b : String} : IsInert (a ++ b) ↔ IsInert a ∧ IsInert b := by
  simp only [IsInert, String.toList_append, List.forall_mem_append]

theorem IsInert.plain {s : String} (h : IsInert s) : IsPlain s := fun c hc => (h c hc).1

/-- Letters and figures are inert, and so are the point and the sign of numbers. -/
theorem inert_of_mem {c : Char} (h : c.isAlphanum = true ∨ c = '.' ∨ c = '-') :
    isGraphSpecial c = false ∧ isOptionSpecial c = false := by
  have hspecial (d : Char) (hd : d ∈ ['\\', '\'', '[', ']', ',', ';', ':']) : c ≠ d := by
    rintro rfl
    revert h
    simp only [List.mem_cons, List.not_mem_nil, or_false] at hd
    rcases hd with rfl | rfl | rfl | rfl | rfl | rfl | rfl <;> decide
  simp [isGraphSpecial, isOptionSpecial, hspecial]

theorem inert_digits (n : Nat) : IsInert (toString n) := by
  intro c hc
  have hdigit : c.isDigit = true := by
    refine Number.isDigit_of_mem_digits (n := n) ?_
    simpa using hc
  exact inert_of_mem (Or.inl (by simp [Char.isAlphanum, hdigit]))

theorem inert_int (n : Int) : IsInert (toString n) := by
  cases n with
  | ofNat n => exact inert_digits n
  | negSucc n =>
    have htext : toString (Int.negSucc n) = "-" ++ toString (n + 1) := rfl
    rw [htext, isInert_append]
    exact ⟨by decide, inert_digits (n + 1)⟩

theorem inert_places {rest : Nat} {c : Char} (h : c ∈ Number.trimmedPlaces rest) :
    isGraphSpecial c = false ∧ isOptionSpecial c = false := by
  have hplaces : c ∈ (Number.padLeft 6 (Nat.repr rest)).toList := by
    have hdropped := (List.dropWhile_sublist _).subset (List.mem_reverse.mp h)
    exact List.mem_reverse.mp hdropped
  rw [Number.padLeft, String.toList_append, String.toList_ofList] at hplaces
  rcases List.mem_append.mp hplaces with hzero | hdigit
  · rw [List.eq_of_mem_replicate hzero]
    decide
  · exact inert_digits rest c hdigit

theorem inert_sixPlaces (x : Number) : IsInert x.sixPlaces := by
  cases x with
  | finite q =>
    have htext (n : Nat) (ds : List Char) (h : ∀ c ∈ ds,
        isGraphSpecial c = false ∧ isOptionSpecial c = false) :
        IsInert (if ds = [] then Nat.repr n else Nat.repr n ++ "." ++ String.ofList ds) := by
      split
      · exact inert_digits n
      · simp only [isInert_append]
        exact ⟨⟨inert_digits n, by decide⟩, by simpa [IsInert] using h⟩
    have hnumber := htext (Number.millionths q / 1000000)
      (Number.trimmedPlaces (Number.millionths q % 1000000)) fun c => inert_places
    rw [Number.sixPlaces, Number.sixPlacesRat]
    split
    · exact isInert_append.mpr ⟨by decide, hnumber⟩
    · exact hnumber
  | negativeZero => exact by decide
  | infinite negative => cases negative <;> exact by decide
  | nan => exact by decide

theorem inert_offset (given : Option Int) {centre : String} (h : IsInert centre) :
    IsInert (offset given centre) := by
  cases given with
  | none => exact h
  | some n => exact inert_int n

/-- Only a line feed is dropped at the end. -/
theorem Text.eq_feed_of_not_mem_dropFinalFeed {cs : List Char} {c : Char} (hc : c ∈ cs)
    (h : c ∉ dropFinalFeed cs) : c = '\n' := by
  unfold dropFinalFeed at h
  split at h
  · rename_i rest hrest
    have hmem : c ∈ '\n' :: rest := hrest ▸ List.mem_reverse.mpr hc
    exact (List.mem_cons.mp hmem).resolve_right fun hmem => h (List.mem_reverse.mpr hmem)
  · exact absurd hc h

theorem isAlphanum_of_isAsciiLetter {c : Char} (h : Text.isAsciiLetter c = true) :
    c.isAlphanum = true := by
  have hrange : 97 ≤ c.val ∧ c.val ≤ 122 ∨ 65 ≤ c.val ∧ c.val ≤ 90 := by
    simpa [Text.isAsciiLetter, Char.le_def] using h
  unfold Char.isAlphanum Char.isAlpha Char.isLower Char.isUpper
  simp [hrange.symm]

theorem isAlphanum_of_isHexDigit {c : Char} (h : Text.isHexDigit c = true) :
    c.isAlphanum = true := by
  have hrange : ('0' ≤ c ∧ c ≤ '9') ∨ ('a' ≤ c ∧ c ≤ 'f') ∨ ('A' ≤ c ∧ c ≤ 'F') := by
    by_contra hnot
    obtain ⟨hdigit, hlower, hupper⟩ := not_or.mp hnot |>.imp_right not_or.mp
    rw [Text.isHexDigit, Text.hexDigit?, if_neg hdigit, if_neg hlower, if_neg hupper] at h
    cases h
  rcases hrange with hdigit | ⟨hlow, hhigh⟩ | ⟨hlow, hhigh⟩
  · have hdigit : c.isDigit = true := by simpa [Char.isDigit, Char.le_def] using hdigit
    simp [Char.isAlphanum, hdigit]
  · refine isAlphanum_of_isAsciiLetter ?_
    simp [Text.isAsciiLetter, hlow, Char.le_trans hhigh (by decide : 'f' ≤ 'z')]
  · refine isAlphanum_of_isAsciiLetter ?_
    simp [Text.isAsciiLetter, hlow, Char.le_trans hhigh (by decide : 'F' ≤ 'Z')]

/-- The characters of a colour. -/
theorem mem_of_isColorBody {cs : List Char} (h : isColorBody cs = true) {c : Char} (hc : c ∈ cs) :
    c.isAlphanum = true ∨ c = '#' := by
  have hhex {ds : List Char} (h : isHexColor ds = true) (hc : c ∈ ds) : c.isAlphanum = true := by
    obtain ⟨-, hdigits⟩ := Bool.and_eq_true_iff.mp h
    exact isAlphanum_of_isHexDigit (List.all_eq_true.mp hdigits c hc)
  unfold isColorBody at h
  split at h
  · rcases List.mem_cons.mp hc with rfl | hc
    · exact Or.inr rfl
    · exact Or.inl (hhex h hc)
  · rcases List.mem_cons.mp hc with rfl | hc
    · exact Or.inl (by decide)
    rcases List.mem_cons.mp hc with rfl | hc
    · exact Or.inl (by decide)
    · exact Or.inl (hhex h hc)
  · obtain ⟨-, hletters⟩ := Bool.and_eq_true_iff.mp h
    exact Or.inl (isAlphanum_of_isAsciiLetter (List.all_eq_true.mp hletters c hc))

/-- A colour that passes the check is inert as the engine writes it. -/
theorem inert_engineColor {s : String} (h : isColor s = true) : IsInert (engineColor s) := by
  intro c hc
  rw [engineColor, String.toList_ofList] at hc
  obtain ⟨d, hd, hc⟩ := List.mem_flatMap.mp hc
  have hchars : d.isAlphanum = true ∨ d = '#' ∨ d = '\n' := by
    by_cases hbody : d ∈ Text.dropFinalFeed s.toList
    · exact (mem_of_isColorBody h hbody).imp_right Or.inl
    · exact Or.inr (Or.inr (Text.eq_feed_of_not_mem_dropFinalFeed hd hbody))
  split at hc
  · rcases List.mem_pair.mp hc with rfl | rfl <;> decide
  · rename_i hhash
    cases List.mem_singleton.mp hc
    rcases hchars with halnum | rfl | rfl
    · exact inert_of_mem (Or.inl halnum)
    · exact absurd rfl hhash
    · decide

/-! ### Words for the reader of the graph -/

/-- What separates in a graph. -/
def Plan.graphSeparators : List Char := ['[', ']', ',', ';']

theorem IsPlain.bare {s : String} (h : IsPlain s) :
    ∀ c ∈ s.toList, c ≠ '\\' ∧ c ≠ '\'' ∧ c ∉ graphSeparators := by
  intro c hc
  have hc := h c hc
  simp only [isGraphSpecial, Bool.or_eq_false_iff, beq_eq_false_iff_ne] at hc
  simp [graphSeparators, hc]

theorem IsPlain.isWord {s : String} (h : IsPlain s) : IsWord graphSeparators s.toList :=
  .of_plain h.bare

theorem IsPlain.undo_eq {s : String} (h : IsPlain s) : undo s.toList = s.toList :=
  undo_plain fun c hc => ⟨(h.bare c hc).1, (h.bare c hc).2.1⟩

theorem isWord_escapeValue (s : String) : IsWord graphSeparators (escapeValue s).toList := by
  rw [escapeValue, String.toList_ofList]
  exact .of_escape rfl rfl (by simp [graphSeparators, isGraphSpecial]) _

/-- The reader of options takes each character for itself. -/
def IsOptionPlain (s : String) : Prop := ∀ c ∈ s.toList, isOptionSpecial c = false

instance (s : String) : Decidable (IsOptionPlain s) := List.decidableBAll _ s.toList

@[simp] theorem isOptionPlain_append {a b : String} :
    IsOptionPlain (a ++ b) ↔ IsOptionPlain a ∧ IsOptionPlain b := by
  simp only [IsOptionPlain, String.toList_append, List.forall_mem_append]

namespace IsOptionPlain
variable {s : String}

theorem bare (h : IsOptionPlain s) : ∀ c ∈ s.toList, c ≠ '\\' ∧ c ≠ '\'' ∧ c ∉ [':'] := by
  intro c hc
  have hc := h c hc
  simp only [isOptionSpecial, Bool.or_eq_false_iff, beq_eq_false_iff_ne] at hc
  simp [hc]

theorem isWord (h : IsOptionPlain s) : IsWord [':'] s.toList := .of_plain h.bare

theorem undo_eq (h : IsOptionPlain s) : undo s.toList = s.toList :=
  undo_plain fun c hc => ⟨(h.bare c hc).1, (h.bare c hc).2.1⟩

theorem quote_not_mem (h : IsOptionPlain s) : '\'' ∉ s.toList := fun hc => (h.bare _ hc).2.1 rfl

end IsOptionPlain

theorem IsInert.optionPlain {s : String} (h : IsInert s) : IsOptionPlain s := fun c hc => (h c hc).2

/-- A condition on the time has nothing in it that would end a quotation or an option. -/
theorem isOptionPlain_expression {w : Window} {e : String} (h : w.expression? = some e) :
    IsOptionPlain e := by
  have hnumber (x : Number) := (inert_sixPlaces x).optionPlain
  unfold Window.expression? at h
  split at h
  · split at h
    · cases h
    · cases h
      simp only [isOptionPlain_append]
      exact ⟨⟨by decide, hnumber _⟩, by decide⟩
  · cases h
    simp only [isOptionPlain_append]
    exact ⟨⟨⟨⟨by decide, hnumber _⟩, by decide⟩, hnumber _⟩, by decide⟩

theorem toList_quoted (s : String) :
    ("'" ++ s ++ "'").toList = '\'' :: s.toList ++ ['\''] := by simp

namespace OptionValue

/-- A value that both readers take for what it means. -/
def IsSound : OptionValue → Prop
  | plain s => IsInert s
  | escaped _ => True
  | quoted s => IsOptionPlain s

variable {v : OptionValue}

theorem isWord_text (h : v.IsSound) : IsWord graphSeparators v.text.toList := by
  cases v with
  | plain s => exact h.plain.isWord
  | escaped s => exact isWord_escapeValue s
  | quoted s =>
    rw [text, toList_quoted]
    exact .of_quoted h.quote_not_mem

/-- What the reader of the graph hands on is a word for the reader of options. -/
theorem isWord_undo_text (h : v.IsSound) : IsWord [':'] (undo v.text.toList) := by
  cases v with
  | plain s =>
    rw [text, h.plain.undo_eq]
    exact h.optionPlain.isWord
  | escaped s =>
    rw [text, escapeValue, String.toList_ofList, undo_escape rfl rfl]
    exact .of_escape rfl rfl (by simp [isOptionSpecial]) _
  | quoted s =>
    rw [text, toList_quoted, undo_quoted h.quote_not_mem]
    exact h.isWord

/-- The reader of options reads what the value means. -/
theorem undo_undo_text (h : v.IsSound) : undo (undo v.text.toList) = v.meaning.toList := by
  cases v with
  | plain s => rw [text, h.plain.undo_eq, h.optionPlain.undo_eq, meaning]
  | escaped s =>
    rw [text, escapeValue, String.toList_ofList, undo_escape rfl rfl, undo_escape rfl rfl, meaning]
  | quoted s => rw [text, toList_quoted, undo_quoted h.quote_not_mem, h.undo_eq, meaning]

end OptionValue

/-! ### Options of a text overlay -/

/-- An option as it is written. -/
def optionText (o : String × OptionValue) : String := o.1 ++ "=" ++ o.2.text

/-- A name and a value that both readers take for what they mean; the name ends at the first equals
sign. -/
structure IsSoundOption (o : String × OptionValue) : Prop where
  name : IsInert o.1
  ends : '=' ∉ o.1.toList
  value : o.2.IsSound

namespace IsSoundOption
variable {o : String × OptionValue}

theorem isWord (h : IsSoundOption o) : IsWord graphSeparators (optionText o).toList := by
  have hname : IsPlain (o.1 ++ "=") := isPlain_append.mpr ⟨h.name.plain, by decide⟩
  rw [optionText, String.toList_append]
  exact hname.isWord.append (OptionValue.isWord_text h.value)

theorem undo_eq (h : IsSoundOption o) :
    undo (optionText o).toList = (o.1 ++ "=").toList ++ undo o.2.text.toList := by
  have hname : IsPlain (o.1 ++ "=") := isPlain_append.mpr ⟨h.name.plain, by decide⟩
  rw [optionText, String.toList_append, hname.isWord.undo_append, hname.undo_eq]

theorem isWord_undo (h : IsSoundOption o) : IsWord [':'] (undo (optionText o).toList) := by
  have hname : IsOptionPlain (o.1 ++ "=") :=
    isOptionPlain_append.mpr ⟨h.name.optionPlain, by decide⟩
  rw [h.undo_eq]
  exact hname.isWord.append (OptionValue.isWord_undo_text h.value)

theorem undo_undo (h : IsSoundOption o) :
    undo (undo (optionText o).toList) = (o.1 ++ "=" ++ o.2.meaning).toList := by
  have hname : IsOptionPlain (o.1 ++ "=") :=
    isOptionPlain_append.mpr ⟨h.name.optionPlain, by decide⟩
  rw [h.undo_eq, hname.isWord.undo_append, hname.undo_eq, OptionValue.undo_undo_text h.value,
    String.toList_append (t := o.2.meaning)]

end IsSoundOption

/-- A text overlay whose colours have the form of colours. -/
structure DrawText.IsSound (d : DrawText) : Prop where
  color : isColor d.color = true
  boxColor : ∀ b ∈ d.boxColor, isColor b = true

theorem DrawText.options_sound {d : DrawText} (h : d.IsSound) : ∀ o ∈ d.options, IsSoundOption o := by
  have hcolor : IsInert (engineColor d.color ++
      (if isTranslucent d.opacity then "@" ++ d.opacity.sixPlaces else "")) := by
    refine isInert_append.mpr ⟨inert_engineColor h.color, ?_⟩
    split
    · exact isInert_append.mpr ⟨by decide, inert_sixPlaces _⟩
    · decide
  have hplain {name s : String} (hname : IsInert name ∧ '=' ∉ name.toList) (hs : IsInert s) :
      IsSoundOption (name, .plain s) := ⟨hname.1, hname.2, hs⟩
  have hescaped {name s : String} (hname : IsInert name ∧ '=' ∉ name.toList) :
      IsSoundOption (name, .escaped s) := ⟨hname.1, hname.2, trivial⟩
  have hquoted {name s : String} (hname : IsInert name ∧ '=' ∉ name.toList)
      (hs : IsOptionPlain s) : IsSoundOption (name, .quoted s) := ⟨hname.1, hname.2, hs⟩
  simp only [DrawText.options, List.forall_mem_append, List.forall_mem_cons]
  refine ⟨⟨⟨⟨⟨hescaped (by decide), hplain (by decide) (by decide), nofun⟩, ?_⟩,
    hplain (by decide) (inert_int _), hplain (by decide) hcolor,
    hplain (by decide) (inert_offset _ (by decide)),
    hplain (by decide) (inert_offset _ (by decide)), nofun⟩, ?_⟩, ?_⟩
  · split
    · exact List.forall_mem_singleton.mpr (hescaped (by decide))
    · exact nofun
  · split
    · rename_i b hb
      have hsome := h.boxColor b (Option.filter_eq_some_iff.mp hb).1
      simp only [List.forall_mem_cons]
      exact ⟨hplain (by decide) (by decide), hplain (by decide) (inert_engineColor hsome),
        hplain (by decide) (by decide), nofun⟩
    · exact nofun
  · split
    · rename_i e he
      exact List.forall_mem_singleton.mpr (hquoted (by decide) (isOptionPlain_expression he))
    · exact nofun

/-- What stands before the first equals sign of an option, and what stands behind it. -/
def nameAndValue (cs : List Char) : String × String :=
  (.ofList (cs.takeWhile (· != '=')), .ofList ((cs.dropWhile (· != '=')).drop 1))

/-- Reads the options of a filter: undoes one level, and behind the name of the filter the second one
between bare colons. -/
def readOptions? (filter text : String) : Option (List (String × String)) :=
  let inner := undo text.toList
  let head := (filter ++ "=").toList
  if head.isPrefixOf inner then
    some ((parts ':' (inner.drop head.length)).map nameAndValue)
  else none

theorem nameAndValue_eq {name value : String} (h : '=' ∉ name.toList) :
    nameAndValue (name ++ "=" ++ value).toList = (name, value) := by
  have hstop : ∀ c ∈ name.toList, (c != '=') = true := fun c hc => by
    have hne : c ≠ '=' := fun heq => h (heq ▸ hc)
    simpa using hne
  have htext : (name ++ "=" ++ value).toList = name.toList ++ '=' :: value.toList := by simp
  rw [nameAndValue, htext, List.takeWhile_append_of_pos hstop, List.dropWhile_append_of_pos hstop]
  simp

theorem toList_colons (texts : List String) :
    (":".intercalate texts).toList = [':'].intercalate (texts.map String.toList) := by
  rw [String.toList_intercalate]
  rfl

/-- Sound options that are written one after the other are read as they were meant. -/
theorem readOptions?_of_sound {filter : String} (hfilter : IsPlain filter)
    {options : List (String × OptionValue)} (hne : options ≠ [])
    (h : ∀ o ∈ options, IsSoundOption o) :
    readOptions? filter (filter ++ "=" ++ ":".intercalate (options.map optionText)) =
      some (options.map fun o => (o.1, o.2.meaning)) := by
  have hhead : IsPlain (filter ++ "=") := isPlain_append.mpr ⟨hfilter, by decide⟩
  have hwords : ∀ w ∈ (options.map optionText).map String.toList, IsWord graphSeparators w := by
    rw [List.map_map, List.forall_mem_map]
    exact fun o ho => (h o ho).isWord
  have hinner : undo (filter ++ "=" ++ ":".intercalate (options.map optionText)).toList =
      (filter ++ "=").toList ++
        [':'].intercalate (options.map fun o => undo (optionText o).toList) := by
    rw [String.toList_append (t := ":".intercalate _), hhead.isWord.undo_append, hhead.undo_eq,
      toList_colons, undo_joined (by decide) (by decide) hwords, List.map_map, List.map_map]
    rfl
  have hparts : parts ':' ([':'].intercalate (options.map fun o => undo (optionText o).toList)) =
      options.map fun o => undo (undo (optionText o).toList) := by
    have hparted : ∀ w ∈ options.map fun o => undo (optionText o).toList, IsWord [':'] w := by
      rw [List.forall_mem_map]
      exact fun o ho => (h o ho).isWord_undo
    rw [parts_joined (by decide) (by decide) (by decide) (by simpa using hne) hparted, List.map_map]
    rfl
  rw [readOptions?, hinner, List.drop_left, hparts, if_pos (by simp), List.map_map]
  refine congrArg some (List.map_congr_left fun o ho => ?_)
  rw [Function.comp_apply, (h o ho).undo_undo, nameAndValue_eq (h o ho).ends]

/-- The options that a text overlay is meant to have. -/
def Overlay.drawnOptions (o : Overlay) (fontFile : Option String) (words : String) :
    List (String × String) :=
  let opacity := if isTranslucent o.style.opacity then "@" ++ o.style.opacity.sixPlaces else ""
  [("text", oneLine words), ("expansion", "none")] ++
    ((nonempty? fontFile).map fun f => ("fontfile", f)).toList ++
    [("fontsize", toString o.style.fontSize), ("fontcolor", engineColor o.style.color ++ opacity),
      ("x", offset o.x "(w-text_w)/2"), ("y", offset o.y "(h-text_h)/2")] ++
    (match nonempty? o.style.boxColor with
      | some b => [("box", "1"), ("boxcolor", engineColor b), ("boxborderw", "10")]
      | none => []) ++
    ((Window.expression? ⟨o.start, o.finish⟩).map fun e => ("enable", e)).toList

theorem drawText_meaning (k : Compiler) (o : Overlay) (words : String) :
    ((k.drawText o words).options.map fun o => (o.1, o.2.meaning)) =
      o.drawnOptions k.fontFile words := by
  simp only [DrawText.options, Compiler.drawText, Overlay.drawnOptions, List.map_append,
    List.map_cons, List.map_nil, OptionValue.meaning]
  cases nonempty? k.fontFile <;> cases nonempty? o.style.boxColor <;>
    cases Window.expression? ⟨o.start, o.finish⟩ <;> rfl

/-- Colours are checked. -/
theorem drawText_sound (k : Compiler) {o : Overlay} (checked : o.check = .ok ()) (words : String) :
    (k.drawText o words).IsSound := by
  simp only [Overlay.check, andThen_eq_ok_iff, ensure_eq_ok_iff, ifGiven_eq_ok_iff] at checked
  obtain ⟨-, -, -, -, -, hcolor, hbox⟩ := checked
  exact ⟨hcolor, hbox⟩

theorem text_drawText (d : DrawText) : (Filter.drawText d).text =
    "drawtext" ++ "=" ++ ":".intercalate (d.options.map optionText) := rfl

/-- Words and a font with all that is special in them. -/
def Sample.liveTitle : Overlay where
  content := .text "It's 10:30, [live]; a\\b" (by decide) none
  x := some 40
  y := none
  start := .finite 0
  finish := some (.finite 2)
  style := { OverlayStyle.standard with fontSize := 32, opacity := .finite (1 / 2) }

/-- A filter that draws no text, or one with colours that have the form of colours. -/
def Filter.IsSound : Filter → Prop
  | drawText d => d.IsSound
  | _ => True

theorem isPlain_joined {texts : List String} (h : ∀ s ∈ texts, IsPlain s) :
    IsPlain (":".intercalate texts) := by
  have hcolon : isGraphSpecial ':' = false := by decide
  rw [IsPlain, toList_colons]
  induction texts with
  | nil => exact nofun
  | cons s rest ih =>
    obtain ⟨hs, hrest⟩ := List.forall_mem_cons.mp h
    cases rest with
    | nil =>
      rw [List.map_cons, List.map_nil, List.intercalate_singleton]
      exact hs
    | cons s' rest =>
      rw [List.map_cons, List.map_cons, List.intercalate_cons_cons]
      simp only [List.forall_mem_append]
      exact ⟨⟨hs, by simpa using hcolon⟩, ih hrest⟩

theorem isWord_enableOption (w : Window) : IsWord graphSeparators (Filter.enableOption w).toList := by
  unfold Filter.enableOption
  split
  · rename_i e he
    have hname : IsPlain ":enable=" := by decide
    have htext : (":enable='" ++ e ++ "'").toList =
        ":enable=".toList ++ ('\'' :: e.toList ++ ['\'']) := by
      simp
    rw [htext]
    exact hname.isWord.append (.of_quoted (isOptionPlain_expression he).quote_not_mem)
  · exact .nil

/-- **The text of a filter is a word**: it can stand beside others in a graph. -/
theorem Filter.isWord_text {f : Filter} (h : f.IsSound) : IsWord graphSeparators f.text.toList := by
  have hnumber (x : Number) := (inert_sixPlaces x).plain
  have hint (n : Int) := (inert_int n).plain
  have hcount (n : Nat) := (inert_digits n).plain
  have hoffset (given : Option Int) {centre : String} (h : IsInert centre) :=
    (inert_offset given h).plain
  cases f with
  | drawText d =>
    have hname : IsPlain ("drawtext" ++ "=") := by decide
    have hwords : ∀ w ∈ (d.options.map optionText).map String.toList,
        IsWord graphSeparators w := by
      rw [List.map_map, List.forall_mem_map]
      exact fun o ho => (DrawText.options_sound h o ho).isWord
    rw [text_drawText, String.toList_append (t := ":".intercalate _), toList_colons]
    exact hname.isWord.append (.joined (by decide) (by decide) (by decide) hwords)
  | overlay x y w =>
    have hplain : IsPlain ("overlay=x=" ++ offset x "(main_w-overlay_w)/2" ++ ":y=" ++
        offset y "(main_h-overlay_h)/2") := by
      simp only [isPlain_append]
      refine ⟨⟨⟨by decide, hoffset x ?_⟩, by decide⟩, hoffset y ?_⟩ <;> decide
    have htext : (overlay x y w).text.toList = ("overlay=x=" ++ offset x "(main_w-overlay_w)/2" ++
        ":y=" ++ offset y "(main_h-overlay_h)/2").toList ++ (enableOption w).toList :=
      String.toList_append
    rw [htext]
    exact hplain.isWord.append (isWord_enableOption w)
  | tone settings =>
    refine IsPlain.isWord (isPlain_append.mpr ⟨by decide, isPlain_joined ?_⟩)
    rw [List.forall_mem_map]
    rintro ⟨t, x⟩ -
    simp only [isPlain_append]
    exact ⟨⟨by cases t <;> decide, by decide⟩, hnumber x⟩
  | audioTrim start finish =>
    refine IsPlain.isWord ?_
    cases finish with
    | none => exact isPlain_append.mpr ⟨isPlain_append.mpr ⟨by decide, hnumber start⟩, by decide⟩
    | some e =>
      refine isPlain_append.mpr ⟨isPlain_append.mpr ⟨by decide, hnumber start⟩, ?_⟩
      exact isPlain_append.mpr ⟨by decide, hnumber e⟩
  | _ =>
    refine IsPlain.isWord ?_
    delta text
    simp only [isPlain_append, hnumber, hint, hcount, and_true]
    decide +kernel

end Montage
