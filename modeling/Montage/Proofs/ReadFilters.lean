import Montage.Proofs.GraphText
import Montage.Proofs.ReadNumbers
import Montage.Proofs.WrittenNumbers

/-! # Times as they are read

A filter of a graph that was taken apart has a name and options (`Plan.readFilter`).  Some filters say
something about time: they cut a range out of a stream, give it a length, act in a window of time
only, or let its clock go faster.  Whoever reads these texts finds what the filters mean, each number
as it is written with six places (`Filter.readTimes?_asRead`).
-/
namespace Montage

open Plan

/-! ### Characters of numbers -/

/-- A character that stands in no number and in no word for one stands in no text of a number. -/
theorem not_mem_sixPlaces {c : Char} (hplace : Number.isPlaceChar c = false)
    (hword : ∀ word ∈ ["nan", "inf", "-inf"], c ∉ word.toList) (x : Number) :
    c ∉ x.sixPlaces.toList := by
  intro hmem
  by_cases hx : x.isFinite = true
  · have hchar : Number.isPlaceChar c = true := by
      cases x with
      | finite q => exact Number.isPlaceChar_sixPlacesRat hmem
      | negativeZero => exact Number.isPlaceChar_sixPlacesRat (q := 0) hmem
      | infinite | nan => cases hx
    cases hplace.symm.trans hchar
  · exact hword _ (Number.sixPlaces_mem_words.mpr (by simpa using hx)) hmem

theorem equals_not_mem_sixPlaces (x : Number) : '=' ∉ x.sixPlaces.toList :=
  not_mem_sixPlaces (by decide) (by decide) x

theorem parenthesis_not_mem_sixPlaces (x : Number) : ')' ∉ x.sixPlaces.toList :=
  not_mem_sixPlaces (by decide) (by decide) x

/-! ### Names and options -/

namespace Plan

/-- Reads a filter of a graph: its name, and behind it options between bare colons. -/
def readFilter (filter : String) : String × List (String × String) :=
  ((nameAndValue filter.toList).1,
    (parts ':' (nameAndValue filter.toList).2.toList).map nameAndValue)

end Plan

/-- The text of a filter as the reader of the graph hands it on. -/
def Filter.asRead (f : Filter) : String := .ofList (undo f.text.toList)

theorem filters_asRead (c : Chain Label Filter) :
    (c.map Label.text Filter.text).asRead.filters = c.filters.map Filter.asRead := by
  simp only [Chain.asRead, Chain.map, List.map_map]
  rfl

theorem nameAndValue_bare {s : String} (h : '=' ∉ s.toList) : nameAndValue s.toList = (s, "") := by
  have hall : ∀ c ∈ s.toList, (c != '=') = true := fun c hc => by
    have hne : c ≠ '=' := fun heq => h (heq ▸ hc)
    simpa using hne
  rw [nameAndValue, List.takeWhile_eq_self_iff.mpr hall, List.dropWhile_eq_nil_iff.mpr hall,
    String.ofList_toList]
  rfl

section Named
variable {f : Filter} {name rest : String}

theorem undo_named (hname : IsPlain name) (h : f.text = name ++ "=" ++ rest) :
    undo f.text.toList = (name ++ "=").toList ++ undo rest.toList := by
  have hhead : IsPlain (name ++ "=") := isPlain_append.mpr ⟨hname, by decide⟩
  rw [h, String.toList_append (s := name ++ "="), hhead.isWord.undo_append, hhead.undo_eq]

/-- The name ends at the first equals sign. -/
theorem readFilter_named (hname : IsPlain name) (ends : '=' ∉ name.toList)
    (h : f.text = name ++ "=" ++ rest) :
    readFilter f.asRead = (name, (parts ':' (undo rest.toList)).map nameAndValue) := by
  have htext : f.asRead = name ++ "=" ++ .ofList (undo rest.toList) := by
    rw [Filter.asRead, undo_named hname h, String.ofList_append, String.ofList_toList]
  rw [readFilter, htext, nameAndValue_eq ends, String.toList_ofList]

end Named

/-! ### Names of filters -/

namespace Filter

/-- The name under which the engine knows a filter. -/
def word : Filter → String
  | trim .. => "trim"
  | resetVideo | videoSpeed _ => "setpts"
  | tone _ => "eq"
  | hue _ | grayscale => "hue"
  | blur _ => "gblur"
  | sharpen _ => "unsharp"
  | invert => "negate"
  | crop .. => "crop"
  | scale .. | fit .. | imageWidth _ => "scale"
  | pad .. => "pad"
  | squarePixels => "setsar"
  | frameRate _ => "fps"
  | pixelFormat | withAlpha => "format"
  | black .. => "color"
  | drawText _ => "drawtext"
  | overlay .. => "overlay"
  | opacity _ => "colorchannelmixer"
  | audioTrim .. | audioLength _ => "atrim"
  | resetAudio => "asetpts"
  | tempo _ => "atempo"
  | volume _ => "volume"
  | audioFormat _ => "aformat"
  | audioPad _ => "apad"
  | silence _ => "anullsrc"
  | passVideo => "null"
  | passAudio => "anull"
  | concatVideo _ | concatAudio _ => "concat"
  | mix _ => "amix"

theorem isPlain_word (f : Filter) : IsPlain f.word ∧ '=' ∉ f.word.toList := by
  cases f <;> dsimp only [word] <;> decide

/-- Behind the name nothing stands, or an equals sign. -/
theorem text_cases (f : Filter) : f.text = f.word ∨ ∃ rest, f.text = f.word ++ "=" ++ rest := by
  have hrest (h : (f.word ++ "=").toList <+: f.text.toList) :
      ∃ rest, f.text = f.word ++ "=" ++ rest := by
    obtain ⟨cs, hcs⟩ := h
    refine ⟨.ofList cs, String.toList_injective ?_⟩
    rw [← hcs, String.toList_append (t := String.ofList cs), String.toList_ofList]
  cases f with
  | invert | passVideo | passAudio => exact Or.inl rfl
  | _ =>
    refine Or.inr (hrest ?_)
    delta text
    simp [word]

/-- **The name of a filter is read.** -/
theorem name_asRead (f : Filter) : (readFilter f.asRead).1 = f.word := by
  obtain ⟨hplain, ends⟩ := f.isPlain_word
  rcases f.text_cases with htext | ⟨rest, htext⟩
  · rw [readFilter, asRead, htext, hplain.undo_eq, String.toList_ofList, nameAndValue_bare ends]
  · rw [readFilter_named hplain ends htext]

end Filter

/-! ### Options -/

namespace IsSoundOption
variable {name value : String}

theorem plain (hname : IsInert name ∧ '=' ∉ name.toList) (hvalue : IsInert value) :
    IsSoundOption (name, .plain value) := ⟨hname.1, hname.2, hvalue⟩

theorem quoted (hname : IsInert name ∧ '=' ∉ name.toList) (hvalue : IsOptionPlain value) :
    IsSoundOption (name, .quoted value) := ⟨hname.1, hname.2, hvalue⟩

end IsSoundOption

/-- The condition of a window as an option. -/
def Window.options (w : Window) : List (String × OptionValue) :=
  match w.expression? with
  | some e => [("enable", .quoted e)]
  | none => []

theorem Window.options_sound (w : Window) : ∀ o ∈ w.options, IsSoundOption o := by
  unfold options
  split
  · rename_i e he
    exact List.forall_mem_singleton.mpr (.quoted (by decide) (isOptionPlain_expression he))
  · exact nofun

namespace Filter

/-- The options of the filters that say something about time. -/
def options : Filter → List (String × OptionValue)
  | trim s e => [("start", .plain s.sixPlaces), ("end", .plain e.sixPlaces)]
  | black w h r d =>
    [("c", .plain "black"), ("s", .plain (toString w ++ "x" ++ toString h)),
      ("r", .plain (toString r)), ("d", .plain d.sixPlaces)]
  | drawText d => d.options
  | overlay x y w =>
    [("x", .plain (offset x "(main_w-overlay_w)/2")),
      ("y", .plain (offset y "(main_h-overlay_h)/2"))] ++ w.options
  | audioTrim s e =>
    ("start", .plain s.sixPlaces) :: (e.map fun e => ("end", .plain e.sixPlaces)).toList
  | audioPad d => [("whole_dur", .plain d.sixPlaces)]
  | audioLength d => [("duration", .plain d.sixPlaces)]
  | _ => []

variable {f : Filter}

theorem options_sound (h : f.IsSound) : ∀ o ∈ f.options, IsSoundOption o := by
  have hnumber {name : String} (hname : IsInert name ∧ '=' ∉ name.toList) (x : Number) :
      IsSoundOption (name, .plain x.sixPlaces) := .plain hname (inert_sixPlaces x)
  cases f with
  | trim s e =>
    exact List.forall_mem_cons.mpr ⟨hnumber (by decide) s,
      List.forall_mem_singleton.mpr (hnumber (by decide) e)⟩
  | black width height r d =>
    have hsize : IsInert (toString width ++ "x" ++ toString height) :=
      isInert_append.mpr ⟨isInert_append.mpr ⟨inert_int width, by decide⟩, inert_int height⟩
    simp only [options, List.forall_mem_cons]
    exact ⟨.plain (by decide) (by decide), .plain (by decide) hsize,
      .plain (by decide) (inert_int r), hnumber (by decide) d, nofun⟩
  | drawText d => exact DrawText.options_sound h
  | overlay x y w =>
    simp only [options, List.forall_mem_append, List.forall_mem_cons]
    exact ⟨⟨.plain (by decide) (inert_offset x (by decide)),
      .plain (by decide) (inert_offset y (by decide)), nofun⟩, w.options_sound⟩
  | audioTrim s e =>
    refine List.forall_mem_cons.mpr ⟨hnumber (by decide) s, ?_⟩
    cases e with
    | none => exact fun _ h => absurd h List.not_mem_nil
    | some e => exact List.forall_mem_singleton.mpr (hnumber (by decide) e)
  | audioPad d | audioLength d => exact List.forall_mem_singleton.mpr (hnumber (by decide) d)
  | _ => exact nofun

/-- Behind the name the options stand. -/
theorem text_options (given : f.options ≠ []) :
    f.text = f.word ++ "=" ++ ":".intercalate (f.options.map optionText) := by
  refine String.toList_injective ?_
  cases f with
  | trim | black | audioPad | audioLength =>
    delta text
    simp [word, options, optionText, OptionValue.text]
  | drawText d => rfl
  | overlay x y w =>
    delta text
    simp only [enableOption, options, Window.options]
    cases w.expression? <;> simp [word, optionText, OptionValue.text]
  | audioTrim s e =>
    delta text
    cases e <;> simp [word, options, optionText, OptionValue.text]
  | _ => exact absurd rfl given

/-- **Options are read as they were meant.** -/
theorem readFilter_options (h : f.IsSound) (given : f.options ≠ []) :
    readFilter f.asRead = (f.word, f.options.map fun o => (o.1, o.2.meaning)) := by
  obtain ⟨hplain, ends⟩ := f.isPlain_word
  have hread := readOptions?_of_sound hplain given (options_sound h)
  have htext := text_options given
  -- the reader of options was told the name, here it is found
  rw [← htext, readOptions?, undo_named hplain htext, List.drop_left, if_pos (by simp)] at hread
  rw [readFilter_named hplain ends htext, Option.some.inj hread]

/-- A divisor has no name. -/
theorem readFilter_videoSpeed (x : Number) :
    readFilter (videoSpeed x).asRead = ("setpts", [("PTS/" ++ x.sixPlaces, "")]) := by
  have hvalue : IsInert ("PTS/" ++ x.sixPlaces) := isInert_append.mpr ⟨by decide, inert_sixPlaces x⟩
  have htext : (videoSpeed x).text = "setpts" ++ "=" ++ ("PTS/" ++ x.sixPlaces) := by
    refine String.toList_injective ?_
    delta text
    simp
  have hparts : parts ':' ("PTS/" ++ x.sixPlaces).toList = [("PTS/" ++ x.sixPlaces).toList] := by
    have hjoined := parts_joined (c := ':') List.mem_cons_self (by decide) (by decide)
      (List.cons_ne_nil _ _) (List.forall_mem_singleton.mpr hvalue.optionPlain.isWord)
    rwa [List.intercalate_singleton, List.map_singleton, hvalue.optionPlain.undo_eq] at hjoined
  have hbare : '=' ∉ ("PTS/" ++ x.sixPlaces).toList := by
    rw [String.toList_append, List.mem_append, not_or]
    exact ⟨by decide, equals_not_mem_sixPlaces x⟩
  rw [readFilter_named (by decide) (by decide) htext, hvalue.plain.undo_eq, hparts,
    List.map_singleton, nameAndValue_bare hbare]

end Filter

/-! ### What filters say about time -/

/-- What a filter says about time. -/
inductive Times (α : Type) where
  /-- Nothing before the first time, and nothing from the second one on. -/
  | range (start finish : α)
  | length (duration : α)
  /-- Only from the first time on, until before the second one. -/
  | window (start finish : α)
  /-- The clock goes faster by a factor. -/
  | divisor (factor : α)
  deriving DecidableEq, Repr

namespace Times
variable {α β : Type}

def map (f : α → β) : Times α → Times β
  | range s e => range (f s) (f e)
  | length d => length (f d)
  | window s e => window (f s) (f e)
  | divisor x => divisor (f x)

end Times

/-- A window that ends. -/
def Window.times? (w : Window) : Option (Times Number) := w.finish.map (.window w.start ·)

/-- What a filter says about time. -/
def Filter.times? : Filter → Option (Times Number)
  | trim s e => some (.range s e)
  | videoSpeed x => some (.divisor x)
  | black _ _ _ d | audioPad d | audioLength d => some (.length d)
  | drawText d => d.window.times?
  | overlay _ _ w => w.times?
  | audioTrim s e => e.map (.range s ·)
  | _ => none

namespace Plan

/-- Reads the condition that a time has come and another one has not. -/
def readWindow? (condition : String) : Option (Times String) :=
  match condition.toList.dropPrefix? "gte(t,".toList with
  | none => none
  | some cs =>
    match (cs.dropWhile (· != ')')).dropPrefix? ")*lt(t,".toList with
    | none => none
    | some ds =>
      if ds.dropWhile (· != ')') = [')'] then
        some (.window (.ofList (cs.takeWhile (· != ')'))) (.ofList (ds.takeWhile (· != ')'))))
      else none

/-- Reads by what the time of a picture is divided. -/
def readDivisor? (expression : String) : Option (Times String) :=
  (expression.toList.dropPrefix? "PTS/".toList).map fun cs => .divisor (.ofList cs)

/-- Reads what a filter of a graph says about time. -/
def readTimes? (filter : String) : Option (Times String) :=
  let (name, options) := readFilter filter
  if name = "trim" ∨ name = "atrim" then
    match options.lookup "start", options.lookup "end", options.lookup "duration" with
    | some s, some e, _ => some (.range s e)
    | _, _, some d => some (.length d)
    | _, _, _ => none
  else if name = "color" then (options.lookup "d").map .length
  else if name = "apad" then (options.lookup "whole_dur").map .length
  else if name = "setpts" then options.head?.bind fun o => readDivisor? o.1
  else if name = "overlay" ∨ name = "drawtext" then (options.lookup "enable").bind readWindow?
  else none

end Plan

/-! ### Conditions on the time -/

section Conditions
variable {s e : String}

/-- What stands before the first closing parenthesis, and what stands from there on. -/
theorem span_parenthesis (hs : ')' ∉ s.toList) (rest : List Char) :
    (s.toList ++ ')' :: rest).takeWhile (· != ')') = s.toList ∧
      (s.toList ++ ')' :: rest).dropWhile (· != ')') = ')' :: rest := by
  have hbare : ∀ c ∈ s.toList, (c != ')') = true := fun c hc => by
    have hne : c ≠ ')' := fun heq => hs (heq ▸ hc)
    simpa using hne
  rw [List.takeWhile_append_of_pos hbare, List.dropWhile_append_of_pos hbare]
  simp

/-- A window that ends is read. -/
theorem readWindow?_ends (hs : ')' ∉ s.toList) (he : ')' ∉ e.toList) :
    readWindow? ("gte(t," ++ s ++ ")*lt(t," ++ e ++ ")") = some (.window s e) := by
  have htext : ("gte(t," ++ s ++ ")*lt(t," ++ e ++ ")").toList =
      "gte(t,".toList ++ (s.toList ++ ')' :: ("*lt(t,".toList ++ (e.toList ++ [')']))) := by simp
  have hnext : (')' :: ("*lt(t,".toList ++ (e.toList ++ [')']))).dropPrefix? ")*lt(t,".toList =
      some (e.toList ++ [')']) := List.dropPrefix?_append_of_beq _ (by decide)
  obtain ⟨hstart, hmiddle⟩ := span_parenthesis hs ("*lt(t,".toList ++ (e.toList ++ [')']))
  obtain ⟨hfinish, hend⟩ := span_parenthesis he []
  rw [readWindow?, htext, List.dropPrefix?_append_of_beq _ (by decide)]
  dsimp only
  rw [hstart, hmiddle, hnext]
  dsimp only
  rw [hfinish, hend, if_pos rfl, String.ofList_toList, String.ofList_toList]

/-- A window that does not end is not taken for one that does. -/
theorem readWindow?_open (hs : ')' ∉ s.toList) : readWindow? ("gte(t," ++ s ++ ")") = none := by
  have htext : ("gte(t," ++ s ++ ")").toList = "gte(t,".toList ++ (s.toList ++ [')']) := by simp
  have hnext : [')'].dropPrefix? ")*lt(t,".toList = none := by decide
  obtain ⟨-, hend⟩ := span_parenthesis hs []
  rw [readWindow?, htext, List.dropPrefix?_append_of_beq _ (by decide)]
  dsimp only
  rw [hend, hnext]

end Conditions

/-- **The condition of a window is read as the window.** -/
theorem readWindow?_expression (w : Window) :
    w.expression?.bind readWindow? = w.times?.map (Times.map Number.sixPlaces) := by
  obtain ⟨start, finish⟩ := w
  have hstart := parenthesis_not_mem_sixPlaces start
  cases finish with
  | none =>
    unfold Window.expression? Window.times?
    dsimp only
    split
    · rfl
    · exact readWindow?_open hstart
  | some e => exact readWindow?_ends hstart (parenthesis_not_mem_sixPlaces e)

/-! ### Times of filters -/

/-- A filter with another name says nothing about time. -/
theorem readTimes?_of_name {filter : String} (h : (readFilter filter).1 ∉
    ["trim", "atrim", "color", "apad", "setpts", "overlay", "drawtext"]) :
    readTimes? filter = none := by
  simp only [List.mem_cons, List.not_mem_nil, or_false, not_or] at h
  obtain ⟨htrim, hatrim, hcolor, hapad, hsetpts, hoverlay, hdrawtext⟩ := h
  simp only [readTimes?, htrim, hatrim, hcolor, hapad, hsetpts, hoverlay, hdrawtext, or_self,
    if_false]

theorem lookup_enable (w : Window) :
    ((w.options.map fun o => (o.1, o.2.meaning)).lookup "enable").bind readWindow? =
      w.times?.map (Times.map Number.sixPlaces) := by
  rw [← readWindow?_expression, Window.options]
  cases w.expression? <;> rfl

/-- No other option of a text overlay is taken for its condition. -/
theorem lookup_enable_drawText (d : DrawText) :
    (d.options.map fun o => (o.1, o.2.meaning)).lookup "enable" =
      (d.window.options.map fun o => (o.1, o.2.meaning)).lookup "enable" := by
  simp only [DrawText.options, Window.options, List.map_append]
  cases nonempty? d.fontFile <;> cases nonempty? d.boxColor <;> rfl

/-- **What a filter says about time is read**, each number as it is written. -/
theorem Filter.readTimes?_asRead {f : Filter} (h : f.IsSound) :
    readTimes? f.asRead = f.times?.map (Times.map Number.sixPlaces) := by
  have hread := readFilter_options h
  cases f with
  | trim | black | audioPad | audioLength =>
    rw [readTimes?, hread (List.cons_ne_nil _ _)]
    rfl
  | audioTrim s e =>
    rw [readTimes?, hread (List.cons_ne_nil _ _)]
    -- without an end there is no range, and the name is the one of a length as well
    cases e <;> rfl
  | drawText d =>
    -- the options in front of the condition come from the text and its style
    rw [readTimes?, hread (by simp [options, DrawText.options])]
    exact (congrArg (Option.bind · readWindow?) (lookup_enable_drawText d)).trans (lookup_enable _)
  | overlay x y w =>
    rw [readTimes?, hread (List.cons_ne_nil _ _)]
    exact lookup_enable w
  | videoSpeed x =>
    have hdivisor : readDivisor? ("PTS/" ++ x.sixPlaces) = some (.divisor x.sixPlaces) := by
      rw [readDivisor?, String.toList_append, List.dropPrefix?_append_of_beq _ (by decide),
        Option.map_some, String.ofList_toList]
    rw [readTimes?, readFilter_videoSpeed]
    exact hdivisor
  | resetVideo => rfl
  | _ =>
    refine readTimes?_of_name ?_
    rw [name_asRead]
    dsimp only [word]
    decide

/-! ### Times of chains -/

def Chain.times (c : Chain Label Filter) : List (Times Number) := c.filters.filterMap Filter.times?

/-- Reads what the filters of a chain say about time. -/
def Chain.readTimes (c : Chain String String) : List (Times String) := c.filters.filterMap readTimes?

theorem Chain.readTimes_asRead {c : Chain Label Filter} (h : c.IsSound) :
    (c.map Label.text Filter.text).asRead.readTimes = c.times.map (Times.map Number.sixPlaces) := by
  rw [readTimes, filters_asRead, List.filterMap_map, times, List.map_filterMap]
  refine List.filterMap_congr fun f hf => ?_
  rw [Function.comp_apply, f.readTimes?_asRead (h.filters f hf)]

/-- **What a compiled plan says about time is read of its graph**, in the order of its chains. -/
theorem readTimes_of_compile {k : Compiler} {t : Timeline} {assets : Assets}
    {p : Plan Label Filter} (h : k.compile t assets = .ok p) :
    (readGraph? p.toText.graph).map (List.flatMap Chain.readTimes) =
      some ((p.chains.flatMap Chain.times).map (Times.map Number.sixPlaces)) := by
  obtain ⟨-, hsound⟩ := chains_sound h
  rw [readGraph?_of_compile h, chains_toText, Option.map_some, List.map_map, List.flatMap_map,
    List.map_flatMap]
  exact congrArg some (List.flatMap_congr fun c hc => Chain.readTimes_asRead (hsound c hc))

end Montage
