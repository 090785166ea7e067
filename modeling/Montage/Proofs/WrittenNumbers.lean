import Montage.Proofs.GraphText

/-! # Numbers in a graph

Which numbers a filter writes is read off its meaning (`Filter.numbers`), and they stand in the graph
of a plan as they are written with at most six places (`Plan.stands_graph`).  A finite number is
written with figures, a point and a sign; one that is not finite is written as a word
(`Number.sixPlaces_mem_words`), and no reader of the graph takes that for a number.
-/
namespace Montage

/-! ### Numbers in texts -/

namespace Text

/-- A text stands somewhere in another one. -/
def StandsIn (a b : String) : Prop := ∃ before after, b = before ++ a ++ after

namespace StandsIn
variable {a b : String}

theorem self (a : String) : StandsIn a a := ⟨"", "", by simp⟩

theorem before (h : StandsIn a b) (c : String) : StandsIn a (b ++ c) := by
  obtain ⟨l, r, rfl⟩ := h
  exact ⟨l, r ++ c, by simp only [String.append_assoc]⟩

theorem behind (h : StandsIn a b) (c : String) : StandsIn a (c ++ b) := by
  obtain ⟨l, r, rfl⟩ := h
  exact ⟨c ++ l, r, by simp only [String.append_assoc]⟩

/-- An item of a list stands in the list as it is written. -/
theorem intercalate {c : String} {texts : List String} (h : StandsIn a b) (hb : b ∈ texts) :
    StandsIn a (c.intercalate texts) := by
  induction texts with
  | nil => cases hb
  | cons first rest ih =>
    cases rest with
    | nil =>
      rw [List.mem_singleton.mp hb] at h
      rwa [String.intercalate_singleton]
    | cons second rest =>
      rw [String.intercalate_cons_cons]
      rcases List.mem_cons.mp hb with rfl | hb
      · exact (h.before c).before _
      · exact (ih hb).behind _

end StandsIn
end Text
open Text

/-- The numbers of a condition on the time. -/
def Window.numbers (w : Window) : List Number :=
  match w.finish with
  | none => if w.start.isZero then [] else [w.start]
  | some e => [w.start, e]

def DrawText.numbers (d : DrawText) : List Number :=
  (if isTranslucent d.opacity then [d.opacity] else []) ++ d.window.numbers

/-- The numbers that the text of a filter writes with at most six places. -/
def Filter.numbers : Filter → List Number
  | trim s e => [s, e]
  | videoSpeed x | hue x | blur x | sharpen x | opacity x | tempo x | volume x => [x]
  | tone settings => settings.map Prod.snd
  | black _ _ _ d | audioPad d | audioLength d => [d]
  | drawText d => d.numbers
  | overlay _ _ w => w.numbers
  | audioTrim s e => s :: e.toList
  | _ => []

theorem Window.exists_expression {w : Window} {x : Number} (hx : x ∈ w.numbers) :
    ∃ e, w.expression? = some e ∧ StandsIn x.sixPlaces e := by
  obtain ⟨start, finish⟩ := w
  have hself := StandsIn.self x.sixPlaces
  cases finish with
  | none =>
    by_cases hstart : start.isZero = true
    · simp only [numbers, hstart, if_true, List.not_mem_nil] at hx
    · simp only [numbers, hstart, if_false, List.mem_singleton, Bool.false_eq_true] at hx
      subst hx
      exact ⟨_, if_neg hstart, (hself.behind _).before _⟩
  | some e =>
    refine ⟨_, rfl, ?_⟩
    rcases List.mem_cons.mp hx with rfl | hx
    · exact (((hself.behind _).before _).before _).before _
    · rw [← List.mem_singleton.mp hx]
      exact (hself.behind _).before _

theorem DrawText.exists_option {d : DrawText} {x : Number} (hx : x ∈ d.numbers) :
    ∃ o ∈ d.options, StandsIn x.sixPlaces (optionText o) := by
  unfold options
  rcases List.mem_append.mp hx with hx | hx
  · split at hx
    · rename_i htranslucent
      rw [List.mem_singleton.mp hx, if_pos htranslucent]
      refine ⟨("fontcolor", .plain (Plan.engineColor d.color ++ ("@" ++ d.opacity.sixPlaces))), ?_, ?_⟩
      · simp
      · exact (((StandsIn.self _).behind _).behind _).behind _
    · cases hx
  · obtain ⟨e, he, hstands⟩ := Window.exists_expression hx
    refine ⟨("enable", .quoted e), ?_, ?_⟩
    · simp [he]
    · exact ((hstands.behind _).before _).behind _

theorem Filter.stands_enableOption {w : Window} {x : Number} (hx : x ∈ w.numbers) :
    StandsIn x.sixPlaces (enableOption w) := by
  obtain ⟨e, he, hstands⟩ := Window.exists_expression hx
  rw [enableOption, he]
  exact (hstands.behind _).before _

/-- The numbers of a filter stand in its text. -/
theorem Filter.stands_text {f : Filter} {x : Number} (hx : x ∈ f.numbers) :
    StandsIn x.sixPlaces f.text := by
  have hself := StandsIn.self x.sixPlaces
  cases f with
  | trim s e =>
    rcases List.mem_cons.mp hx with rfl | hx
    · exact ((hself.behind _).before _).before _
    · rw [← List.mem_singleton.mp hx]
      exact hself.behind _
  | videoSpeed y | hue y | blur y | sharpen y | opacity y | tempo y | volume y | audioPad y
  | audioLength y =>
    rw [← List.mem_singleton.mp hx]
    exact hself.behind _
  | black w h r d =>
    rw [← List.mem_singleton.mp hx]
    exact hself.behind _
  | tone settings =>
    obtain ⟨⟨t, y⟩, hy, rfl⟩ := List.mem_map.mp hx
    exact ((hself.behind (t.word ++ "=")).intercalate (List.mem_map.mpr ⟨_, hy, rfl⟩)).behind _
  | drawText d =>
    obtain ⟨o, ho, hstands⟩ := DrawText.exists_option hx
    rw [text_drawText]
    exact (hstands.intercalate (List.mem_map_of_mem ho)).behind _
  | overlay y z w => exact (stands_enableOption hx).behind _
  | audioTrim s e =>
    rcases List.mem_cons.mp hx with rfl | hx
    · exact (hself.behind _).before _
    · cases e with
      | none => cases hx
      | some e =>
        rw [← List.mem_singleton.mp hx]
        exact (hself.behind _).behind _
  | _ => cases hx

/-- The numbers that a plan writes. -/
def Plan.numbers (p : Plan Label Filter) : List Number :=
  p.chains.flatMap fun c => c.filters.flatMap Filter.numbers

/-- What stands in a filter of a plan stands in its graph. -/
theorem Plan.stands_graph_of_filter {p : Plan Label Filter} {ch : Chain Label Filter} {f : Filter}
    {a : String} (hch : ch ∈ p.chains) (hf : f ∈ ch.filters) (h : StandsIn a f.text) :
    StandsIn a p.toText.graph := by
  have hfilters : StandsIn a (",".intercalate (ch.filters.map Filter.text)) :=
    h.intercalate (List.mem_map_of_mem hf)
  have hchain : StandsIn a (ch.map Label.text Filter.text).render := (hfilters.behind _).before _
  rw [graph_eq, chains_toText, List.map_map]
  exact hchain.intercalate (List.mem_map_of_mem hch)

/-- The numbers of a plan stand in its graph. -/
theorem Plan.stands_graph {p : Plan Label Filter} {x : Number} (hx : x ∈ p.numbers) :
    StandsIn x.sixPlaces p.toText.graph := by
  obtain ⟨c, hc, hx⟩ := List.mem_flatMap.mp hx
  obtain ⟨f, hf, hx⟩ := List.mem_flatMap.mp hx
  exact stands_graph_of_filter hc hf (Filter.stands_text hx)

/-! ### Numbers as texts -/

namespace Number

/-- Digits, a point and a sign. -/
def isPlaceChar (c : Char) : Bool := c.isDigit || c == '.' || c == '-'

theorem isPlaceChar_repr {n : Nat} {c : Char} (hc : c ∈ (Nat.repr n).toList) :
    isPlaceChar c = true := by
  have hdigit : c.isDigit = true := by
    refine isDigit_of_mem_digits (n := n) ?_
    simpa using hc
  simp [isPlaceChar, hdigit]

theorem isPlaceChar_places {n : Nat} {c : Char} (hc : c ∈ trimmedPlaces n) :
    isPlaceChar c = true := by
  have hplaces : c ∈ (padLeft 6 (Nat.repr n)).toList :=
    List.mem_reverse.mp ((List.dropWhile_sublist _).subset (List.mem_reverse.mp hc))
  rw [padLeft, String.toList_append, String.toList_ofList] at hplaces
  rcases List.mem_append.mp hplaces with hzero | hdigit
  · rw [List.eq_of_mem_replicate hzero]
    decide
  · exact isPlaceChar_repr hdigit

theorem isPlaceChar_sixPlacesRat {q : Rat} {c : Char} (hc : c ∈ (sixPlacesRat q).toList) :
    isPlaceChar c = true := by
  have hmagnitude (n : Nat) (ds : List Char) (hds : ∀ c ∈ ds, isPlaceChar c = true) :
      ∀ c ∈ (if ds = [] then Nat.repr n else Nat.repr n ++ "." ++ String.ofList ds).toList,
        isPlaceChar c = true := by
    intro c hc
    split at hc
    · exact isPlaceChar_repr hc
    · rw [String.toList_append, String.toList_append, String.toList_ofList (l := ds)] at hc
      rcases List.mem_append.mp hc with hc | hc
      · rcases List.mem_append.mp hc with hc | hc
        · exact isPlaceChar_repr hc
        · rw [List.mem_singleton.mp hc]
          decide
      · exact hds c hc
  have hplaces := hmagnitude (millionths q / 1000000) (trimmedPlaces (millionths q % 1000000))
    fun c => isPlaceChar_places
  rw [sixPlacesRat] at hc
  split at hc
  · rw [String.toList_append] at hc
    rcases List.mem_append.mp hc with hc | hc
    · rw [List.mem_singleton.mp hc]
      decide
    · exact hplaces c hc
  · exact hplaces c hc

/-- A number that is not finite is written as a word. -/
theorem sixPlaces_mem_words {x : Number} :
    x.sixPlaces ∈ ["nan", "inf", "-inf"] ↔ x.isFinite = false := by
  cases x with
  | finite q =>
    refine iff_of_false (fun h => ?_) nofun
    have hplace {c : Char} (hc : c ∈ (finite q).sixPlaces.toList) : isPlaceChar c = true :=
      isPlaceChar_sixPlacesRat hc
    have hletter : 'n' ∈ (finite q).sixPlaces.toList := by
      simp only [List.mem_cons, List.not_mem_nil, or_false] at h
      rcases h with h | h | h <;> rw [h] <;> decide
    exact absurd (hplace hletter) (by decide)
  | negativeZero => decide
  | infinite negative => cases negative <;> decide
  | nan => decide

end Number

end Montage
