import Montage.Proofs.LabelText
import Mathlib.Data.List.Induction
import Mathlib.Data.List.Nodup

/-! # What the check of labels comes to

Read from the beginning, each event of a plan can be compared with those before it: what is read is a
stream that is there, or was written before and not yet read, and what is written is no stream and was
not yet written (`FitsSoFar`).  If nothing is left over in the end, the events **fit** (`Fits`).  That
is the same as being sound (`fits_iff_soundEvents`), and the check of a plan accepts no other plans.

The check of texts has to read the numbers of input files, and a number of more than 4300 digits cannot be
read, whatever file it names: if the events come to one before anything is wrong, the check ends there,
without a word on the labels (`checkTexts_outcome`).  So a plan whose labels fit may be refused for its
leading zeros (`leading_zeros_refused`).
-/
namespace Montage

open LabelEvent

section Fits
variable {ℓ : Type} {stream : ℓ → Option Nat} {inputs : Nat} {es : List (LabelEvent ℓ)}

/-- Nothing is wrong with the events so far. -/
structure FitsSoFar (stream : ℓ → Option Nat) (inputs : Nat) (es : List (LabelEvent ℓ)) : Prop where
  /-- A stream that is read is there; another label was written by an earlier event, and read by none. -/
  reads : ∀ before stage l after, es = before ++ read stage l :: after →
    (∀ i, stream l = some i → i < inputs) ∧
      (stream l = none → (∃ st, write st l ∈ before) ∧ ∀ st, read st l ∉ before)
  /-- A label that is written is no stream, and no earlier event has written it. -/
  writes : ∀ before stage l after, es = before ++ write stage l :: after →
    stream l = none ∧ ∀ st, write st l ∉ before

/-- Nothing is wrong with the events, and every label that is written is read. -/
structure Fits (stream : ℓ → Option Nat) (inputs : Nat) (es : List (LabelEvent ℓ)) : Prop
    extends FitsSoFar stream inputs es where
  allRead : ∀ stage l, write stage l ∈ es → ∃ st, read st l ∈ es

theorem mem_written {l : ℓ} : l ∈ written es ↔ ∃ stage, write stage l ∈ es := by
  constructor
  · intro h
    obtain ⟨e, he, hw⟩ := List.mem_filterMap.mp h
    cases e with
    | read stage k => cases hw
    | write stage k =>
      cases hw
      exact ⟨stage, he⟩
  · rintro ⟨stage, h⟩
    exact List.mem_filterMap.mpr ⟨_, h, rfl⟩

/-- Values are different if none of them comes a second time. -/
theorem nodup_filterMap_iff {α β : Type} {f : α → Option β} {xs : List α} :
    (xs.filterMap f).Nodup ↔ ∀ before a after b, xs = before ++ a :: after → f a = some b →
      b ∉ before.filterMap f := by
  constructor
  · rintro h before a after b rfl hb
    rw [List.filterMap_append, List.filterMap_cons_some hb] at h
    exact fun hmem => (List.nodup_append'.mp h).2.2 hmem List.mem_cons_self
  · intro h
    induction xs using List.reverseRecOn with
    | nil => exact List.nodup_nil
    | append_singleton xs a ih =>
      rw [List.filterMap_append]
      have hxs : (xs.filterMap f).Nodup := by
        refine ih fun before a' after b heq => h before a' (after ++ [a]) b ?_
        rw [heq, List.append_assoc, List.cons_append]
      cases hb : f a with
      | none => simpa [hb] using hxs
      | some b => simpa [hb, List.nodup_append', hxs] using h xs a [] b rfl hb

/-- **What is said event by event is what the walk of the check asks for.** -/
theorem fitsSoFar_iff_soundAfter :
    FitsSoFar stream inputs es ↔ SoundAfter stream inputs ⟨[], []⟩ es := by
  constructor
  · intro h
    refine ⟨fun stage l i hread => ?_, fun before stage l after heq hnone => ?_, ?_,
      fun _ _ => List.not_mem_nil, ?_, fun _ _ => List.not_mem_nil, fun l hl => ?_⟩
    · obtain ⟨before, after, heq⟩ := List.append_of_mem hread
      exact (h.reads before stage l after heq).1 i
    · exact Or.inr (mem_written.mpr ((h.reads before stage l after heq).2 hnone).1)
    · refine nodup_filterMap_iff.mpr fun before e after l heq hl hmem => ?_
      cases e with
      | write stage k => cases hl
      | read stage k =>
        obtain ⟨hnone, st, hearlier⟩ := mem_consumed.mp hmem
        have hsame : k = l := by
          cases hk : stream k <;> simp_all [consumed?]
        exact ((h.reads before stage l after (hsame ▸ heq)).2 hnone).2 st hearlier
    · refine nodup_filterMap_iff.mpr fun before e after l heq hl hmem => ?_
      cases e with
      | read stage k => cases hl
      | write stage k =>
        cases hl
        obtain ⟨st, hearlier⟩ := mem_written.mp hmem
        exact (h.writes before stage l after heq).2 st hearlier
    · obtain ⟨stage, hwrite⟩ := mem_written.mp hl
      obtain ⟨before, after, heq⟩ := List.append_of_mem hwrite
      exact (h.writes before stage l after heq).1
  · intro h
    refine ⟨fun before stage l after heq => ⟨fun i hi => ?_, fun hnone => ⟨?_, fun st hearlier => ?_⟩⟩,
      fun before stage l after heq => ⟨?_, fun st hearlier => ?_⟩⟩
    · exact h.present stage l i (heq ▸ List.mem_append_right _ List.mem_cons_self) hi
    · exact mem_written.mp ((h.ordered before stage l after heq hnone).resolve_left List.not_mem_nil)
    · refine nodup_filterMap_iff.mp h.consumedOnce before _ after l heq ?_
        (mem_consumed.mpr ⟨hnone, st, hearlier⟩)
      simp [consumed?, hnone]
    · exact h.inner l
        (mem_written.mpr ⟨stage, heq ▸ List.mem_append_right _ List.mem_cons_self⟩)
    · exact nodup_filterMap_iff.mp h.writtenOnce before _ after l heq rfl
        (mem_written.mpr ⟨st, hearlier⟩)

theorem fits_iff_soundEvents : Fits stream inputs es ↔ SoundEvents stream inputs es := by
  constructor
  · intro h
    have hs := fitsSoFar_iff_soundAfter.mp h.toFitsSoFar
    refine ⟨hs.present, hs.ordered, hs.consumedOnce, hs.writtenOnce, hs.inner, fun l hl => ?_⟩
    obtain ⟨stage, hwrite⟩ := mem_written.mp hl
    exact mem_consumed.mpr ⟨hs.inner l hl, h.allRead stage l hwrite⟩
  · intro h
    refine ⟨fitsSoFar_iff_soundAfter.mpr ⟨h.present, h.ordered, h.consumedOnce,
      fun _ _ => List.not_mem_nil, h.writtenOnce, fun _ _ => List.not_mem_nil, h.inner⟩, ?_⟩
    intro stage l hwrite
    exact (mem_consumed.mp (h.allConsumed l (mem_written.mpr ⟨stage, hwrite⟩))).2

variable [DecidableEq ℓ]

/-- The walk goes on as long as nothing is wrong. -/
theorem run_isOk_iff_fitsSoFar :
    (∃ s, LabelState.run stream inputs ⟨[], []⟩ es = .ok s) ↔ FitsSoFar stream inputs es := by
  rw [fitsSoFar_iff_soundAfter]
  constructor
  · rintro ⟨s, h⟩
    exact (runLabels_eq_ok_iff.mp h).1
  · intro h
    exact ⟨_, runLabels_eq_ok_iff.mpr ⟨h, rfl⟩⟩

end Fits

/-! ### Texts -/

/-- No event reads a number that is too long. -/
def Legible (es : List (LabelEvent String)) : Prop := ∀ e ∈ es, e.longNumber? = none

/-- The events come to a number of so many digits, which are too many, and nothing is wrong before. -/
def StopsAt (inputs : Nat) (es : List (LabelEvent String)) (digits : Nat) : Prop :=
  ∃ before e after, es = before ++ e :: after ∧ Legible before ∧ e.longNumber? = some digits ∧
    FitsSoFar streamOfText? inputs before

namespace Plan
variable {p : TextPlan} {before after : List (LabelEvent String)} {e : LabelEvent String}
  {digits : Nat}

theorem checkTexts_of_legible (h : Legible p.events) :
    p.checkTexts = (p.checkLabels streamOfText?).mapError .label := by
  rw [checkTexts, List.findSome?_eq_none_iff.mpr h]

/-- The first number that is too long ends the check, unless something is wrong before. -/
theorem checkTexts_of_long (heq : p.events = before ++ e :: after) (legible : Legible before)
    (long : e.longNumber? = some digits) :
    (∀ s, LabelState.run streamOfText? p.inputs.length ⟨[], []⟩ before = .ok s →
      p.checkTexts = .error (.longNumber digits)) ∧
    ∀ f, LabelState.run streamOfText? p.inputs.length ⟨[], []⟩ before = .error f →
      p.checkTexts = .error (.label f) := by
  have hfound : p.events.findSome? longNumber? = some digits := by
    rw [heq, List.findSome?_append, List.findSome?_eq_none_iff.mpr legible,
      List.findSome?_cons, long, Option.none_or]
  have hbefore : (p.events.takeWhile fun e => e.longNumber?.isNone) = before := by
    rw [heq, List.takeWhile_append_of_pos (by simpa [Legible] using legible), List.takeWhile_cons]
    simp [long]
  refine ⟨fun s hrun => ?_, fun f hrun => ?_⟩ <;> simp only [checkTexts, hfound, hbefore, hrun]

/-- All numbers can be read, or there is a first one that cannot. -/
theorem legible_or_long (es : List (LabelEvent String)) : Legible es ∨
    ∃ before e after digits, es = before ++ e :: after ∧ Legible before ∧
      e.longNumber? = some digits := by
  cases h : es.findSome? longNumber? with
  | none => exact Or.inl (List.findSome?_eq_none_iff.mp h)
  | some digits =>
    obtain ⟨before, e, after, heq, hlong, hlegible⟩ := List.findSome?_eq_some_iff.mp h
    exact Or.inr ⟨before, e, after, digits, heq, hlegible, hlong⟩

theorem stopsAt_iff {inputs : Nat} (legible : Legible before) (long : e.longNumber? = some digits)
    (n : Nat) : StopsAt inputs (before ++ e :: after) n ↔
      n = digits ∧ FitsSoFar streamOfText? inputs before := by
  constructor
  · rintro ⟨before', e', after', heq, legible', long', fits⟩
    -- the first long number is the same in both
    have hbefore : before = before' := by
      have htake (b a : List (LabelEvent String)) (x : LabelEvent String) (k : Nat)
          (hb : Legible b) (hx : x.longNumber? = some k) :
          ((b ++ x :: a).takeWhile fun e => e.longNumber?.isNone) = b := by
        rw [List.takeWhile_append_of_pos (by simpa [Legible] using hb), List.takeWhile_cons]
        simp [hx]
      rw [← htake before after e digits legible long, heq, htake before' after' e' n legible' long']
    subst hbefore
    obtain ⟨rfl, -⟩ := List.cons.inj (List.append_cancel_left heq)
    exact ⟨Option.some.inj (long'.symm.trans long), fits⟩
  · rintro ⟨rfl, fits⟩
    exact ⟨before, e, after, rfl, legible, long, fits⟩

/-- A plan of texts is accepted if its labels are in order and its numbers can be read. -/
theorem checkTexts_eq_ok_iff : p.checkTexts = .ok () ↔
    SoundEvents streamOfText? p.inputs.length p.events ∧ Legible p.events := by
  rcases legible_or_long p.events with hlegible | ⟨before, e, after, digits, heq, hlegible, hlong⟩
  · rw [checkTexts_of_legible hlegible, ← checkLabels_eq_ok_iff]
    cases p.checkLabels streamOfText? <;> simp [hlegible]
  · have hillegible : ¬ Legible p.events := fun h => by
      have hnone := h e (heq ▸ List.mem_append_right _ List.mem_cons_self)
      exact nomatch hnone.symm.trans hlong
    obtain ⟨hstops, hfails⟩ := checkTexts_of_long heq hlegible hlong
    cases hrun : LabelState.run streamOfText? p.inputs.length ⟨[], []⟩ before with
    | ok s => simp [hstops s hrun, hillegible]
    | error f => simp [hfails f hrun, hillegible]

/-- The check stops at a number that is too long if nothing is wrong before it. -/
theorem checkTexts_eq_longNumber_iff :
    p.checkTexts = .error (.longNumber digits) ↔ StopsAt p.inputs.length p.events digits := by
  rcases legible_or_long p.events with hlegible | ⟨before, e, after, n, heq, hlegible, hlong⟩
  · have hnever : ¬ StopsAt p.inputs.length p.events digits := by
      rintro ⟨before, e, after, heq, -, hlong, -⟩
      have hnone := hlegible e (heq ▸ List.mem_append_right _ List.mem_cons_self)
      exact nomatch hnone.symm.trans hlong
    rw [checkTexts_of_legible hlegible]
    cases p.checkLabels streamOfText? <;> simp [hnever]
  · obtain ⟨hstops, hfails⟩ := checkTexts_of_long heq hlegible hlong
    rw [heq, stopsAt_iff hlegible hlong, ← run_isOk_iff_fitsSoFar]
    cases hrun : LabelState.run streamOfText? p.inputs.length ⟨[], []⟩ before with
    | ok s => simp [hstops s hrun, eq_comm]
    | error f => simp [hfails f hrun]

/-- **What the check of a plan of texts comes to.**  It accepts exactly the plans whose events fit and whose
numbers can be read.  It stops at a number that is too long if nothing is wrong before it; and in all
other cases it says what is wrong with the labels, which is a problem of compiling. -/
theorem checkTexts_outcome (p : TextPlan) :
    (p.checkTexts = .ok () ↔ Fits streamOfText? p.inputs.length p.events ∧ Legible p.events) ∧
    (∀ digits, p.checkTexts = .error (.longNumber digits) ↔
      StopsAt p.inputs.length p.events digits) ∧
    (¬ (Fits streamOfText? p.inputs.length p.events ∧ Legible p.events) →
      (∀ digits, ¬ StopsAt p.inputs.length p.events digits) →
      ∃ f q, p.checkTexts = .error f ∧ f.problem? = some q ∧ q.kind = .compile) := by
  rw [fits_iff_soundEvents, ← checkTexts_eq_ok_iff]
  refine ⟨Iff.rfl, fun digits => checkTexts_eq_longNumber_iff, fun hrefused hreads => ?_⟩
  cases hcheck : p.checkTexts with
  | ok u => exact absurd hcheck hrefused
  | error f =>
    cases f with
    | label f => exact ⟨_, f.problem, rfl, rfl, rfl⟩
    | longNumber digits =>
      exact absurd (checkTexts_eq_longNumber_iff.mp hcheck) (hreads digits)

end Plan

namespace Sample

/-- A label of the first input file with so many leading zeros. -/
def zeros (n : Nat) : String := String.ofList (List.replicate n '0' ++ [':', 'v'])

/-- A plan that hands the picture of its only input file on as it is. -/
def passing (label : String) : TextPlan where
  inputs := [⟨"assets/0.mp4", []⟩]
  stages := [⟨.encode, "encode", [], [label], []⟩]
  outputName := "output.mp4"
  duration := .finite 1
  warnings := []

theorem streamDigits?_zeros (n : Nat) : streamDigits? (zeros (n + 1)) = some (List.replicate (n + 1) 0) := by
  have hline : '\n' ∉ (zeros (n + 1)).toList := by simp [zeros]
  have hdigits : ∀ c ∈ List.replicate (n + 1) '0', c.isDigit = true := fun c hc => by
    rw [(List.mem_replicate.mp hc).2]
    decide
  have hzero : Number.digitOf '0' = 0 := by decide
  rw [streamDigits?, Text.dropFinalFeed_of_not_mem hline, zeros, String.toList_ofList,
    Number.takeDigits_append hdigits (by rintro c ⟨⟩; decide), List.map_replicate, hzero,
    List.replicate_succ]
  rfl

theorem streamOfText?_zeros (n : Nat) : streamOfText? (zeros (n + 1)) = some 0 := by
  rw [streamOfText?, streamDigits?_zeros]
  have hvalue : Number.ofDigits (List.replicate (n + 1) 0) = 0 := by
    induction n with
    | zero => rfl
    | succ n ih => exact ih
  simp [hvalue]

end Sample

/-- A label that names a file which is there, and whose number has too many leading zeros to be read: the
events fit, and the check refuses the plan for another reason than its labels. -/
theorem leading_zeros_refused :
    Fits streamOfText? 1 (Sample.passing (Sample.zeros 4301)).events ∧
      (Sample.passing (Sample.zeros 4301)).checkTexts = .error (.longNumber 4301) ∧
      (TextLabelFault.longNumber 4301).problem? = none := by
  have hevents : (Sample.passing (Sample.zeros 4301)).events =
      [] ++ read "encode" (Sample.zeros 4301) :: [] := rfl
  have hstream := Sample.streamOfText?_zeros 4300
  have hlong : (read "encode" (Sample.zeros 4301)).longNumber? = some 4301 := by
    rw [LabelEvent.longNumber?, Sample.streamDigits?_zeros 4300, Option.map_some,
      List.length_replicate]
    decide
  have hnone : Legible [] := by simp [Legible]
  refine ⟨?_, (Plan.checkTexts_of_long hevents hnone hlong).1 ⟨[], []⟩ rfl, rfl⟩
  rw [fits_iff_soundEvents, hevents, List.nil_append]
  refine ⟨fun stage l i hread hi => ?_, ?_, ?_, List.nodup_nil, by simp, by simp⟩
  · cases List.mem_singleton.mp hread
    obtain rfl := Option.some.inj (hi.symm.trans hstream)
    exact Nat.one_pos
  · refine orderedAfter_read.mpr ⟨fun hnone => ?_, OrderedAfter.nil⟩
    cases hnone.symm.trans hstream
  · rw [consumed_read_of_stream hstream]
    exact List.nodup_nil

end Montage
