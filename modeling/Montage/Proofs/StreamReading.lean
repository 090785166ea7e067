import Montage.Engine.Run
import Montage.Proofs.Checks
import Mathlib.Data.List.Basic

/-! # Streams that are read piece by piece

A process writes in pieces, and a piece may end anywhere in a line.  What has been read is
nevertheless a matter of the bytes alone: the buffer of a stream holds what stands after the last
line feed, the tail holds the last lines of diagnostics, and the times are those of the finished
lines (`Watch.after`).  So the pieces of a process add up, as long as what it has written is
**legible**: no line is too long, and every time is a number.  As soon as it is not, reading stops
with a fault, wherever the pieces end.

Hence the result of a process that is watched to its end is known from what it writes and from its
exit code, if everything can be read (`outcome_eq`), and there is none otherwise.
-/
namespace Montage

/-! ### Lines of bytes -/

namespace Text

theorem splitFeedsFrom_append_of_not_mem (current : List UInt8) {a : List UInt8} (h : 10 ∉ a)
    (b : List UInt8) :
    splitFeedsFrom current (a ++ b) = splitFeedsFrom (a.reverse ++ current) b := by
  induction a generalizing current with
  | nil => rfl
  | cons c rest ih =>
    obtain ⟨hc, hrest⟩ := not_or.mp (List.mem_cons.not.mp h)
    rw [List.cons_append, splitFeedsFrom, if_neg (Ne.symm hc), ih _ hrest]
    simp

theorem splitFeedsFrom_of_not_mem {current bytes : List UInt8} (h : 10 ∉ bytes) :
    splitFeedsFrom current bytes = ([], current.reverse ++ bytes) := by
  have hsplit := splitFeedsFrom_append_of_not_mem current h []
  rw [List.append_nil] at hsplit
  rw [hsplit, splitFeedsFrom, List.reverse_append, List.reverse_reverse]

/-- What stands after the last line feed has none. -/
theorem not_mem_splitFeedsFrom {current bytes : List UInt8} (h : 10 ∉ current) :
    10 ∉ (splitFeedsFrom current bytes).2 := by
  induction bytes generalizing current with
  | nil => simpa [splitFeedsFrom] using h
  | cons b rest ih =>
    rw [splitFeedsFrom]
    split
    · exact ih List.not_mem_nil
    · rename_i hb
      exact ih (List.not_mem_cons_of_ne_of_not_mem (Ne.symm hb) h)

theorem splitFeedsFrom_append {current : List UInt8} (h : 10 ∉ current) (a b : List UInt8) :
    splitFeedsFrom current (a ++ b) =
      ((splitFeedsFrom current a).1 ++ (splitFeeds ((splitFeedsFrom current a).2 ++ b)).1,
        (splitFeeds ((splitFeedsFrom current a).2 ++ b)).2) := by
  induction a generalizing current with
  | nil =>
    have hcurrent : 10 ∉ current.reverse := List.mem_reverse.not.mpr h
    have hsplit := splitFeedsFrom_append_of_not_mem [] hcurrent b
    rw [List.reverse_reverse, List.append_nil] at hsplit
    exact hsplit.symm
  | cons c rest ih =>
    rw [List.cons_append, splitFeedsFrom, splitFeedsFrom]
    split
    · rw [ih List.not_mem_nil]
      rfl
    · rename_i hc
      exact ih (List.not_mem_cons_of_ne_of_not_mem (Ne.symm hc) h)

/-- A line is no shorter than what was read of it. -/
theorem length_le_of_splitFeedsFrom {current bytes : List UInt8} {n : Nat}
    (h : ∀ l ∈ (splitFeedsFrom current bytes).1 ++ [(splitFeedsFrom current bytes).2],
      l.length ≤ n) : current.length ≤ n := by
  induction bytes generalizing current with
  | nil => simpa [splitFeedsFrom] using h
  | cons b rest ih =>
    rw [splitFeedsFrom] at h
    split at h
    · exact List.length_reverse ▸ h _ List.mem_cons_self
    · exact Nat.le_of_succ_le (ih h)

/-- What is kept at the end of a list is enough to keep at the end of a longer one. -/
theorem lastN_lastN_append {α : Type} (n : Nat) (xs ys : List α) :
    lastN n (lastN n xs ++ ys) = lastN n (xs ++ ys) := by
  have hdrop : lastN n xs ++ ys = (xs ++ ys).drop (xs.length - n) := by
    rw [lastN, List.drop_append_of_le_length (Nat.sub_le ..)]
  rw [hdrop, lastN, lastN, List.drop_drop]
  simp only [List.length_drop, List.length_append]
  congr 1
  omega

end Text

namespace Engine

open Text

/-- The lines of a stream that have ended. -/
def finished (bytes : List UInt8) : List (List UInt8) := (splitFeeds bytes).1

/-- What stands after the last of them. -/
def unfinished (bytes : List UInt8) : List UInt8 := (splitFeeds bytes).2

/-- What the end of a stream makes a line. -/
def lastLine (bytes : List UInt8) : List (List UInt8) :=
  if unfinished bytes = [] then [] else [unfinished bytes]

/-- The lines of a stream that has come to its end. -/
def linesOf (bytes : List UInt8) : List (List UInt8) := finished bytes ++ lastLine bytes

theorem finished_append (a b : List UInt8) :
    finished (a ++ b) = finished a ++ finished (unfinished a ++ b) := by
  rw [finished, splitFeeds, splitFeedsFrom_append List.not_mem_nil]
  rfl

theorem unfinished_append (a b : List UInt8) :
    unfinished (a ++ b) = unfinished (unfinished a ++ b) := by
  rw [unfinished, splitFeeds, splitFeedsFrom_append List.not_mem_nil]
  rfl

theorem splitFeeds_unfinished (bytes : List UInt8) :
    splitFeeds (unfinished bytes) = ([], unfinished bytes) :=
  splitFeedsFrom_of_not_mem (not_mem_splitFeedsFrom List.not_mem_nil)

/-- No line of a stream is too long so far. -/
def Fits (bytes : List UInt8) : Prop :=
  ∀ l ∈ finished bytes ++ [unfinished bytes], l.length ≤ lineLimit

instance (bytes : List UInt8) : Decidable (Fits bytes) :=
  inferInstanceAs (Decidable (∀ l ∈ finished bytes ++ [unfinished bytes], l.length ≤ lineLimit))

theorem fits_append_iff {past : List UInt8} (h : Fits past) (bytes : List UInt8) :
    Fits (past ++ bytes) ↔ Fits (unfinished past ++ bytes) := by
  have hpast : ∀ l ∈ finished past, l.length ≤ lineLimit :=
    fun l hl => h l (List.mem_append_left _ hl)
  unfold Fits
  rw [finished_append, unfinished_append, List.append_assoc]
  exact List.forall_mem_append.trans (and_iff_right hpast)

theorem Fits.of_append {past bytes : List UInt8} (h : Fits (past ++ bytes)) : Fits past := by
  unfold Fits at h ⊢
  rw [finished_append, unfinished_append, List.append_assoc] at h
  obtain ⟨hpast, hrest⟩ := List.forall_mem_append.mp h
  refine List.forall_mem_append.mpr ⟨hpast, List.forall_mem_singleton.mpr ?_⟩
  have hopen : 10 ∉ unfinished past := not_mem_splitFeedsFrom List.not_mem_nil
  have hsplit := splitFeedsFrom_append_of_not_mem [] hopen bytes
  rw [List.append_nil] at hsplit
  rw [finished, unfinished.eq_def (unfinished past ++ bytes), splitFeeds, hsplit] at hrest
  exact List.length_reverse ▸ length_le_of_splitFeedsFrom hrest

theorem withinLimit_of_forall {ls : List (List UInt8)} (h : ∀ l ∈ ls, l.length ≤ lineLimit) :
    withinLimit ls = (ls, false) := by
  induction ls with
  | nil => rfl
  | cons l rest ih =>
    obtain ⟨hl, hrest⟩ := List.forall_mem_cons.mp h
    rw [withinLimit, if_neg (Nat.not_lt.mpr hl), ih hrest]

theorem forall_of_withinLimit {ls : List (List UInt8)} (h : (withinLimit ls).2 = false) :
    ∀ l ∈ ls, l.length ≤ lineLimit := by
  induction ls with
  | nil => nofun
  | cons l rest ih =>
    rw [withinLimit] at h
    split at h
    · cases h
    · rename_i hl
      exact List.forall_mem_cons.mpr ⟨Nat.not_lt.mp hl, ih h⟩

namespace LineBuffer
variable {past bytes : List UInt8}

/-- A piece finishes the lines that the stream has from then on. -/
theorem take_of_fits (past : List UInt8) (fits : Fits (unfinished past ++ bytes)) :
    (⟨unfinished past⟩ : LineBuffer).take bytes false =
      (finished (unfinished past ++ bytes), ⟨unfinished (past ++ bytes)⟩, none) := by
  obtain ⟨hdone, hrest⟩ := List.forall_mem_append.mp fits
  have hrest : (unfinished (unfinished past ++ bytes)).length ≤ lineLimit :=
    hrest _ (List.mem_singleton_self _)
  have hwithin := withinLimit_of_forall hdone
  rw [unfinished_append]
  unfold finished unfinished at hwithin hrest ⊢
  simp only [take, hwithin, Nat.not_lt.mpr hrest, if_false, Bool.false_and, Bool.false_eq_true]

/-- A line that is too long is a fault as soon as it is. -/
theorem take_fault (past : List UInt8) (long : ¬ Fits (unfinished past ++ bytes)) :
    ∃ f, ((⟨unfinished past⟩ : LineBuffer).take bytes false).2.2 = some f := by
  unfold Fits finished unfinished at long
  unfold unfinished
  rw [take]
  dsimp only
  split
  · exact ⟨_, rfl⟩
  · rename_i ls hwithin
    split
    · exact ⟨_, rfl⟩
    · rename_i hrest
      refine absurd (List.forall_mem_append.mpr ⟨forall_of_withinLimit ?_, ?_⟩) long
      · rw [hwithin]
      · exact List.forall_mem_singleton.mpr (Nat.not_lt.mp hrest)

/-- At the end of a stream what is left of it becomes a line. -/
theorem take_end (fits : Fits past) :
    (⟨unfinished past⟩ : LineBuffer).take [] true = (lastLine past, ⟨[]⟩, none) := by
  have hrest : (unfinished past).length ≤ lineLimit :=
    fits _ (List.mem_append_right _ (List.mem_singleton_self _))
  have hnothing : withinLimit [] = ([], false) := rfl
  simp only [take, List.append_nil, splitFeeds_unfinished, hnothing, Nat.not_lt.mpr hrest, if_false,
    Bool.true_and, lastLine]
  cases h : unfinished past with
  | nil => rfl
  | cons b rest => rfl

end LineBuffer

/-! ### Times and diagnostics -/

theorem progressMicroseconds?_eq (line : List UInt8) : progressMicroseconds? line =
    if progressMark.isPrefixOf (trim isBlank (decodeFrom .start line)) then
      (Number.integer? digitValue? (trim isSpace ((trim isBlank (decodeFrom .start line)).drop
        progressMark.length))).bind fun (n, ds) =>
          if ds.length > Number.longestInteger then none else some (Number.signed n ds)
    else none := by
  rw [progressMicroseconds?, Number.measuredInteger?, String.toList_ofList]

/-- Every time that lines report is a number. -/
def Timed (r : Rounding) (ls : List (List UInt8)) : Prop :=
  ∀ l ∈ ls, ∀ n, progressMicroseconds? l = some n → ∃ x, seconds r n = .ok x

/-- The times that lines report. -/
def timesOf (r : Rounding) (ls : List (List UInt8)) : List Number :=
  ls.filterMap fun l => (progressMicroseconds? l).bind fun n => (seconds r n).toOption

variable {r : Rounding}

theorem timesOf_append (r : Rounding) (a b : List (List UInt8)) :
    timesOf r (a ++ b) = timesOf r a ++ timesOf r b := List.filterMap_append

theorem timed_append {a b : List (List UInt8)} : Timed r (a ++ b) ↔ Timed r a ∧ Timed r b :=
  List.forall_mem_append

theorem not_timed {ls : List (List UInt8)} {l : List UInt8} {n : Int} {f : ReadFault} (hl : l ∈ ls)
    (reports : progressMicroseconds? l = some n) (h : seconds r n = .error f) : ¬ Timed r ls := by
  intro timed
  obtain ⟨x, hx⟩ := timed l hl n reports
  cases h.symm.trans hx

theorem reportedTimes_of_timed {ls : List (List UInt8)} (h : Timed r ls) :
    reportedTimes r ls = (timesOf r ls, none) := by
  induction ls with
  | nil => rfl
  | cons l rest ih =>
    obtain ⟨hl, hrest⟩ := List.forall_mem_cons.mp h
    rw [reportedTimes, timesOf, List.filterMap_cons]
    cases hn : progressMicroseconds? l with
    | none => exact ih hrest
    | some n =>
      obtain ⟨x, hx⟩ := hl n hn
      simp only [hx, Option.bind_some, ih hrest]
      rfl

theorem reportedTimes_fault {ls : List (List UInt8)} (h : ¬ Timed r ls) :
    ∃ f, (reportedTimes r ls).2 = some f := by
  induction ls with
  | nil => exact absurd (List.forall_mem_nil _) h
  | cons l rest ih =>
    have hrest (hl : ∀ n, progressMicroseconds? l = some n → ∃ x, seconds r n = .ok x) :
        ∃ f, (reportedTimes r rest).2 = some f :=
      ih fun hrest => h (List.forall_mem_cons.mpr ⟨hl, hrest⟩)
    cases hn : progressMicroseconds? l with
    | none =>
      simp only [reportedTimes, hn]
      exact hrest fun n hn' => nomatch hn.symm.trans hn'
    | some n =>
      simp only [reportedTimes, hn]
      cases hx : seconds r n with
      | error f => exact ⟨f, rfl⟩
      | ok x =>
        refine hrest fun n' hn' => ?_
        cases hn.symm.trans hn'
        exact ⟨x, hx⟩

theorem timed_iff {ls : List (List UInt8)} : Timed r ls ↔ (reportedTimes r ls).2 = none := by
  refine ⟨fun h => by rw [reportedTimes_of_timed h], fun h => ?_⟩
  by_contra part
  obtain ⟨f, hf⟩ := reportedTimes_fault part
  cases h.symm.trans hf

instance (ls : List (List UInt8)) : Decidable (Timed r ls) := decidable_of_iff _ timed_iff.symm

/-- What lines of diagnostics say, without those that say nothing. -/
def said (ls : List (List UInt8)) : List String := (ls.map diagnostic).filter fun s => !s.isEmpty

theorem said_append (a b : List (List UInt8)) : said (a ++ b) = said a ++ said b := by
  simp [said]

theorem foldl_take (n : Nat) (before : List String) (ls : List (List UInt8)) :
    ls.foldl Tail.take ⟨n, lastN n before⟩ = ⟨n, lastN n (before ++ said ls)⟩ := by
  induction ls generalizing before with
  | nil => simp [said]
  | cons l rest ih =>
    rw [List.foldl_cons, Tail.take, said, List.map_cons, List.filter_cons]
    cases hempty : (diagnostic l).isEmpty with
    | true => exact ih before
    | false =>
      simp only [Bool.false_eq_true, if_false, Tail.push, lastN_lastN_append, Bool.not_false, if_true]
      rw [ih, List.append_assoc]
      rfl

/-! ### Watching -/

/-- What a process has written can be read so far. -/
structure Legible (r : Rounding) (listening : Bool) (output errors : List UInt8) : Prop where
  outputFits : Fits output
  errorsFits : Fits errors
  times : listening = true → Timed r (finished output)

/-- What a process has written can be read to its end. -/
structure Readable (r : Rounding) (listening : Bool) (output errors : List UInt8) : Prop where
  outputFits : Fits output
  errorsFits : Fits errors
  times : listening = true → Timed r (linesOf output)

instance (listening : Bool) (output errors : List UInt8) :
    Decidable (Legible r listening output errors) :=
  decidable_of_iff
    (Fits output ∧ Fits errors ∧ (listening = true → Timed r (finished output)))
    ⟨fun ⟨ho, he, ht⟩ => ⟨ho, he, ht⟩, fun ⟨ho, he, ht⟩ => ⟨ho, he, ht⟩⟩

instance (listening : Bool) (output errors : List UInt8) :
    Decidable (Readable r listening output errors) :=
  decidable_of_iff (Fits output ∧ Fits errors ∧ (listening = true → Timed r (linesOf output)))
    ⟨fun ⟨ho, he, ht⟩ => ⟨ho, he, ht⟩, fun ⟨ho, he, ht⟩ => ⟨ho, he, ht⟩⟩

/-- The watch after so many bytes of both streams. -/
def Watch.after (size : Nat) (output errors : List UInt8) : Watch :=
  ⟨⟨unfinished output⟩, ⟨unfinished errors⟩, ⟨size, lastN size (said (finished errors))⟩⟩

/-- What is kept of the diagnostics of a process that has ended. -/
def diagnosticsOf (size : Nat) (errors : List UInt8) : String :=
  "\n".intercalate (lastN size (said (linesOf errors)))

variable {listening : Bool} {size : Nat} {output errors : List UInt8}

theorem Readable.legible (h : Readable r listening output errors) :
    Legible r listening output errors :=
  ⟨h.outputFits, h.errorsFits, fun hears => (timed_append.mp (h.times hears)).1⟩

theorem legible_nil (r : Rounding) (listening : Bool) : Legible r listening [] [] :=
  ⟨by decide, by decide, fun _ => List.forall_mem_nil _⟩

/-- What comes of legible bytes and one more piece. -/
theorem legible_append_iff (h : Legible r listening output errors) (o e : List UInt8) :
    Legible r listening (output ++ o) (errors ++ e) ↔ Fits (unfinished output ++ o) ∧
      Fits (unfinished errors ++ e) ∧
      (listening = true → Timed r (finished (unfinished output ++ o))) := by
  have htimes (hears : listening = true) : Timed r (finished (output ++ o)) ↔
      Timed r (finished (unfinished output ++ o)) := by
    rw [finished_append, timed_append]
    exact and_iff_right (h.times hears)
  rw [← fits_append_iff h.outputFits, ← fits_append_iff h.errorsFits]
  exact ⟨fun ⟨ho, he, ht⟩ => ⟨ho, he, fun hears => (htimes hears).mp (ht hears)⟩,
    fun ⟨ho, he, ht⟩ => ⟨ho, he, fun hears => (htimes hears).mpr (ht hears)⟩⟩

/-- What can be read to some point can be read to every point before. -/
theorem Legible.of_append {o e : List UInt8}
    (h : Legible r listening (output ++ o) (errors ++ e)) : Legible r listening output errors :=
  ⟨h.outputFits.of_append, h.errorsFits.of_append, fun hears =>
    (timed_append.mp (finished_append output o ▸ h.times hears)).1⟩

namespace Watch

theorem begin_of_nonneg {e : Engine} (h : 0 ≤ e.diagnosticLines) :
    Watch.begin e = .ok (after e.diagnosticLines.toNat [] []) := by
  rw [Watch.begin, if_neg (Int.not_lt.mpr h), after, said, lastN]
  simp [finished, unfinished, splitFeeds, splitFeedsFrom]

theorem begin_of_neg {e : Engine} (h : e.diagnosticLines < 0) :
    Watch.begin e = .error .negativeTail := if_pos h

/-- A piece that can be read is added to what was read before. -/
theorem take_of_legible (h : Legible r listening output errors) {o e : List UInt8}
    (ahead : Legible r listening (output ++ o) (errors ++ e)) :
    (after size output errors).take r listening ⟨o, e, false⟩ =
      { watch := after size (output ++ o) (errors ++ e)
        times := if listening then timesOf r (finished (unfinished output ++ o)) else []
        errorFault := none
        outputFault := none } := by
  obtain ⟨houtput, herrors, htimes⟩ := (legible_append_iff h o e).mp ahead
  simp only [after, take, LineBuffer.take_of_fits output houtput,
    LineBuffer.take_of_fits errors herrors, foldl_take, finished_append errors e, said_append]
  cases listening with
  | false => rfl
  | true =>
    rw [reportedTimes_of_timed (htimes rfl)]
    rfl

/-- A piece that cannot be read is a fault. -/
theorem take_fault (size : Nat) (h : Legible r listening output errors) {o e : List UInt8}
    (ahead : ¬ Legible r listening (output ++ o) (errors ++ e)) :
    ∃ f, ((after size output errors).take r listening ⟨o, e, false⟩).fault? = some f := by
  rw [legible_append_iff h] at ahead
  simp only [after, take, Reading.fault?]
  by_cases herrors : Fits (unfinished errors ++ e)
  · by_cases houtput : Fits (unfinished output ++ o)
    · obtain ⟨hears, htimes⟩ := Classical.not_imp.mp fun htimes => ahead ⟨houtput, herrors, htimes⟩
      obtain ⟨f, hf⟩ := reportedTimes_fault htimes
      subst hears
      refine ⟨f, ?_⟩
      simp [LineBuffer.take_of_fits errors herrors, LineBuffer.take_of_fits output houtput, hf]
    · obtain ⟨f, hf⟩ := LineBuffer.take_fault output houtput
      simp [LineBuffer.take_of_fits errors herrors, hf, Option.or_some]
  · obtain ⟨f, hf⟩ := LineBuffer.take_fault errors herrors
    exact ⟨f, by simp [hf]⟩

/-- Nothing is read of a line that reports what is no number. -/
theorem take_of_error (tail : Tail) {bytes line : List UInt8} {n : Int} {f : ReadFault}
    (splits : (⟨[]⟩ : LineBuffer).take bytes false = ([line], ⟨[]⟩, none))
    (reports : progressMicroseconds? line = some n) (h : seconds r n = .error f) :
    ((⟨⟨[]⟩, ⟨[]⟩, tail⟩ : Watch).take r true ⟨bytes, [], false⟩).times = [] ∧
      ((⟨⟨[]⟩, ⟨[]⟩, tail⟩ : Watch).take r true ⟨bytes, [], false⟩).fault? = some f := by
  have hnothing : (⟨[]⟩ : LineBuffer).take [] false = ([], ⟨[]⟩, none) := by decide
  simp only [take, splits, hnothing, if_true, reportedTimes, reports, h, Reading.fault?, true_and]
  rfl

/-- Nothing is left to be read. -/
def atEnd (size : Nat) (errors : List UInt8) : Watch :=
  ⟨⟨[]⟩, ⟨[]⟩, ⟨size, lastN size (said (linesOf errors))⟩⟩

/-- With the streams their last lines end. -/
theorem take_end (size : Nat) (h : Legible r listening output errors)
    (whole : listening = true → Timed r (lastLine output)) :
    (after size output errors).take r listening ⟨[], [], true⟩ =
      { watch := atEnd size errors
        times := if listening then timesOf r (lastLine output) else []
        errorFault := none
        outputFault := none } := by
  simp only [after, take, LineBuffer.take_end h.outputFits, LineBuffer.take_end h.errorsFits,
    foldl_take, ← said_append]
  cases listening with
  | false => rfl
  | true =>
    rw [reportedTimes_of_timed (whole rfl)]
    rfl

theorem take_end_fault (size : Nat) (h : Legible r true output errors)
    (part : ¬ Timed r (lastLine output)) :
    ∃ f, ((after size output errors).take r true ⟨[], [], true⟩).fault? = some f := by
  obtain ⟨f, hf⟩ := reportedTimes_fault part
  refine ⟨f, ?_⟩
  simp [after, take, LineBuffer.take_end h.outputFits, LineBuffer.take_end h.errorsFits, hf,
    Reading.fault?]

/-- Reads pieces of both streams one after the other and then their end, up to the first fault. -/
def takeAll (w : Watch) (r : Rounding) (listening : Bool) :
    List (List UInt8 × List UInt8) → Except ReadFault Watch
  | [] =>
    let reading := w.take r listening ⟨[], [], true⟩
    match reading.fault? with
    | some f => .error f
    | none => .ok reading.watch
  | (output, errors) :: rest =>
    let reading := w.take r listening ⟨output, errors, false⟩
    match reading.fault? with
    | some f => .error f
    | none => reading.watch.takeAll r listening rest

/-- **Pieces add up.** -/
theorem takeAll_eq_ok_iff (size : Nat) (pieces : List (List UInt8 × List UInt8)) (w : Watch)
    (h : Legible r listening output errors) :
    (after size output errors).takeAll r listening pieces = .ok w ↔
      Readable r listening (output ++ pieces.flatMap Prod.fst)
        (errors ++ pieces.flatMap Prod.snd) ∧
      w = atEnd size (errors ++ pieces.flatMap Prod.snd) := by
  induction pieces generalizing output errors with
  | nil =>
    rw [List.flatMap_nil, List.flatMap_nil, List.append_nil, List.append_nil, takeAll]
    by_cases whole : listening = true → Timed r (lastLine output)
    · have hreadable : Readable r listening output errors :=
        ⟨h.outputFits, h.errorsFits, fun hears => timed_append.mpr ⟨h.times hears, whole hears⟩⟩
      simp only [take_end size h whole, Reading.fault?, Option.or_none, Except.ok.injEq,
        hreadable, true_and]
      exact eq_comm
    · obtain ⟨rfl, part⟩ := Classical.not_imp.mp whole
      obtain ⟨f, hf⟩ := take_end_fault size h part
      simp only [hf]
      exact ⟨nofun, fun ⟨hreadable, _⟩ => absurd (timed_append.mp (hreadable.times rfl)).2 part⟩
  | cons piece rest ih =>
    obtain ⟨o, e⟩ := piece
    rw [takeAll, List.flatMap_cons, List.flatMap_cons, ← List.append_assoc, ← List.append_assoc]
    by_cases ahead : Legible r listening (output ++ o) (errors ++ e)
    · simp only [take_of_legible h ahead, Reading.fault?, Option.or_none]
      exact ih ahead
    · obtain ⟨f, hf⟩ := take_fault size h ahead
      simp only [hf]
      exact ⟨nofun, fun ⟨hreadable, _⟩ => absurd hreadable.legible.of_append ahead⟩

end Watch

/-- What a process comes to that writes pieces of both streams and exits. -/
def outcome (e : Engine) (r : Rounding) (listening : Bool)
    (pieces : List (List UInt8 × List UInt8)) (code : Int) : Except ReadFault Result := do
  let w ← Watch.begin e
  let w ← w.takeAll r listening pieces
  .ok (w.result code)

/-- **A process that is watched to its end has a result if and only if it can be read**, with its own
exit code and the last lines of its diagnostics. -/
theorem outcome_eq_ok_iff {e : Engine} {pieces : List (List UInt8 × List UInt8)} {code : Int}
    {result : Result} :
    e.outcome r listening pieces code = .ok result ↔ 0 ≤ e.diagnosticLines ∧
      Readable r listening (pieces.flatMap Prod.fst) (pieces.flatMap Prod.snd) ∧
      result = ⟨code, diagnosticsOf e.diagnosticLines.toNat (pieces.flatMap Prod.snd)⟩ := by
  rw [outcome]
  rcases Decidable.em (e.diagnosticLines < 0) with hnone | hlines
  · rw [Watch.begin_of_neg hnone]
    exact ⟨nofun, fun ⟨hlines, _⟩ => absurd hnone (Int.not_lt.mpr hlines)⟩
  · have hlines : 0 ≤ e.diagnosticLines := Int.not_lt.mp hlines
    have hall (w : Watch) := Watch.takeAll_eq_ok_iff e.diagnosticLines.toNat pieces w
      (legible_nil r listening)
    simp only [List.nil_append] at hall
    rw [Watch.begin_of_nonneg hlines, and_iff_right hlines]
    change ((Watch.takeAll _ r listening pieces).bind fun w => Except.ok (w.result code)) = _ ↔ _
    constructor
    · intro h
      obtain ⟨w', hw', hresult⟩ := bind_eq_ok_iff.mp h
      obtain ⟨hreadable, rfl⟩ := (hall w').mp hw'
      exact ⟨hreadable, (Except.ok.inj hresult).symm⟩
    · rintro ⟨hreadable, rfl⟩
      rw [(hall _).mpr ⟨hreadable, rfl⟩]
      rfl

end Engine
end Montage
