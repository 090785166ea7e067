import Montage.Plan.Label
import Montage.Proofs.Checks
import Mathlib.Data.List.Nodup

/-! # Sound sequences of label events

The check of a plan's labels walks through its events and keeps the labels written and read so
far.  What it is meant to find out can be said without such a state (`SoundEvents`): **streams**
are those of input files that exist and are never written, and every other label is **written
once, read once, and written before it is read**.

`runLabels_eq_ok_iff` says when the walk goes on to the end of a sequence from any state, and
what it has then kept; `Plan.checkLabels_eq_ok_iff` that the check accepts exactly the plans with
sound events.  A sequence put together from parts is sound if its parts are in order
(`OrderedAfter.append`) and it reads as a permutation of what it writes (`SoundEvents.of_perm`).

Labels may be renamed one to one: the check of the renamed plan has the renamed outcome
(`Plan.checkLabels_map`).
-/
namespace Montage

namespace LabelEvent
variable {ℓ : Type}

/-- The label that an event writes. -/
def written? : LabelEvent ℓ → Option ℓ
  | write _ l => some l
  | read .. => none

/-- The label that an event takes from a chain; streams of input files are not taken. -/
def consumed? (stream : ℓ → Option Nat) : LabelEvent ℓ → Option ℓ
  | read _ l => if (stream l).isSome then none else some l
  | write .. => none

/-- The labels written in the course of some events, in order. -/
def written (es : List (LabelEvent ℓ)) : List ℓ := es.filterMap written?

/-- The labels taken in the course of some events, in order. -/
def consumed (stream : ℓ → Option Nat) (es : List (LabelEvent ℓ)) : List ℓ :=
  es.filterMap (consumed? stream)

variable {stream : ℓ → Option Nat}

@[simp] theorem written_nil : written ([] : List (LabelEvent ℓ)) = [] := rfl

@[simp] theorem consumed_nil : consumed stream ([] : List (LabelEvent ℓ)) = [] := rfl

@[simp] theorem written_read (stage : String) (l : ℓ) (es : List (LabelEvent ℓ)) :
    written (read stage l :: es) = written es := rfl

@[simp] theorem written_write (stage : String) (l : ℓ) (es : List (LabelEvent ℓ)) :
    written (write stage l :: es) = l :: written es := rfl

@[simp] theorem consumed_write (stage : String) (l : ℓ) (es : List (LabelEvent ℓ)) :
    consumed stream (write stage l :: es) = consumed stream es := rfl

theorem consumed_read_of_stream {stage : String} {l : ℓ} {i : Nat} (h : stream l = some i)
    (es : List (LabelEvent ℓ)) : consumed stream (read stage l :: es) = consumed stream es := by
  simp [consumed, consumed?, h]

theorem consumed_read_of_none {stage : String} {l : ℓ} (h : stream l = none)
    (es : List (LabelEvent ℓ)) :
    consumed stream (read stage l :: es) = l :: consumed stream es := by
  simp [consumed, consumed?, h]

@[simp] theorem written_append (es es' : List (LabelEvent ℓ)) :
    written (es ++ es') = written es ++ written es' := List.filterMap_append ..

@[simp] theorem consumed_append (es es' : List (LabelEvent ℓ)) :
    consumed stream (es ++ es') = consumed stream es ++ consumed stream es' :=
  List.filterMap_append ..

theorem written_flatMap {α : Type} (f : α → List (LabelEvent ℓ)) (xs : List α) :
    written (xs.flatMap f) = xs.flatMap fun x => written (f x) := List.filterMap_flatMap ..

theorem consumed_flatMap {α : Type} (f : α → List (LabelEvent ℓ)) (xs : List α) :
    consumed stream (xs.flatMap f) = xs.flatMap fun x => consumed stream (f x) :=
  List.filterMap_flatMap ..

theorem mem_consumed {es : List (LabelEvent ℓ)} {l : ℓ} :
    l ∈ consumed stream es ↔ stream l = none ∧ ∃ stage, read stage l ∈ es := by
  constructor
  · intro h
    obtain ⟨e, he, hc⟩ := List.mem_filterMap.mp h
    cases e with
    | write stage k => cases hc
    | read stage k =>
      cases hs : stream k with
      | some i => simp [consumed?, hs] at hc
      | none =>
        obtain rfl : k = l := by simpa [consumed?, hs] using hc
        exact ⟨hs, stage, he⟩
  · rintro ⟨hs, stage, h⟩
    exact List.mem_filterMap.mpr ⟨_, h, by simp [consumed?, hs]⟩

end LabelEvent

open LabelEvent

section Order
variable {ℓ : Type} {stream : ℓ → Option Nat}

/-- Every label of a chain that is read was written, by an earlier event or `before` them all. -/
def OrderedAfter (stream : ℓ → Option Nat) (before : List ℓ) (es : List (LabelEvent ℓ)) : Prop :=
  ∀ pre stage l post, es = pre ++ read stage l :: post → stream l = none →
    l ∈ before ∨ l ∈ written pre

theorem OrderedAfter.nil {before : List ℓ} : OrderedAfter stream before [] := by
  intro pre stage l post h
  simp at h

theorem OrderedAfter.mono {before before' : List ℓ} {es : List (LabelEvent ℓ)}
    (h : OrderedAfter stream before es) (hsub : ∀ l ∈ before, l ∈ before') :
    OrderedAfter stream before' es :=
  fun pre stage l post he hl => (h pre stage l post he hl).imp_left (hsub l)

theorem orderedAfter_write {before : List ℓ} {stage : String} {l : ℓ} {es : List (LabelEvent ℓ)} :
    OrderedAfter stream before (write stage l :: es) ↔ OrderedAfter stream (l :: before) es := by
  constructor
  · intro h pre st k post he hk
    have := h (write stage l :: pre) st k post (by rw [he]; rfl) hk
    simp only [written_write, List.mem_cons] at this ⊢
    tauto
  · intro h pre st k post he hk
    cases pre with
    | nil => cases he
    | cons e pre =>
      obtain ⟨rfl, hes⟩ := List.cons.inj he
      have := h pre st k post hes hk
      simp only [written_write, List.mem_cons] at this ⊢
      tauto

theorem orderedAfter_read {before : List ℓ} {stage : String} {l : ℓ} {es : List (LabelEvent ℓ)} :
    OrderedAfter stream before (read stage l :: es) ↔
      (stream l = none → l ∈ before) ∧ OrderedAfter stream before es := by
  constructor
  · intro h
    refine ⟨fun hl => ?_, fun pre st k post he hk => ?_⟩
    · exact (h [] stage l es rfl hl).resolve_right List.not_mem_nil
    · exact h (read stage l :: pre) st k post (by rw [he]; rfl) hk
  · rintro ⟨hl, h⟩ pre st k post he hk
    cases pre with
    | nil => cases he; exact Or.inl (hl hk)
    | cons e pre =>
      obtain ⟨rfl, hes⟩ := List.cons.inj he
      exact h pre st k post hes hk

/-- Where all that is read was there before, the order of the events does not matter. -/
theorem OrderedAfter.of_consumed {before : List ℓ} {es : List (LabelEvent ℓ)}
    (h : ∀ l ∈ consumed stream es, l ∈ before) : OrderedAfter stream before es := by
  rintro pre stage l post rfl hl
  refine Or.inl (h l (mem_consumed.mpr ⟨hl, stage, ?_⟩))
  exact List.mem_append_right _ (List.mem_cons_self ..)

/-- Parts in order make a sequence in order: the later part may read what the earlier wrote. -/
theorem OrderedAfter.append {before : List ℓ} {es es' : List (LabelEvent ℓ)}
    (h : OrderedAfter stream before es) (h' : OrderedAfter stream (before ++ written es) es') :
    OrderedAfter stream before (es ++ es') := by
  induction es generalizing before with
  | nil => simpa using h'
  | cons e es ih =>
    cases e with
    | read stage l =>
      rw [List.cons_append, orderedAfter_read] at *
      exact ⟨h.1, ih h.2 h'⟩
    | write stage l =>
      rw [List.cons_append, orderedAfter_write] at *
      refine ih h (h'.mono fun k hk => ?_)
      simp only [written_write, List.mem_append, List.mem_cons] at hk ⊢
      tauto

/-- Parts that need nothing from each other may follow in any number. -/
theorem OrderedAfter.flatMap {α : Type} {before : List ℓ} {f : α → List (LabelEvent ℓ)}
    {xs : List α} (h : ∀ x ∈ xs, OrderedAfter stream before (f x)) :
    OrderedAfter stream before (xs.flatMap f) := by
  induction xs with
  | nil => exact OrderedAfter.nil
  | cons x xs ih =>
    rw [List.flatMap_cons]
    refine (h x (List.mem_cons_self ..)).append (OrderedAfter.mono (ih fun y hy => ?_) ?_)
    · exact h y (List.mem_cons_of_mem _ hy)
    · exact fun l hl => List.mem_append_left _ hl

/-! ### Events of chains and stages -/

section Chains
variable {φ : Type} {stage : String} {c : Chain ℓ φ} {before : List ℓ}

@[simp] theorem written_chainEvents : written (Stage.chainEvents stage c) = [c.output] := by
  have hreads : ∀ ls : List ℓ, written (ls.map (read stage)) = [] := by
    intro ls
    induction ls with
    | nil => rfl
    | cons l ls ih => exact ih
  rw [Stage.chainEvents, written_append, hreads]
  rfl

theorem consumed_reads (ls : List ℓ) :
    consumed stream (ls.map (read stage)) = ls.filter fun l => (stream l).isNone := by
  induction ls with
  | nil => rfl
  | cons l ls ih =>
    cases hl : stream l with
    | some i => simp [consumed_read_of_stream hl, ih, hl]
    | none => simp [consumed_read_of_none hl, ih, hl]

@[simp] theorem consumed_chainEvents :
    consumed stream (Stage.chainEvents stage c) = c.inputs.filter fun l => (stream l).isNone := by
  rw [Stage.chainEvents, consumed_append, consumed_reads]
  exact List.append_nil _

theorem orderedAfter_reads {ls : List ℓ} (h : ∀ l ∈ ls, stream l = none → l ∈ before) :
    OrderedAfter stream before (ls.map (read stage)) := by
  refine OrderedAfter.of_consumed fun l hl => ?_
  rw [consumed_reads] at hl
  obtain ⟨hin, hnone⟩ := List.mem_filter.mp hl
  exact h l hin (Option.isNone_iff_eq_none.mp hnone)

theorem orderedAfter_chainEvents (h : ∀ l ∈ c.inputs, stream l = none → l ∈ before) :
    OrderedAfter stream before (Stage.chainEvents stage c) :=
  (orderedAfter_reads h).append (orderedAfter_write.mpr OrderedAfter.nil)

end Chains

/-- A label is read by a chain, or goes into the output. -/
theorem read_mem_events {φ : Type} {p : Plan ℓ φ} {stage : String} {l : ℓ}
    (h : read stage l ∈ p.events) :
    ∃ st ∈ p.stages, l ∈ st.maps ∨ ∃ ch ∈ st.chains, l ∈ ch.inputs := by
  obtain ⟨st, hst, h⟩ := List.mem_flatMap.mp h
  refine ⟨st, hst, ?_⟩
  unfold Stage.events at h
  split at h
  · obtain ⟨l', hl', he⟩ := List.mem_map.mp h
    cases he
    exact Or.inl hl'
  · obtain ⟨ch, hch, h⟩ := List.mem_flatMap.mp h
    refine Or.inr ⟨ch, hch, ?_⟩
    rcases List.mem_append.mp h with h | h
    · obtain ⟨l', hl', he⟩ := List.mem_map.mp h
      cases he
      exact hl'
    · cases List.mem_singleton.mp h

end Order

section Run
variable {ℓ : Type} {stream : ℓ → Option Nat} {inputs : Nat}

/-- What the check asks of the events that follow a state. -/
structure SoundAfter (stream : ℓ → Option Nat) (inputs : Nat) (s : LabelState ℓ)
    (es : List (LabelEvent ℓ)) : Prop where
  /-- Only streams of input files that exist are read. -/
  present : ∀ stage l i, read stage l ∈ es → stream l = some i → i < inputs
  ordered : OrderedAfter stream s.written es
  consumedOnce : (consumed stream es).Nodup
  notConsumed : ∀ l ∈ consumed stream es, l ∉ s.consumed
  writtenOnce : (written es).Nodup
  notWritten : ∀ l ∈ written es, l ∉ s.written
  /-- No stream of an input file is written. -/
  inner : ∀ l ∈ written es, stream l = none

theorem SoundAfter.nil (s : LabelState ℓ) : SoundAfter stream inputs s [] where
  present := fun _ _ _ h => absurd h List.not_mem_nil
  ordered := OrderedAfter.nil
  consumedOnce := List.nodup_nil
  notConsumed := fun _ h => absurd h List.not_mem_nil
  writtenOnce := List.nodup_nil
  notWritten := fun _ h => absurd h List.not_mem_nil
  inner := fun _ h => absurd h List.not_mem_nil

/-- A read asks for a file if its label is a stream. -/
theorem present_read {stage : String} {l : ℓ} {es : List (LabelEvent ℓ)} :
    (∀ st k i, read st k ∈ read stage l :: es → stream k = some i → i < inputs) ↔
      (∀ i, stream l = some i → i < inputs) ∧
        ∀ st k i, read st k ∈ es → stream k = some i → i < inputs := by
  constructor
  · intro h
    refine ⟨fun i hl => h stage l i (List.mem_cons_self ..) hl, ?_⟩
    exact fun st k i hk => h st k i (List.mem_cons_of_mem _ hk)
  · rintro ⟨hl, h⟩ st k i hk hi
    rcases List.mem_cons.mp hk with he | hk
    · cases he
      exact hl i hi
    · exact h st k i hk hi

theorem soundAfter_read_stream {s : LabelState ℓ} {stage : String} {l : ℓ} {i : Nat}
    {es : List (LabelEvent ℓ)} (hl : stream l = some i) :
    SoundAfter stream inputs s (read stage l :: es) ↔
      i < inputs ∧ SoundAfter stream inputs s es := by
  have hc : consumed stream (read stage l :: es) = consumed stream es :=
    consumed_read_of_stream hl es
  constructor
  · intro h
    obtain ⟨hi, hpresent⟩ := present_read.mp h.present
    exact ⟨hi i hl,
      { present := hpresent
        ordered := (orderedAfter_read.mp h.ordered).2
        consumedOnce := hc ▸ h.consumedOnce
        notConsumed := hc ▸ h.notConsumed
        writtenOnce := h.writtenOnce
        notWritten := h.notWritten
        inner := h.inner }⟩
  · rintro ⟨hi, h⟩
    have hstream : ∀ j, stream l = some j → j < inputs := fun j hj => by
      obtain rfl : i = j := Option.some.inj (hl.symm.trans hj)
      exact hi
    exact
      { present := present_read.mpr ⟨hstream, h.present⟩
        ordered := orderedAfter_read.mpr ⟨fun hn => (nomatch hl.symm.trans hn), h.ordered⟩
        consumedOnce := hc ▸ h.consumedOnce
        notConsumed := hc ▸ h.notConsumed
        writtenOnce := h.writtenOnce
        notWritten := h.notWritten
        inner := h.inner }

/-- The state takes over what the events no longer say: a label that is read now may not be read
by those that follow. -/
theorem soundAfter_read_inner {s : LabelState ℓ} {stage : String} {l : ℓ}
    {es : List (LabelEvent ℓ)} (hl : stream l = none) :
    SoundAfter stream inputs s (read stage l :: es) ↔
      l ∈ s.written ∧ l ∉ s.consumed ∧
        SoundAfter stream inputs { s with consumed := l :: s.consumed } es := by
  have hc : consumed stream (read stage l :: es) = l :: consumed stream es :=
    consumed_read_of_none hl es
  constructor
  · intro h
    obtain ⟨hwritten, hordered⟩ := orderedAfter_read.mp h.ordered
    obtain ⟨hlater, honce⟩ := List.nodup_cons.mp (hc ▸ h.consumedOnce)
    obtain ⟨hnew, hrest⟩ := List.forall_mem_cons.mp (hc ▸ h.notConsumed)
    exact ⟨hwritten hl, hnew,
      { present := (present_read.mp h.present).2
        ordered := hordered
        consumedOnce := honce
        notConsumed := List.disjoint_cons_right.mpr ⟨hlater, hrest⟩
        writtenOnce := h.writtenOnce
        notWritten := h.notWritten
        inner := h.inner }⟩
  · rintro ⟨hwritten, hnew, h⟩
    obtain ⟨hlater, hrest⟩ := List.disjoint_cons_right.mp h.notConsumed
    exact
      { present := present_read.mpr ⟨fun i hi => (nomatch hl.symm.trans hi), h.present⟩
        ordered := orderedAfter_read.mpr ⟨fun _ => hwritten, h.ordered⟩
        consumedOnce := hc ▸ List.nodup_cons.mpr ⟨hlater, h.consumedOnce⟩
        notConsumed := hc ▸ List.forall_mem_cons.mpr ⟨hnew, hrest⟩
        writtenOnce := h.writtenOnce
        notWritten := h.notWritten
        inner := h.inner }

theorem soundAfter_write {s : LabelState ℓ} {stage : String} {l : ℓ} {es : List (LabelEvent ℓ)} :
    SoundAfter stream inputs s (write stage l :: es) ↔
      l ∉ s.written ∧ stream l = none ∧
        SoundAfter stream inputs { s with written := l :: s.written } es := by
  constructor
  · intro h
    obtain ⟨hlater, honce⟩ := List.nodup_cons.mp h.writtenOnce
    obtain ⟨hnew, hrest⟩ := List.forall_mem_cons.mp h.notWritten
    obtain ⟨hl, hinner⟩ := List.forall_mem_cons.mp h.inner
    exact ⟨hnew, hl,
      { present := fun st k i hk => h.present st k i (List.mem_cons_of_mem _ hk)
        ordered := orderedAfter_write.mp h.ordered
        consumedOnce := h.consumedOnce
        notConsumed := h.notConsumed
        writtenOnce := honce
        notWritten := List.disjoint_cons_right.mpr ⟨hlater, hrest⟩
        inner := hinner }⟩
  · rintro ⟨hnew, hl, h⟩
    obtain ⟨hlater, hrest⟩ := List.disjoint_cons_right.mp h.notWritten
    exact
      { present := fun st k i hk =>
          h.present st k i ((List.mem_cons.mp hk).resolve_left nofun)
        ordered := orderedAfter_write.mpr h.ordered
        consumedOnce := h.consumedOnce
        notConsumed := h.notConsumed
        writtenOnce := List.nodup_cons.mpr ⟨hlater, h.writtenOnce⟩
        notWritten := List.forall_mem_cons.mpr ⟨hnew, hrest⟩
        inner := List.forall_mem_cons.mpr ⟨hl, h.inner⟩ }

/-- What the check asks of the events of a whole plan: streams are those of input files that
exist, and every other label is written once, read once, and written before it is read. -/
structure SoundEvents (stream : ℓ → Option Nat) (inputs : Nat) (es : List (LabelEvent ℓ)) :
    Prop where
  present : ∀ stage l i, read stage l ∈ es → stream l = some i → i < inputs
  ordered : OrderedAfter stream [] es
  consumedOnce : (consumed stream es).Nodup
  writtenOnce : (written es).Nodup
  inner : ∀ l ∈ written es, stream l = none
  allConsumed : ∀ l ∈ written es, l ∈ consumed stream es

/-- If the labels taken are those written in some order, each of them once, nothing is taken twice
and nothing is left over. -/
theorem SoundEvents.of_perm {es : List (LabelEvent ℓ)}
    (present : ∀ stage l i, read stage l ∈ es → stream l = some i → i < inputs)
    (ordered : OrderedAfter stream [] es) (writtenOnce : (written es).Nodup)
    (inner : ∀ l ∈ written es, stream l = none)
    (perm : (consumed stream es).Perm (written es)) : SoundEvents stream inputs es where
  present := present
  ordered := ordered
  consumedOnce := perm.nodup_iff.mpr writtenOnce
  writtenOnce := writtenOnce
  inner := inner
  allConsumed := fun _ hl => perm.mem_iff.mpr hl

variable [DecidableEq ℓ]

/-- **The walk of the check goes on to the end exactly if the events are sound after its state**;
it has then kept what they wrote and what they took. -/
theorem runLabels_eq_ok_iff {s s' : LabelState ℓ} {es : List (LabelEvent ℓ)} :
    LabelState.run stream inputs s es = .ok s' ↔
      SoundAfter stream inputs s es ∧
        s' = ⟨(written es).reverse ++ s.written, (consumed stream es).reverse ++ s.consumed⟩ := by
  -- one event is split off on both sides: a step of the walk, and a clause of `SoundAfter`
  induction es generalizing s with
  | nil => simp [LabelState.run, SoundAfter.nil, eq_comm]
  | cons e es ih =>
    cases e with
    | read stage l =>
      cases hl : stream l with
      | some i =>
        rw [soundAfter_read_stream hl, consumed_read_of_stream hl]
        by_cases hi : i < inputs
        · simp [LabelState.run, LabelState.step, hl, hi, ih]
        · simp [LabelState.run, LabelState.step, hl, hi]
      | none =>
        rw [soundAfter_read_inner hl, consumed_read_of_none hl]
        by_cases hw : l ∈ s.written <;> by_cases hc : l ∈ s.consumed <;>
          simp [LabelState.run, LabelState.step, hl, hw, hc, ih]
    | write stage l =>
      rw [soundAfter_write]
      by_cases hw : l ∈ s.written
      · simp [LabelState.run, LabelState.step, hw]
      · cases hl : stream l with
        | some i => simp [LabelState.run, LabelState.step, hl]
        | none => simp [LabelState.run, LabelState.step, hl, hw, ih]

/-- **The check accepts exactly the plans with sound events.** -/
theorem Plan.checkLabels_eq_ok_iff {φ : Type} {p : Plan ℓ φ} :
    p.checkLabels stream = .ok () ↔ SoundEvents stream p.inputs.length p.events := by
  constructor
  · intro h
    unfold Plan.checkLabels at h
    split at h
    · cases h
    · rename_i s hrun
      obtain ⟨hs, rfl⟩ := runLabels_eq_ok_iff.mp hrun
      split at h
      · rename_i hleft
        refine ⟨hs.present, hs.ordered, hs.consumedOnce, hs.writtenOnce, hs.inner, fun l hl => ?_⟩
        have := List.filter_eq_nil_iff.mp hleft l (by simpa using hl)
        simpa using this
      · cases h
  · intro h
    have hrun := runLabels_eq_ok_iff (s := ⟨[], []⟩).mpr
      ⟨⟨h.present, h.ordered, h.consumedOnce, fun _ _ => List.not_mem_nil, h.writtenOnce,
        fun _ _ => List.not_mem_nil, h.inner⟩, rfl⟩
    -- the walk ends without a fault, and its final test finds nothing left over
    have hleft : ((written p.events).reverse ++ []).filter
        (fun l => l ∉ (consumed stream p.events).reverse ++ []) = [] := by
      refine List.filter_eq_nil_iff.mpr fun l hl => ?_
      simpa using h.allConsumed l (by simpa using hl)
    simp only [Plan.checkLabels, hrun, hleft]

end Run

/-! ### Other labels -/

section Rename
variable {ℓ ℓ' φ φ' : Type}

def LabelEvent.map (f : ℓ → ℓ') : LabelEvent ℓ → LabelEvent ℓ'
  | read stage l => read stage (f l)
  | write stage l => write stage (f l)

def LabelState.map (f : ℓ → ℓ') (s : LabelState ℓ) : LabelState ℓ' :=
  ⟨s.written.map f, s.consumed.map f⟩

theorem Stage.events_map (f : ℓ → ℓ') (g : φ → φ') (s : Stage ℓ φ) :
    (s.map f g).events = s.events.map (LabelEvent.map f) := by
  by_cases h : s.kind = .encode
  · simp only [Stage.events, Stage.map, h, if_pos, List.map_map]
    rfl
  · simp only [Stage.events, Stage.map, h, if_false, List.flatMap_map, List.map_flatMap]
    refine congrArg (s.chains.flatMap ·) (funext fun c => ?_)
    simp [Stage.chainEvents, Chain.map, LabelEvent.map, Function.comp_def]

theorem Plan.events_map (f : ℓ → ℓ') (g : φ → φ') (p : Plan ℓ φ) :
    (p.map f g).events = p.events.map (LabelEvent.map f) := by
  simp only [Plan.events, Plan.map, List.flatMap_map, List.map_flatMap, Stage.events_map]

variable [DecidableEq ℓ] [DecidableEq ℓ'] {f : ℓ → ℓ'} {stream : ℓ → Option Nat}
  {stream' : ℓ' → Option Nat}

theorem LabelState.step_map (hf : Function.Injective f) (hs : ∀ l, stream' (f l) = stream l)
    (inputs : Nat) (s : LabelState ℓ) (e : LabelEvent ℓ) :
    (s.map f).step stream' inputs (e.map f) =
      ((s.step stream inputs e).map (LabelState.map f)).mapError (LabelFault.map f) := by
  cases e with
  | read stage l =>
    cases hl : stream l with
    | some i =>
      by_cases hi : i < inputs <;>
        simp [LabelState.step, LabelEvent.map, hs, hl, hi, Except.map, LabelFault.map]
    | none =>
      by_cases hw : l ∈ s.written <;> by_cases hc : l ∈ s.consumed <;>
        simp [LabelState.step, LabelEvent.map, LabelState.map, hs, hl, hw, hc,
          List.mem_map_of_injective hf, Except.map, LabelFault.map]
  | write stage l =>
    by_cases h : l ∈ s.written ∨ (stream l).isSome <;>
      simp [LabelState.step, LabelEvent.map, LabelState.map, hs, h,
        List.mem_map_of_injective hf, Except.map, LabelFault.map]

theorem LabelState.run_map (hf : Function.Injective f) (hs : ∀ l, stream' (f l) = stream l)
    (inputs : Nat) (s : LabelState ℓ) (es : List (LabelEvent ℓ)) :
    LabelState.run stream' inputs (s.map f) (es.map (LabelEvent.map f)) =
      ((LabelState.run stream inputs s es).map (LabelState.map f)).mapError (LabelFault.map f) := by
  induction es generalizing s with
  | nil => rfl
  | cons e es ih =>
    simp only [List.map_cons, LabelState.run, LabelState.step_map hf hs]
    cases s.step stream inputs e with
    | error fault => rfl
    | ok s' => exact ih s'

/-- **Labels may be renamed one to one.** -/
theorem Plan.checkLabels_map (hf : Function.Injective f) (hs : ∀ l, stream' (f l) = stream l)
    (g : φ → φ') (p : Plan ℓ φ) :
    (p.map f g).checkLabels stream' = (p.checkLabels stream).mapError (LabelFault.map f) := by
  have hrun := LabelState.run_map hf hs p.inputs.length ⟨[], []⟩ p.events
  simp only [LabelState.map, List.map_nil] at hrun
  unfold Plan.checkLabels
  rw [Plan.events_map, show (p.map f g).inputs = p.inputs from rfl, hrun]
  cases LabelState.run stream p.inputs.length ⟨[], []⟩ p.events with
  | error fault => rfl
  | ok s =>
    have hleft : ((s.map f).written.filter fun l => l ∉ (s.map f).consumed) =
        (s.written.filter fun l => l ∉ s.consumed).map f := by
      simp only [LabelState.map, List.filter_map, Function.comp_def,
        List.mem_map_of_injective hf]
    simp only [Except.map, mapError_ok, hleft]
    cases s.written.filter fun l => l ∉ s.consumed <;> rfl

end Rename

end Montage
