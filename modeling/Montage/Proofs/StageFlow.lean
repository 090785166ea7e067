import Montage.Proofs.LabelOutcome

/-! # Labels between stages

The check of labels goes chain by chain; people see a plan stage by stage, with the labels that each stage
reads from outside and those that it hands on (`Stage.reads`, `Stage.writes`).  For a plan that passes the
check the two views agree: of the labels that its chains take and write, a stage shows those that it does
not both write and take (`mem_reads_iff`, `mem_writes_iff`).  So what is shown is a flow from earlier to
later stages, each label from one stage to one other, and a label that is not shown stays inside of one
stage (`Plan.Flows`).
-/
namespace Montage

open LabelEvent

/-! ### Positions in a list of parts -/

section Parts
variable {α β : Type} {f : α → List β} {xs : List α} {i j : Nat} {a a' : α} {b : β}

/-- What comes once comes in one part. -/
theorem eq_of_nodup_flatMap (h : (xs.flatMap f).Nodup) (ha : xs[i]? = some a) (ha' : xs[j]? = some a')
    (hb : b ∈ f a) (hb' : b ∈ f a') : i = j := by
  have apart (i j : Nat) (a a' : α) (hlt : i < j) (ha : xs[i]? = some a) (ha' : xs[j]? = some a')
      (hb : b ∈ f a) : b ∉ f a' := by
    obtain ⟨hi, rfl⟩ := List.getElem?_eq_some_iff.mp ha
    obtain ⟨hj, rfl⟩ := List.getElem?_eq_some_iff.mp ha'
    exact List.pairwise_iff_getElem.mp (List.nodup_flatMap.mp h).2 i j hi hj hlt hb
  rcases Nat.lt_trichotomy i j with hlt | heq | hlt
  · exact absurd hb' (apart i j a a' hlt ha ha' hb)
  · exact heq
  · exact absurd hb (apart j i a' a hlt ha' ha hb')

theorem exists_getElem?_of_mem_flatMap (h : b ∈ xs.flatMap f) :
    ∃ (i : Nat) (a : α), xs[i]? = some a ∧ b ∈ f a := by
  obtain ⟨a, ha, hb⟩ := List.mem_flatMap.mp h
  obtain ⟨i, hi⟩ := List.getElem?_of_mem ha
  exact ⟨i, a, hi, hb⟩

theorem sublist_flatMap {g : α → List β} (h : ∀ a ∈ xs, (g a).Sublist (f a)) :
    (xs.flatMap g).Sublist (xs.flatMap f) := by
  induction xs with
  | nil => exact List.Sublist.refl []
  | cons a xs ih =>
    rw [List.flatMap_cons, List.flatMap_cons]
    exact (h a List.mem_cons_self).append (ih fun a' ha' => h a' (List.mem_cons_of_mem a ha'))

end Parts

/-! ### One stage -/

namespace Stage
variable {ℓ φ : Type} {stream : ℓ → Option Nat} {s : Stage ℓ φ} {l : ℓ}

/-- The encoder has no chains. -/
def Bare (s : Stage ℓ φ) : Prop := s.kind = .encode → s.chains = []

/-- A label stands in a chain of the stage, or it goes into the output. -/
def Mentions (s : Stage ℓ φ) (l : ℓ) : Prop :=
  (s.kind = .encode ∧ l ∈ s.maps) ∨ ∃ c ∈ s.chains, l ∈ c.inputs ∨ l = c.output

theorem written_events (bare : s.Bare) : written s.events = s.chains.map Chain.output := by
  rw [events]
  split
  · rename_i hkind
    rw [bare hkind, List.map_nil]
    exact List.filterMap_eq_nil_iff.mpr fun e he => by
      obtain ⟨l, -, rfl⟩ := List.mem_map.mp he
      rfl
  · rw [written_flatMap]
    simp [List.map_eq_flatMap]

theorem consumed_events_encode (hkind : s.kind = .encode) :
    consumed stream s.events = s.maps.filter fun l => (stream l).isNone := by
  rw [events, if_pos hkind, consumed_reads]

theorem consumed_events_chains (hkind : s.kind ≠ .encode) : consumed stream s.events =
    (s.chains.flatMap Chain.inputs).filter fun l => (stream l).isNone := by
  rw [events, if_neg hkind, consumed_flatMap, List.filter_flatMap]
  simp

theorem mem_consumed_events (bare : s.Bare) (hl : stream l = none) :
    l ∈ consumed stream s.events ↔
      (s.kind = .encode ∧ l ∈ s.maps) ∨ ∃ c ∈ s.chains, l ∈ c.inputs := by
  by_cases hkind : s.kind = .encode
  · simp [consumed_events_encode hkind, hkind, bare hkind, hl]
  · simp [consumed_events_chains hkind, hkind, hl]

/-- A label that a stage mentions is taken by it or written. -/
theorem mentions_iff (bare : s.Bare) (hl : stream l = none) :
    s.Mentions l ↔ l ∈ consumed stream s.events ∨ l ∈ written s.events := by
  rw [mem_consumed_events bare hl, written_events bare, Mentions, List.mem_map]
  constructor
  · rintro (hmap | ⟨c, hc, hin | hout⟩)
    · exact Or.inl (Or.inl hmap)
    · exact Or.inl (Or.inr ⟨c, hc, hin⟩)
    · exact Or.inr ⟨c, hc, hout.symm⟩
  · rintro ((hmap | ⟨c, hc, hin⟩) | ⟨c, hc, hout⟩)
    · exact Or.inl hmap
    · exact Or.inr ⟨c, hc, Or.inl hin⟩
    · exact Or.inr ⟨c, hc, Or.inr hout.symm⟩

variable [DecidableEq ℓ]

/-- A stage shows as read what it takes and does not write. -/
theorem mem_reads_iff (bare : s.Bare) (hl : stream l = none) :
    l ∈ s.reads ↔ l ∈ consumed stream s.events ∧ l ∉ written s.events := by
  rw [written_events bare, reads]
  by_cases hkind : s.kind = .encode
  · simp [consumed_events_encode hkind, hkind, bare hkind, hl]
  · simp only [if_neg hkind, consumed_events_chains hkind, List.mem_flatMap, List.mem_filter,
      List.contains_eq_mem, Bool.not_eq_true', decide_eq_false_iff_not, hl, Option.isNone_none,
      and_true]
    exact ⟨fun ⟨c, hc, hin, hout⟩ => ⟨⟨c, hc, hin⟩, hout⟩, fun ⟨⟨c, hc, hin⟩, hout⟩ => ⟨c, hc, hin, hout⟩⟩

/-- A stage shows as written what it writes and does not take. -/
theorem mem_writes_iff (bare : s.Bare) (inner : ∀ k ∈ written s.events, stream k = none) :
    l ∈ s.writes ↔ l ∈ written s.events ∧ l ∉ consumed stream s.events := by
  rw [writes, ← written_events bare]
  simp only [List.mem_filter, List.contains_eq_mem, Bool.not_eq_true', decide_eq_false_iff_not]
  refine and_congr_right fun hout => not_congr ?_
  have hkind : s.kind ≠ .encode := fun hkind => by
    rw [written_events bare, bare hkind] at hout
    exact List.not_mem_nil hout
  rw [consumed_events_chains hkind, List.mem_filter, inner l hout]
  simp

/-- What a stage shows as read stands among what it takes, in the same order. -/
theorem reads_sublist : (s.reads.filter fun l => (stream l).isNone).Sublist
    (consumed stream s.events) := by
  by_cases hkind : s.kind = .encode
  · rw [reads, if_pos hkind, consumed_events_encode hkind]
  · rw [reads, if_neg hkind, consumed_events_chains hkind]
    refine (sublist_flatMap fun c _ => List.filter_sublist).filter _

/-- A stream that a stage mentions is shown as read. -/
theorem mem_reads_of_stream (inner : ∀ k ∈ s.chains.map Chain.output, stream k = none) {i : Nat}
    (hl : stream l = some i) (mentions : s.Mentions l) (bare : s.Bare) : l ∈ s.reads := by
  have hout : l ∉ s.chains.map Chain.output := fun h => by
    rw [inner l h] at hl
    cases hl
  rw [reads]
  rcases mentions with ⟨hkind, hmap⟩ | ⟨c, hc, hin | rfl⟩
  · rwa [if_pos hkind]
  · rw [if_neg fun hkind => List.not_mem_nil (bare hkind ▸ hc)]
    exact List.mem_flatMap.mpr ⟨c, hc, List.mem_filter.mpr ⟨hin, by simpa using hout⟩⟩
  · exact absurd (List.mem_map_of_mem hc) hout

end Stage

/-! ### All stages -/

namespace Plan
variable {ℓ φ : Type} {stream : ℓ → Option Nat} {p : Plan ℓ φ}

/-- What the stages show is a flow: each label goes from one stage to one later stage, or stays inside of
one; streams of input files apart. -/
structure Flows [DecidableEq ℓ] (stream : ℓ → Option Nat) (p : Plan ℓ φ) : Prop where
  /-- What a stage reads is written by exactly one stage, which comes before it. -/
  read : ∀ (j : Nat) (s : Stage ℓ φ) (l : ℓ), p.stages[j]? = some s → l ∈ s.reads → stream l = none →
    ∃ (i : Nat) (s' : Stage ℓ φ), i < j ∧ p.stages[i]? = some s' ∧ l ∈ s'.writes ∧
      ∀ (k : Nat) (s'' : Stage ℓ φ), p.stages[k]? = some s'' → l ∈ s''.writes → k = i
  /-- What a stage writes is read once by all stages together, and by one that comes after it. -/
  written : ∀ (i : Nat) (s : Stage ℓ φ) (l : ℓ), p.stages[i]? = some s → l ∈ s.writes →
    (p.stages.flatMap Stage.reads).count l = 1 ∧
      ∃ (j : Nat) (s' : Stage ℓ φ), i < j ∧ p.stages[j]? = some s' ∧ l ∈ s'.reads
  /-- Any other label is written and taken by chains of one stage, and no other stage mentions it. -/
  inside : ∀ l : ℓ, (∃ s ∈ p.stages, s.Mentions l) → (∀ s ∈ p.stages, l ∉ s.reads ∧ l ∉ s.writes) →
    ∃ (i : Nat) (s : Stage ℓ φ), p.stages[i]? = some s ∧ (∃ c ∈ s.chains, l = c.output) ∧
      (∃ c ∈ s.chains, l ∈ c.inputs) ∧
      ∀ (k : Nat) (s' : Stage ℓ φ), p.stages[k]? = some s' → s'.Mentions l → k = i

section Flow
variable {inputs i j : Nat} {s s' : Stage ℓ φ} {l : ℓ} (sound : SoundEvents stream inputs p.events)
include sound

/-- Only one stage writes a label. -/
theorem written_unique (hi : p.stages[i]? = some s) (hj : p.stages[j]? = some s')
    (hs : l ∈ LabelEvent.written s.events) (hs' : l ∈ LabelEvent.written s'.events) : i = j := by
  have honce := sound.writtenOnce
  rw [events, written_flatMap] at honce
  exact eq_of_nodup_flatMap honce hi hj hs hs'

/-- Only one stage takes a label. -/
theorem consumed_unique (hi : p.stages[i]? = some s) (hj : p.stages[j]? = some s')
    (hs : l ∈ consumed stream s.events) (hs' : l ∈ consumed stream s'.events) : i = j := by
  have honce := sound.consumedOnce
  rw [events, consumed_flatMap] at honce
  exact eq_of_nodup_flatMap honce hi hj hs hs'

theorem inner_of_stage (hi : p.stages[i]? = some s) : ∀ k ∈ LabelEvent.written s.events, stream k = none :=
  fun k hk => sound.inner k (by
    rw [events, written_flatMap]
    exact List.mem_flatMap.mpr ⟨s, List.mem_of_getElem? hi, hk⟩)

/-- What a stage takes was written by that stage or by an earlier one. -/
theorem written_of_consumed (hj : p.stages[j]? = some s) (hl : l ∈ consumed stream s.events) :
    ∃ i s', i ≤ j ∧ p.stages[i]? = some s' ∧ l ∈ LabelEvent.written s'.events := by
  obtain ⟨hnone, stage, hread⟩ := mem_consumed.mp hl
  obtain ⟨before, after, hsplit⟩ := List.append_of_mem hread
  obtain ⟨hlt, rfl⟩ := List.getElem?_eq_some_iff.mp hj
  -- the events up to the one that takes the label are those of the stages before, and some of its own
  have hevents : p.events = ((p.stages.take j).flatMap Stage.events ++ before) ++
      read stage l :: (after ++ (p.stages.drop (j + 1)).flatMap Stage.events) := by
    calc p.events = (p.stages.take j ++ p.stages[j] :: p.stages.drop (j + 1)).flatMap Stage.events := by
          rw [List.getElem_cons_drop, List.take_append_drop, events]
      _ = _ := by rw [List.flatMap_append, List.flatMap_cons, hsplit]; simp
  have hwritten := (sound.ordered _ stage l _ hevents hnone).resolve_left List.not_mem_nil
  rw [written_append, written_flatMap, List.mem_append] at hwritten
  rcases hwritten with hearlier | hown
  · obtain ⟨i, s', hi, hl'⟩ := exists_getElem?_of_mem_flatMap hearlier
    rw [List.getElem?_take] at hi
    split at hi
    · exact ⟨i, s', Nat.le_of_lt ‹i < j›, hi, hl'⟩
    · cases hi
  · refine ⟨j, _, Nat.le_refl j, hj, ?_⟩
    rw [hsplit, written_append]
    exact List.mem_append_left _ hown

/-- What a stage writes is taken by that stage or by a later one. -/
theorem consumed_of_written (hi : p.stages[i]? = some s) (hl : l ∈ LabelEvent.written s.events) :
    ∃ j s', i ≤ j ∧ p.stages[j]? = some s' ∧ l ∈ consumed stream s'.events := by
  have hall : l ∈ consumed stream p.events := sound.allConsumed l (by
    rw [events, written_flatMap]
    exact List.mem_flatMap.mpr ⟨s, List.mem_of_getElem? hi, hl⟩)
  rw [events, consumed_flatMap] at hall
  obtain ⟨j, s', hj, hl'⟩ := exists_getElem?_of_mem_flatMap hall
  obtain ⟨k, s'', hkj, hk, hl''⟩ := written_of_consumed sound hj hl'
  obtain rfl := written_unique sound hi hk hl hl''
  exact ⟨j, s', hkj, hj, hl'⟩

variable [DecidableEq ℓ]

/-- What is shown as read by some stage is taken once. -/
theorem count_reads_le (hnone : stream l = none) : (p.stages.flatMap Stage.reads).count l ≤ 1 := by
  have hsub : ((p.stages.flatMap Stage.reads).filter fun l => (stream l).isNone).Sublist
      (consumed stream p.events) := by
    rw [events, consumed_flatMap, List.filter_flatMap]
    exact sublist_flatMap fun s _ => Stage.reads_sublist
  calc (p.stages.flatMap Stage.reads).count l
      = ((p.stages.flatMap Stage.reads).filter fun l => (stream l).isNone).count l := by
        rw [List.count_filter (by simp [hnone])]
    _ ≤ (consumed stream p.events).count l := hsub.count_le l
    _ ≤ 1 := List.nodup_iff_count_le_one.mp sound.consumedOnce l

/-- **The stages of a sound plan show a flow.** -/
theorem flows_of_sound (bare : ∀ s ∈ p.stages, s.Bare) : p.Flows stream where
  read j s l hj hl hnone := by
    obtain ⟨htaken, hout⟩ := (Stage.mem_reads_iff (bare s (List.mem_of_getElem? hj)) hnone).mp hl
    obtain ⟨i, s', hle, hi, hwritten⟩ := written_of_consumed sound hj htaken
    have hmem (k : Nat) (s'' : Stage ℓ φ) (hk : p.stages[k]? = some s'') :=
      Stage.mem_writes_iff (l := l) (bare s'' (List.mem_of_getElem? hk)) (inner_of_stage sound hk)
    have hne : i ≠ j := by
      rintro rfl
      obtain rfl := Option.some.inj (hi.symm.trans hj)
      exact hout hwritten
    refine ⟨i, s', Nat.lt_of_le_of_ne hle hne, hi, (hmem i s' hi).mpr ⟨hwritten, fun htaken' => ?_⟩,
      fun k s'' hk hl'' => ?_⟩
    · exact hne (consumed_unique sound hi hj htaken' htaken)
    · exact written_unique sound hk hi ((hmem k s'' hk).mp hl'').1 hwritten
  written i s l hi hl := by
    have hinner := inner_of_stage sound hi
    obtain ⟨hwritten, hkept⟩ := (Stage.mem_writes_iff (bare s (List.mem_of_getElem? hi)) hinner).mp hl
    obtain ⟨j, s', hle, hj, htaken⟩ := consumed_of_written sound hi hwritten
    have hne : i ≠ j := by
      rintro rfl
      obtain rfl := Option.some.inj (hi.symm.trans hj)
      exact hkept htaken
    have hreads : l ∈ s'.reads :=
      (Stage.mem_reads_iff (bare s' (List.mem_of_getElem? hj)) (hinner l hwritten)).mpr
        ⟨htaken, fun hwritten' => hne (written_unique sound hi hj hwritten hwritten')⟩
    have hpos : 0 < (p.stages.flatMap Stage.reads).count l :=
      List.count_pos_iff.mpr (List.mem_flatMap.mpr ⟨s', List.mem_of_getElem? hj, hreads⟩)
    have hle := count_reads_le sound (hinner l hwritten)
    exact ⟨by omega, j, s', Nat.lt_of_le_of_ne ‹i ≤ j› hne, hj, hreads⟩
  inside l hmentioned hidden := by
    obtain ⟨s, hs, hmentions⟩ := hmentioned
    obtain ⟨j, hj⟩ := List.getElem?_of_mem hs
    have hchains {k : Nat} {s' : Stage ℓ φ} (hk : p.stages[k]? = some s') :=
      Stage.written_events (bare s' (List.mem_of_getElem? hk))
    -- a stream would be shown
    have hnone : stream l = none := by
      cases hl : stream l with
      | none => rfl
      | some i =>
        exact absurd (Stage.mem_reads_of_stream (hchains hj ▸ inner_of_stage sound hj) hl hmentions
          (bare s hs)) (hidden s hs).1
    have hmem {k : Nat} {s' : Stage ℓ φ} (hk : p.stages[k]? = some s') :=
      Stage.mentions_iff (l := l) (bare s' (List.mem_of_getElem? hk)) hnone
    -- a stage that takes it writes it, and the other way round
    have hboth {k : Nat} {s' : Stage ℓ φ} (hk : p.stages[k]? = some s') (h : s'.Mentions l) :
        l ∈ consumed stream s'.events ∧ l ∈ LabelEvent.written s'.events := by
      have hs' := List.mem_of_getElem? hk
      have hreads := Stage.mem_reads_iff (bare s' hs') hnone
      have hwrites := Stage.mem_writes_iff (l := l) (bare s' hs') (inner_of_stage sound hk)
      rcases (hmem hk).mp h with htaken | hwritten
      · exact ⟨htaken, not_not.mp fun hout => (hidden s' hs').1 (hreads.mpr ⟨htaken, hout⟩)⟩
      · exact ⟨not_not.mp fun hkept => (hidden s' hs').2 (hwrites.mpr ⟨hwritten, hkept⟩), hwritten⟩
    obtain ⟨htaken, hwritten⟩ := hboth hj hmentions
    have hout : ∃ c ∈ s.chains, l = c.output := by
      rw [hchains hj, List.mem_map] at hwritten
      obtain ⟨c, hc, heq⟩ := hwritten
      exact ⟨c, hc, heq.symm⟩
    refine ⟨j, s, hj, hout, ?_, fun k s' hk h => ?_⟩
    · refine ((Stage.mem_consumed_events (bare s hs) hnone).mp htaken).resolve_left ?_
      rintro ⟨hkind, -⟩
      obtain ⟨c, hc, -⟩ := hout
      exact List.not_mem_nil (bare s hs hkind ▸ hc)
    · exact written_unique sound hk hj (hboth hk h).2 hwritten

end Flow

/-- **What is shown of a plan that passes the check is a flow**, if its encoders have no chains. -/
theorem stages_flow {p : TextPlan} (accepted : p.checkTexts = .ok ())
    (bare : ∀ s ∈ p.stages, s.kind = .encode → s.chains = []) : p.Flows streamOfText? :=
  flows_of_sound (checkTexts_eq_ok_iff.mp accepted).1 bare

namespace Sample

/-- A picture goes through two chains of its clip, then through another stage, and into the output. -/
def relay : TextPlan where
  inputs := [⟨"assets/0.mp4", []⟩]
  stages :=
    [⟨.clip, "clip0", [⟨["0:v"], ["null"], "c0o0"⟩, ⟨["c0o0"], ["negate"], "v0"⟩], [], []⟩,
      ⟨.copy, "copy", [⟨["v0"], ["null"], "outv"⟩], [], []⟩, ⟨.encode, "encode", [], ["outv"], []⟩]
  outputName := "output.mp4"
  duration := .finite 1
  warnings := []

end Sample

theorem stages_flow_sample :
    Sample.relay.checkTexts = .ok () ∧ (∀ s ∈ Sample.relay.stages, s.kind = .encode → s.chains = []) ∧
      Sample.relay.Flows streamOfText? ∧
      Sample.relay.stages.map Stage.reads = [["0:v"], ["v0"], ["outv"]] ∧
      Sample.relay.stages.map Stage.writes = [["v0"], ["outv"], []] := by
  have accepted : Sample.relay.checkTexts = .ok () := by decide
  have bare : ∀ s ∈ Sample.relay.stages, s.kind = .encode → s.chains = [] := by decide
  exact ⟨accepted, bare, stages_flow accepted bare, by decide, by decide⟩

end Plan
end Montage
