import Montage.Plan.Compile
import Montage.Proofs.Checks

/-! # Files that were fetched

Before it makes anything, the compiler asks for the files of all sources of a timeline, clip by
clip and overlay by overlay.  It goes on exactly if each of them was fetched
(`needAll_eq_ok_iff`), and otherwise names one that was not (`needAll_eq_error`).  It does not
matter whether one asks for every mention of a source or only for the first one with each key
(`fetched_sources_iff`).
-/
namespace Montage

/-- Whether the file of a source was fetched. -/
def Fetched (assets : Assets) (s : MediaSource) : Prop := (assets s.key).isSome = true

instance (assets : Assets) (s : MediaSource) : Decidable (Fetched assets s) :=
  inferInstanceAs (Decidable (_ = true))

theorem Fetched.exists {assets : Assets} {s : MediaSource} (h : Fetched assets s) :
    ∃ a, assets s.key = some a := Option.isSome_iff_exists.mp h

variable {assets : Assets}

theorem need_eq_ok_iff {place : String} {s : MediaSource} {a : Asset} :
    need assets place s = .ok a ↔ assets s.key = some a := by
  unfold need
  cases assets s.key <;> simp

theorem need_eq_error_iff {place : String} {s : MediaSource}
    {f : CompileFault} :
    need assets place s = .error f ↔ assets s.key = none ∧ f = .missingAsset place s := by
  unfold need
  cases assets s.key <;> simp [eq_comm]

/-- What the compiler asks for one overlay. -/
theorem needOverlay_eq_ok_iff {place : String} {o : Overlay} :
    (ifGiven o.content.source? fun s => do
      let _ ← need assets place s
      .ok ()) = .ok () ↔ ∀ s, o.content.source? = some s → Fetched assets s := by
  rw [ifGiven_eq_ok_iff]
  refine forall_congr' fun s => imp_congr_right fun _ => ?_
  simp only [bind_eq_ok_iff, need_eq_ok_iff, and_true]
  exact Option.isSome_iff_exists.symm

theorem needClip_eq_ok_iff {place : String} {c : Clip} :
    needClip assets place c = .ok () ↔ ∀ s ∈ c.sources, Fetched assets s := by
  simp only [needClip, bind_eq_ok_iff, need_eq_ok_iff, checkItems_eq_ok_iff, Clip.sources,
    List.forall_mem_cons]
  constructor
  · rintro ⟨a, ha, hos⟩
    refine ⟨Option.isSome_iff_exists.mpr ⟨a, ha⟩, fun s hs => ?_⟩
    obtain ⟨o, ho, hsrc⟩ := List.mem_filterMap.mp hs
    obtain ⟨i, hi⟩ := List.getElem?_of_mem ho
    exact needOverlay_eq_ok_iff.mp (hos i o hi) s hsrc
  · rintro ⟨hsrc, hos⟩
    obtain ⟨a, ha⟩ := hsrc.exists
    refine ⟨a, ha, fun i o hi => needOverlay_eq_ok_iff.mpr fun s hs => ?_⟩
    exact hos s (List.mem_filterMap.mpr ⟨o, List.mem_of_getElem? hi, hs⟩)

/-- Every mention of a media file, in order. -/
def Timeline.mentions (t : Timeline) : List MediaSource :=
  (t.clips ++ t.soundtrack).flatMap Clip.sources

/-- **The compiler goes on exactly if every file that the timeline mentions was fetched.** -/
theorem needAll_eq_ok_iff {t : Timeline} :
    needAll assets t = .ok () ↔ ∀ s ∈ t.mentions, Fetched assets s := by
  simp only [needAll, andThen_eq_ok_iff, checkItems_eq_ok_iff, needClip_eq_ok_iff,
    Timeline.mentions, List.flatMap_append, List.forall_mem_append, List.mem_flatMap]
  have group {cs : List Clip} : (∀ (i : Nat) (c : Clip), cs[i]? = some c →
      ∀ s ∈ c.sources, Fetched assets s) ↔ ∀ s, (∃ c ∈ cs, s ∈ c.sources) → Fetched assets s := by
    constructor
    · rintro h s ⟨c, hc, hs⟩
      obtain ⟨i, hi⟩ := List.getElem?_of_mem hc
      exact h i c hi s hs
    · exact fun h i c hi s hs => h s ⟨c, List.mem_of_getElem? hi, hs⟩
  rw [group, group]

theorem needClip_eq_error {place : String} {c : Clip} {f : CompileFault}
    (h : needClip assets place c = .error f) :
    ∃ at' s, s ∈ c.sources ∧ assets s.key = none ∧ f = .missingAsset at' s := by
  rcases bind_eq_error_iff.mp h with h | ⟨a, -, h⟩
  · obtain ⟨hnone, hf⟩ := need_eq_error_iff.mp h
    exact ⟨_, c.source, List.mem_cons_self .., hnone, hf⟩
  · obtain ⟨i, o, hi, h, -⟩ := checkItems_eq_error h
    obtain ⟨s, hs, h⟩ := ifGiven_eq_error_iff.mp h
    rcases bind_eq_error_iff.mp h with h | ⟨_, -, h⟩
    · obtain ⟨hnone, hf⟩ := need_eq_error_iff.mp h
      refine ⟨_, s, List.mem_cons_of_mem _ ?_, hnone, hf⟩
      exact List.mem_filterMap.mpr ⟨o, List.mem_of_getElem? hi, hs⟩
    · cases h

/-- The fault names a file that the timeline mentions and that was not fetched. -/
theorem needAll_eq_error {t : Timeline} {f : CompileFault} (h : needAll assets t = .error f) :
    ∃ at' s, s ∈ t.mentions ∧ assets s.key = none ∧ f = .missingAsset at' s := by
  have clips {cs : List Clip} {g : Group}
      (h : checkItems (fun i c => needClip assets (clipPlace g i) c) 0 cs = .error f) :
      ∃ at' s, s ∈ cs.flatMap Clip.sources ∧ assets s.key = none ∧ f = .missingAsset at' s := by
    obtain ⟨i, c, hi, h, -⟩ := checkItems_eq_error h
    obtain ⟨at', s, hs, hnone, hf⟩ := needClip_eq_error h
    exact ⟨at', s, List.mem_flatMap.mpr ⟨c, List.mem_of_getElem? hi, hs⟩, hnone, hf⟩
  simp only [Timeline.mentions, List.flatMap_append, List.mem_append]
  rcases bind_eq_error_iff.mp h with h | ⟨_, -, h⟩
  · obtain ⟨at', s, hs, hnone, hf⟩ := clips h
    exact ⟨at', s, Or.inl hs, hnone, hf⟩
  · obtain ⟨at', s, hs, hnone, hf⟩ := clips h
    exact ⟨at', s, Or.inr hs, hnone, hf⟩

/-! ### The first mention of each file -/

theorem mem_of_mem_firstByKey {seen : List String} {l : List MediaSource} {s : MediaSource}
    (h : s ∈ Timeline.firstByKey seen l) : s ∈ l := by
  induction l generalizing seen with
  | nil => exact h
  | cons a rest ih =>
    rw [Timeline.firstByKey] at h
    split at h
    · exact List.mem_cons_of_mem _ (ih h)
    · rcases List.mem_cons.mp h with rfl | h
      · exact List.mem_cons_self ..
      · exact List.mem_cons_of_mem _ (ih h)

/-- Every key that was not seen before is kept. -/
theorem exists_mem_firstByKey {seen : List String} {l : List MediaSource} {s : MediaSource}
    (h : s ∈ l) (hnew : s.key ∉ seen) :
    ∃ s' ∈ Timeline.firstByKey seen l, s'.key = s.key := by
  induction l generalizing seen with
  | nil => exact absurd h List.not_mem_nil
  | cons a rest ih =>
    rw [Timeline.firstByKey]
    -- `a` is kept if it has the key, for the key was not seen; else the key is still new after it
    by_cases hs : s.key = a.key
    · rw [if_neg (by simpa [← hs] using hnew)]
      exact ⟨a, List.mem_cons_self .., hs.symm⟩
    · have hrest : s ∈ rest := by
        rcases List.mem_cons.mp h with rfl | h
        · exact absurd rfl hs
        · exact h
      split
      · exact ih hrest hnew
      · obtain ⟨s', hs', hkey⟩ := ih hrest (by simp [hs, hnew] : s.key ∉ a.key :: seen)
        exact ⟨s', List.mem_cons_of_mem _ hs', hkey⟩

/-- Only keys count, so it is enough that the files of the sources were fetched. -/
theorem fetched_sources_iff {t : Timeline} :
    (∀ s ∈ t.sources, Fetched assets s) ↔ ∀ s ∈ t.mentions, Fetched assets s := by
  constructor
  · intro h s hs
    obtain ⟨s', hs', hkey⟩ := exists_mem_firstByKey hs (List.not_mem_nil : s.key ∉ [])
    have := h s' hs'
    rwa [Fetched, hkey] at this
  · exact fun h s hs => h s (mem_of_mem_firstByKey hs)

end Montage
