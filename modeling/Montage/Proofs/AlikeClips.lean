import Montage.Proofs.Sections
import Mathlib.Data.List.Forall2

/-! # Clips that the compiler cannot tell apart

The same clip can be requested in different words.  Two clips are alike (`Compiler.Alike`) if they refer
to the same files, pass the check together, and give the same section at every place, be it as a clip or
as an item of the soundtrack.  Timelines that are alike clip by clip have the same plan, or neither has one
(`Compiler.AlikeThroughout.compile_iff`); for a new way to word a clip only the clip has to be looked at.
-/
namespace Montage

section Lists
variable {α ε : Type} {R : α → α → Prop} {xs ys : List α}

theorem checkItems_iff_of_forall₂ {check : Nat → α → Except ε Unit} {index : Nat}
    (h : List.Forall₂ R xs ys)
    (hR : ∀ a b, R a b → ∀ i, check i a = .ok () ↔ check i b = .ok ()) :
    checkItems check index xs = .ok () ↔ checkItems check index ys = .ok () := by
  induction h generalizing index with
  | nil => exact Iff.rfl
  | cons hab _ ih =>
    rw [checkItems_cons_eq_ok_iff, checkItems_cons_eq_ok_iff, hR _ _ hab, ih]

theorem flatMap_of_forall₂ {β : Type} {f : α → List β} (h : List.Forall₂ R xs ys)
    (hR : ∀ a b, R a b → f a = f b) : xs.flatMap f = ys.flatMap f := by
  induction h with
  | nil => rfl
  | cons hab _ ih => rw [List.flatMap_cons, List.flatMap_cons, hR _ _ hab, ih]

theorem sectionsFrom_of_forall₂ {make : Nat → Nat → Clip → Except CompileFault Section}
    {cs ds : List Clip} {index next : Nat}
    (h : List.Forall₂ (fun c d => ∀ i n, make i n c = make i n d) cs ds) :
    sectionsFrom make index next cs = sectionsFrom make index next ds := by
  induction h generalizing index next with
  | nil => rfl
  | cons hcd _ ih =>
    rw [sectionsFrom, sectionsFrom, hcd]
    exact bind_congr fun s => by rw [ih]

end Lists

/-- Two clips refer to the same files, pass the check together, and if they do, they add the same to a
plan. -/
structure Compiler.Alike (k : Compiler) (assets : Assets) (c d : Clip) : Prop where
  source : c.source = d.source
  overlays : c.overlays = d.overlays
  check_iff : c.check k.rounding = .ok () ↔ d.check k.rounding = .ok ()
  asClip : c.check k.rounding = .ok () → ∀ out index next,
    k.clipSection out assets index next c = k.clipSection out assets index next d
  asItem : c.check k.rounding = .ok () → ∀ out index next,
    k.soundtrackSection out assets index next c = k.soundtrackSection out assets index next d

namespace Compiler.Alike
variable {k : Compiler} {assets : Assets} {c d : Clip}

theorem refl (k : Compiler) (assets : Assets) (c : Clip) : k.Alike assets c c :=
  ⟨rfl, rfl, Iff.rfl, fun _ _ _ _ => rfl, fun _ _ _ _ => rfl⟩

theorem symm (h : k.Alike assets c d) : k.Alike assets d c :=
  ⟨h.source.symm, h.overlays.symm, h.check_iff.symm,
    fun hd out index next => (h.asClip (h.check_iff.mpr hd) out index next).symm,
    fun hd out index next => (h.asItem (h.check_iff.mpr hd) out index next).symm⟩

end Compiler.Alike

/-- Two timelines have the same settings, and clips and items that are alike one by one. -/
structure Compiler.AlikeThroughout (k : Compiler) (assets : Assets) (t u : Timeline) : Prop where
  clips : List.Forall₂ (k.Alike assets) t.clips u.clips
  soundtrack : List.Forall₂ (k.Alike assets) t.soundtrack u.soundtrack
  settings : t.settings = u.settings

namespace Compiler.AlikeThroughout
variable {k : Compiler} {assets : Assets} {t u : Timeline}

theorem check_iff (h : k.AlikeThroughout assets t u) :
    t.check k.rounding = .ok () ↔ u.check k.rounding = .ok () := by
  have hempty : t.clips.isEmpty = u.clips.isEmpty := by
    rw [Bool.eq_iff_iff, List.isEmpty_iff_length_eq_zero, List.isEmpty_iff_length_eq_zero,
      h.clips.length_eq]
  simp only [Timeline.check, andThen_eq_ok_iff, hempty, h.settings]
  refine and_congr_right fun _ => and_congr ?_ (and_congr_left fun _ => ?_)
  · refine checkItems_iff_of_forall₂ h.clips fun c d hcd i => ?_
    rw [mapError_eq_ok_iff, mapError_eq_ok_iff, hcd.check_iff]
  · refine checkItems_iff_of_forall₂ h.soundtrack fun c d hcd i => ?_
    simp only [checkSoundtrackClip, andThen_eq_ok_iff, mapError_eq_ok_iff, hcd.check_iff,
      hcd.overlays]

theorem mentions_eq (h : k.AlikeThroughout assets t u) : t.mentions = u.mentions := by
  have hsources (c d : Clip) (hcd : k.Alike assets c d) : c.sources = d.sources := by
    rw [Clip.sources, Clip.sources, hcd.source, hcd.overlays]
  rw [Timeline.mentions, Timeline.mentions, List.flatMap_append, List.flatMap_append,
    flatMap_of_forall₂ h.clips hsources, flatMap_of_forall₂ h.soundtrack hsources]

/-- **Timelines that are alike clip by clip have the same plan**, or neither has one. -/
theorem compile_iff (h : k.AlikeThroughout assets t u) (p : Plan Label Filter) :
    k.compile t assets = .ok p ↔ k.compile u assets = .ok p := by
  rw [compile_eq_ok_iff, compile_eq_ok_iff, h.check_iff, needAll_eq_ok_iff, needAll_eq_ok_iff,
    h.mentions_eq]
  refine and_congr_right fun hu => and_congr_right fun _ => ?_
  -- the clips passed the check, and that is when they give the same sections
  have hchecked := List.forall_mem_append.mp (clips_checked (h.check_iff.mpr hu))
  have hclips : sectionsFrom (k.clipSection (k.defaults.under u.settings) assets) 0 0 t.clips =
      sectionsFrom (k.clipSection (k.defaults.under u.settings) assets) 0 0 u.clips :=
    sectionsFrom_of_forall₂ (((List.forall₂_and_left _ _).mpr ⟨hchecked.1, h.clips⟩).imp
      fun _ _ hcd => hcd.2.asClip hcd.1 _)
  have hsoundtrack (next : Nat) :
      sectionsFrom (k.soundtrackSection (k.defaults.under u.settings) assets) 0 next t.soundtrack =
        sectionsFrom (k.soundtrackSection (k.defaults.under u.settings) assets) 0 next
          u.soundtrack :=
    sectionsFrom_of_forall₂ (((List.forall₂_and_left _ _).mpr ⟨hchecked.2, h.soundtrack⟩).imp
      fun _ _ hcd => hcd.2.asItem hcd.1 _)
  simp only [Compiler.planOf, h.settings, hclips, hsoundtrack]

end Compiler.AlikeThroughout
end Montage
