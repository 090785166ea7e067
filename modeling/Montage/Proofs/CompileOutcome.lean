import Montage.Proofs.Assembly

/-! # What compiling comes to

Compiling a timeline ends in one of five ways, tried in this order: the timeline does not pass
its check; a file that it mentions was not fetched; a clip starts past the end of its file; an item
of the soundtrack is silent; or there is a plan.  Which one it is can be told from the timeline and
the files without compiling, and a plan has sound labels, so the check of the labels that stands at
the end never refuses anything.
-/
namespace Montage

/-! ### Kinds of faults -/

@[simp] theorem Problem.kind_invalidParameter (message field : Option String)
    (value low high : Option Problem.Quoted) :
    (Problem.invalidParameter message field value low high).kind = .invalidParameter := by
  unfold Problem.invalidParameter
  split <;> rfl

@[simp] theorem Problem.kind_invalidTrim (message : Option String) (start finish : Option Number)
    (field : Option String) :
    (Problem.invalidTrim message start finish field).kind = .invalidTrim := by
  unfold Problem.invalidTrim
  split <;> rfl

theorem OverlayFault.kind_problem (place : String) (f : OverlayFault) :
    (f.problem place).kind = .invalidParameter := by
  cases f <;> simp only [OverlayFault.problem, Problem.kind_invalidParameter]

/-- What the check of a clip finds is about a trim or about a parameter. -/
theorem ClipFault.kind_problem (place : String) (f : ClipFault) :
    (f.problem place).kind = .invalidTrim ∨ (f.problem place).kind = .invalidParameter := by
  cases f <;>
    simp only [ClipFault.problem, Problem.kind_invalidTrim, Problem.kind_invalidParameter,
      OverlayFault.kind_problem, true_or, or_true]

theorem SettingsFault.kind_problem (f : SettingsFault) : f.problem.kind = .invalidParameter := by
  cases f <;> simp only [SettingsFault.problem, sideProblem, Problem.kind_invalidParameter]

theorem TimelineFault.kind_problem (f : TimelineFault) :
    f.problem.kind ∈ [Problem.Kind.emptyTimeline, .invalidTrim, .invalidParameter] := by
  simp only [List.mem_cons, List.not_mem_nil, or_false]
  cases f with
  | noClips => exact Or.inl rfl
  | clip group index fault => exact Or.inr (fault.kind_problem (clipPlace group index))
  | overlaysOnSoundtrack index => exact Or.inr (Or.inr (Problem.kind_invalidParameter ..))
  | settings fault => exact Or.inr (Or.inr fault.kind_problem)

variable {k : Compiler} {t : Timeline} {assets : Assets}

/-- No clip starts at or past the end of its file. -/
def Timeline.StartsInside (t : Timeline) (assets : Assets) : Prop :=
  ∀ c ∈ t.clips, ∀ a, assets c.source.key = some a → ¬ c.StartsPastEnd a

/-- Every file of the soundtrack has sound. -/
def Timeline.Sounds (t : Timeline) (assets : Assets) : Prop :=
  ∀ c ∈ t.soundtrack, ∀ a, assets c.source.key = some a → a.hasAudio = true

/-! ### Clips that cannot be made -/

section Sections
variable {out : Defaults}

theorem clipSection_eq_error_iff {index next : Nat} {c : Clip} {f : CompileFault}
    (h : ∀ s ∈ c.inputSources, Fetched assets s) :
    k.clipSection out assets index next c = .error f ↔
      ∃ a d, assets c.source.key = some a ∧ a.duration = some d ∧
        Number.le d c.start = true ∧ f = .startPastEnd index c.start d := by
  obtain ⟨a, ha⟩ := (h c.source (List.mem_cons_self ..)).exists
  have hsection : k.clipSection out assets index next c =
      (k.timing index c a).map fun r => k.clipPart out assets index next c a r.1 r.2 :=
    clipSection_of_fetched ha fun s hs => h s (List.mem_cons_of_mem _ hs)
  constructor
  · intro hf
    rw [hsection] at hf
    cases ht : k.timing index c a with
    | ok r => rw [ht] at hf; cases hf
    | error f' =>
      rw [ht] at hf
      cases hf
      obtain ⟨d, hd, hle, rfl⟩ := timing_eq_error_iff.mp ht
      exact ⟨a, d, ha, hd, hle, rfl⟩
  · rintro ⟨b, d, hb, hd, hle, rfl⟩
    obtain rfl : a = b := Option.some.inj (ha.symm.trans hb)
    rw [hsection, timing_eq_error_iff.mpr ⟨d, hd, hle, rfl⟩]
    rfl

theorem soundtrackSection_eq_error_iff {index next : Nat} {c : Clip} {f : CompileFault}
    (h : ∀ s ∈ c.inputSources, Fetched assets s) :
    k.soundtrackSection out assets index next c = .error f ↔
      ∃ a, assets c.source.key = some a ∧ a.hasAudio = false ∧ f = .silentSoundtrack index := by
  obtain ⟨a, ha⟩ := (h c.source (List.mem_cons_self ..)).exists
  rw [soundtrackSection_of_fetched ha, ha]
  cases haudio : a.hasAudio with
  | true => simp [haudio]
  | false =>
    simp only [Bool.false_eq_true, if_false, Except.error.injEq, Option.some.injEq,
      exists_eq_left', haudio, true_and]
    exact eq_comm

end Sections

/-- Making sections ends with a fault exactly if one of them cannot be made. -/
theorem exists_error_or_sections (make : Nat → Nat → Clip → Except CompileFault Section)
    (next : Nat) (cs : List Clip) :
    (∃ f i c n, sectionsFrom make 0 next cs = .error f ∧ cs[i]? = some c ∧
        make i n c = .error f) ∨
      ∃ ss, sectionsFrom make 0 next cs = .ok ss ∧
        ∀ c ∈ cs, ∃ i n s, cs[i]? = some c ∧ make i n c = .ok s := by
  cases h : sectionsFrom make 0 next cs with
  | error f =>
    obtain ⟨i, c, n, hc, hmake⟩ := sectionsFrom_eq_error h
    rw [Nat.zero_add] at hmake
    exact Or.inl ⟨f, i, c, n, rfl, hc, hmake⟩
  | ok ss =>
    refine Or.inr ⟨ss, rfl, fun c hc => ?_⟩
    obtain ⟨i, hi⟩ := List.getElem?_of_mem hc
    have hlt : i < ss.length := by
      rw [sectionsFrom_length h]
      exact (List.getElem?_eq_some_iff.mp hi).1
    obtain ⟨d, hd, hmake⟩ := sectionsFrom_getElem h (List.getElem?_eq_getElem hlt)
    obtain rfl : c = d := Option.some.inj (hi.symm.trans hd)
    rw [Nat.zero_add] at hmake
    exact ⟨i, _, _, hi, hmake⟩

section Fetched
variable (k) (out : Defaults)

/-- With all files there, the clips can be made if they all start inside their files, and
otherwise one that does not is at fault. -/
theorem clipSections_cases (hfetched : ∀ s ∈ t.mentions, Fetched assets s) :
    (t.StartsInside assets ∧ ∃ clips,
        sectionsFrom (k.clipSection out assets) 0 0 t.clips = .ok clips) ∨
      ∃ (i : Nat) (c : Clip) (a : Asset) (d : Number), t.clips[i]? = some c ∧
        assets c.source.key = some a ∧ a.duration = some d ∧ Number.le d c.start = true ∧
        sectionsFrom (k.clipSection out assets) 0 0 t.clips =
          .error (.startPastEnd i c.start d) := by
  have hinputs : ∀ c ∈ t.clips, ∀ s ∈ c.inputSources, Fetched assets s :=
    fun c hc s hs => hfetched s (Timeline.mem_mentions (List.mem_append_left _ hc) hs)
  rcases exists_error_or_sections (k.clipSection out assets) 0 t.clips with
    ⟨f, i, c, n, hf, hc, hmake⟩ | ⟨clips, hclips, hmade⟩
  · obtain ⟨a, d, ha, hd, hle, rfl⟩ :=
      (clipSection_eq_error_iff (hinputs c (List.mem_of_getElem? hc))).mp hmake
    exact Or.inr ⟨i, c, a, d, hc, ha, hd, hle, hf⟩
  · refine Or.inl ⟨fun c hc a ha hpast => ?_, clips, hclips⟩
    obtain ⟨d, hd, hle⟩ := hpast
    obtain ⟨i, n, s, -, hmake⟩ := hmade c hc
    rw [(clipSection_eq_error_iff (hinputs c hc)).mpr ⟨a, d, ha, hd, hle, rfl⟩] at hmake
    cases hmake

theorem soundtrackSections_cases (next : Nat) (hfetched : ∀ s ∈ t.mentions, Fetched assets s) :
    (t.Sounds assets ∧ ∃ soundtrack,
        sectionsFrom (k.soundtrackSection out assets) 0 next t.soundtrack = .ok soundtrack) ∨
      ∃ (m : Nat) (c : Clip) (a : Asset), t.soundtrack[m]? = some c ∧
        assets c.source.key = some a ∧ a.hasAudio = false ∧
        sectionsFrom (k.soundtrackSection out assets) 0 next t.soundtrack =
          .error (.silentSoundtrack m) := by
  have hinputs : ∀ c ∈ t.soundtrack, ∀ s ∈ c.inputSources, Fetched assets s :=
    fun c hc s hs => hfetched s (Timeline.mem_mentions (List.mem_append_right _ hc) hs)
  rcases exists_error_or_sections (k.soundtrackSection out assets) next t.soundtrack with
    ⟨f, m, c, n, hf, hc, hmake⟩ | ⟨soundtrack, hsound, hmade⟩
  · obtain ⟨a, ha, hsilent, rfl⟩ :=
      (soundtrackSection_eq_error_iff (hinputs c (List.mem_of_getElem? hc))).mp hmake
    exact Or.inr ⟨m, c, a, hc, ha, hsilent, hf⟩
  · refine Or.inl ⟨fun c hc a ha => Bool.of_not_eq_false fun hsilent => ?_, soundtrack, hsound⟩
    obtain ⟨i, n, s, -, hmake⟩ := hmade c hc
    rw [(soundtrackSection_eq_error_iff (hinputs c hc)).mpr ⟨a, ha, hsilent, rfl⟩] at hmake
    cases hmake

theorem exists_clipSections (hfetched : ∀ s ∈ t.mentions, Fetched assets s)
    (hstarts : t.StartsInside assets) :
    ∃ clips, sectionsFrom (k.clipSection out assets) 0 0 t.clips = .ok clips := by
  rcases clipSections_cases k out hfetched with ⟨-, hclips⟩ | ⟨i, c, a, d, hc, ha, hd, hle, -⟩
  · exact hclips
  · exact absurd ⟨d, hd, hle⟩ (hstarts c (List.mem_of_getElem? hc) a ha)

theorem exists_soundtrackSections (next : Nat) (hfetched : ∀ s ∈ t.mentions, Fetched assets s)
    (hsounds : t.Sounds assets) :
    ∃ soundtrack, sectionsFrom (k.soundtrackSection out assets) 0 next t.soundtrack =
      .ok soundtrack := by
  rcases soundtrackSections_cases k out next hfetched with
    ⟨-, hsound⟩ | ⟨m, c, a, hc, ha, hsilent, -⟩
  · exact hsound
  · rw [hsounds c (List.mem_of_getElem? hc) a ha] at hsilent
    cases hsilent

end Fetched

/-! ### The ways to fail -/

instance : Decidable (t.StartsInside assets) :=
  inferInstanceAs (Decidable (∀ c ∈ t.clips, ∀ a ∈ assets c.source.key, ¬ c.StartsPastEnd a))

instance : Decidable (t.Sounds assets) :=
  inferInstanceAs (Decidable (∀ c ∈ t.soundtrack, ∀ a ∈ assets c.source.key, a.hasAudio = true))

theorem compile_of_check_error {f : TimelineFault} (h : t.check k.rounding = .error f) :
    k.compile t assets = .error (.check f) := by
  rw [Compiler.compile, h]
  rfl

theorem compile_of_not_fetched (hcheck : t.check k.rounding = .ok ())
    (h : ¬ ∀ s ∈ t.mentions, Fetched assets s) :
    ∃ place s, s ∈ t.mentions ∧ assets s.key = none ∧
      k.compile t assets = .error (.missingAsset place s) := by
  obtain ⟨f, hf⟩ := exists_error_of_not_ok fun hok => h (needAll_eq_ok_iff.mp hok)
  obtain ⟨place, s, hs, hnone, rfl⟩ := needAll_eq_error hf
  refine ⟨place, s, hs, hnone, ?_⟩
  rw [Compiler.compile, hcheck, hf]
  rfl

section Checked
variable (hcheck : t.check k.rounding = .ok ()) (hfetched : ∀ s ∈ t.mentions, Fetched assets s)
include hcheck hfetched

theorem compile_of_fetched :
    k.compile t assets =
      sectionsFrom (k.clipSection (k.defaults.under t.settings) assets) 0 0 t.clips >>= fun clips =>
      sectionsFrom (k.soundtrackSection (k.defaults.under t.settings) assets) 0
        (clips.flatMap Section.inputs).length t.soundtrack >>= fun soundtrack =>
      ((k.planOf t clips soundtrack).checkLabels Label.input?).mapError .labels >>= fun _ =>
      .ok (k.planOf t clips soundtrack) := by
  rw [Compiler.compile, hcheck, needAll_eq_ok_iff.mpr hfetched]
  rfl

theorem compile_of_not_startsInside (h : ¬ t.StartsInside assets) :
    ∃ (i : Nat) (c : Clip) (a : Asset) (d : Number), t.clips[i]? = some c ∧
      assets c.source.key = some a ∧ a.duration = some d ∧ Number.le d c.start = true ∧
      k.compile t assets = .error (.startPastEnd i c.start d) := by
  rcases clipSections_cases k (k.defaults.under t.settings) hfetched with
    ⟨hstarts, -⟩ | ⟨i, c, a, d, hc, ha, hd, hle, hmake⟩
  · exact absurd hstarts h
  · refine ⟨i, c, a, d, hc, ha, hd, hle, ?_⟩
    rw [compile_of_fetched hcheck hfetched]
    exact bind_eq_error_iff.mpr (Or.inl hmake)

theorem compile_of_not_sounds (hstarts : t.StartsInside assets) (h : ¬ t.Sounds assets) :
    ∃ (m : Nat) (c : Clip) (a : Asset), t.soundtrack[m]? = some c ∧
      assets c.source.key = some a ∧ a.hasAudio = false ∧
      k.compile t assets = .error (.silentSoundtrack m) := by
  obtain ⟨clips, hclips⟩ := exists_clipSections k (k.defaults.under t.settings) hfetched hstarts
  rcases soundtrackSections_cases k (k.defaults.under t.settings)
    (clips.flatMap Section.inputs).length hfetched with
    ⟨hsounds, -⟩ | ⟨m, c, a, hc, ha, hsilent, hmake⟩
  · exact absurd hsounds h
  · refine ⟨m, c, a, hc, ha, hsilent, ?_⟩
    rw [compile_of_fetched hcheck hfetched]
    exact bind_eq_error_iff.mpr (Or.inr ⟨clips, hclips, bind_eq_error_iff.mpr (Or.inl hmake)⟩)

/-- The check of the labels at the end refuses nothing. -/
theorem exists_plan (hstarts : t.StartsInside assets) (hsounds : t.Sounds assets) :
    ∃ p, k.compile t assets = .ok p := by
  obtain ⟨clips, hclips⟩ := exists_clipSections k (k.defaults.under t.settings) hfetched hstarts
  obtain ⟨soundtrack, hsound⟩ := exists_soundtrackSections k (k.defaults.under t.settings)
    (clips.flatMap Section.inputs).length hfetched hsounds
  have hsections : SectionsOf k t assets clips soundtrack :=
    ⟨nonempty_of_check hcheck, hfetched, hclips, hsound⟩
  exact ⟨_, compile_eq_ok_iff.mpr ⟨hcheck, needAll_eq_ok_iff.mpr hfetched, clips, soundtrack,
    hclips, hsound, Plan.checkLabels_eq_ok_iff.mpr hsections.planOf_sound, rfl⟩⟩

end Checked

/-! ### The outcome -/

/-- The faults of compiling are of four kinds. -/
theorem kind_of_compile_error {f : CompileFault} (h : k.compile t assets = .error f) :
    f.problem.kind ∈ [Problem.Kind.emptyTimeline, .invalidTrim, .invalidParameter, .missingAsset] ∧
      ∀ l, f ≠ .labels l := by
  cases hcheck : t.check k.rounding with
  | error g =>
    obtain rfl : .check g = f := by simpa [compile_of_check_error hcheck] using h
    have hkind := g.kind_problem
    exact ⟨by simp only [List.mem_cons, List.not_mem_nil, or_false] at hkind ⊢; tauto, nofun⟩
  | ok u =>
    by_cases hfetched : ∀ s ∈ t.mentions, Fetched assets s
    · by_cases hstarts : t.StartsInside assets
      · by_cases hsounds : t.Sounds assets
        · obtain ⟨p, hp⟩ := exists_plan hcheck hfetched hstarts hsounds
          rw [hp] at h
          cases h
        · obtain ⟨m, c, a, -, -, -, herr⟩ := compile_of_not_sounds hcheck hfetched hstarts hsounds
          obtain rfl : .silentSoundtrack m = f := by simpa [herr] using h
          exact ⟨by simp [CompileFault.problem], nofun⟩
      · obtain ⟨i, c, a, d, -, -, -, -, herr⟩ := compile_of_not_startsInside hcheck hfetched hstarts
        obtain rfl : .startPastEnd i c.start d = f := by simpa [herr] using h
        exact ⟨by simp [CompileFault.problem], nofun⟩
    · obtain ⟨place, s, -, -, herr⟩ := compile_of_not_fetched hcheck hfetched
      obtain rfl : .missingAsset place s = f := by simpa [herr] using h
      exact ⟨by simp [CompileFault.problem, Problem.missingAsset, Problem.make], nofun⟩

namespace Sample

/-- A remote file. -/
def file (name : String) : MediaSource :=
  if h : isGiven (some name) ≠ isGiven none then ⟨some name, none, h⟩
  else ⟨some "file", none, by decide⟩

/-- An image over the whole length of a clip. -/
def logo : Overlay :=
  ⟨.image (file "logo.png") none, some 10, none, .finite 0, none, .standard⟩

def title : Overlay :=
  ⟨.text "Day one" (by decide) none, none, some 20, .finite 1, some (.finite 3), .standard⟩

/-- Two clips with overlays, the second one from a file that is used twice, and a song. -/
def timeline : Timeline :=
  { clips :=
      [{ Clip.whole (file "beach.mp4") .video (.finite 1) with overlays := [title, logo] },
        { Clip.whole (file "beach.mp4") .video (.finite 1) with
          trim := some ⟨.finite 2, none, some (.finite 3)⟩, overlays := [logo] }]
    settings := .unset
    soundtrack := [Clip.whole (file "song.mp3") .audio (.finite 1)]
    soundtrack_audio := rfl }

/-- Its files; the video has a length, and the song may be silent. -/
def files (seconds : Rat) (sound : Bool) : Assets := fun key =>
  if key = "url:beach.mp4" then some ⟨"/work/0.mp4", true, true, some (.finite seconds)⟩
  else if key = "url:logo.png" then some ⟨"/work/1.png", true, false, none⟩
  else if key = "url:song.mp3" then some ⟨"/work/2.mp3", false, sound, some (.finite 90)⟩
  else none

theorem exists_plan : ∃ p, Compiler.standard.compile timeline (files 8 true) = .ok p :=
  Montage.exists_plan (by decide) (by decide +kernel) (by decide +kernel)
    (by decide)

end Sample

end Montage
