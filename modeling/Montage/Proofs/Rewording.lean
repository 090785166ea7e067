import Montage.Proofs.Assembly

/-! # Plans without their words

The words of overlays and the path of the font reach a plan in one place only, the filters that draw
text.  So a timeline whose words are blanked out compiles to the plan of the timeline with these
filters blanked out, or fails with the same fault (`compile_blank`): whatever is written in a video,
its chains, their labels and all other filters stay the same.
-/
namespace Montage

/-! ### Blanking out -/

/-- What a filter draws, if it draws text. -/
def Filter.drawn? : Filter → Option DrawText
  | drawText d => some d
  | _ => none

/-- The filter with blank words and no font, if it draws text. -/
def Filter.blank : Filter → Filter
  | drawText d => drawText { d with words := "text", fontFile := none }
  | f => f

def OverlayContent.blank : OverlayContent → OverlayContent
  | text _ _ source => text "text" (by decide) source
  | image source caption => image source caption

def Overlay.blank (o : Overlay) : Overlay := { o with content := o.content.blank }

def Clip.blank (c : Clip) : Clip := { c with overlays := c.overlays.map Overlay.blank }

/-- The timeline with blank words in all of its overlays. -/
def Timeline.blank (t : Timeline) : Timeline := { t with clips := t.clips.map Clip.blank }

def Compiler.blank (k : Compiler) : Compiler := { k with fontFile := none }

def Section.blank (s : Section) : Section := { s with stage := s.stage.map id Filter.blank }

/-- The plan with all of its filters blanked out. -/
def Plan.blank (p : Plan Label Filter) : Plan Label Filter := p.map id Filter.blank

theorem Filter.blank_of_undrawn {f : Filter} (h : f.drawn? = none) : f.blank = f := by
  cases f with
  | drawText d => cases h
  | _ => rfl

/-! ### Checks -/

theorem checkItems_map {α β ε : Type} {check : Nat → β → Except ε Unit} {g : α → β} {index : Nat}
    {l : List α} :
    checkItems check index (l.map g) = checkItems (fun i a => check i (g a)) index l := by
  induction l generalizing index with
  | nil => rfl
  | cons a rest ih =>
    rw [List.map_cons, checkItems, checkItems, ih]

theorem Clip.check_blank (r : Rounding) (c : Clip) : c.blank.check r = c.check r := by
  simp only [Clip.check, Clip.blank, checkItems_map]
  rfl

theorem Timeline.check_blank (r : Rounding) (t : Timeline) : t.blank.check r = t.check r := by
  simp only [Timeline.check, Timeline.blank, checkItems_map, List.isEmpty_map, Clip.check_blank]

variable {k : Compiler} {assets : Assets}

theorem needClip_blank (place : String) (c : Clip) :
    needClip assets place c.blank = needClip assets place c := by
  have hsource (o : Overlay) : o.blank.content.source? = o.content.source? := by
    cases h : o.content <;> simp [Overlay.blank, OverlayContent.blank, OverlayContent.source?, h]
  simp only [needClip, Clip.blank, checkItems_map, hsource]

theorem needAll_blank (t : Timeline) : needAll assets t.blank = needAll assets t := by
  simp only [needAll, Timeline.blank, checkItems_map, needClip_blank]

/-! ### Filters that draw no text -/

/-- None of the filters draws text. -/
def Undrawn (filters : List Filter) : Prop := ∀ f ∈ filters, f.drawn? = none

namespace Undrawn
variable {filters more : List Filter} {c : Clip}

theorem nil : Undrawn [] := fun _ h => absurd h List.not_mem_nil

theorem cons {f : Filter} (hf : f.drawn? = none) (h : Undrawn filters) : Undrawn (f :: filters) :=
  List.forall_mem_cons.mpr ⟨hf, h⟩

theorem append (h : Undrawn filters) (hmore : Undrawn more) : Undrawn (filters ++ more) :=
  List.forall_mem_append.mpr ⟨h, hmore⟩

theorem ite {holds : Prop} [Decidable holds] (h : Undrawn filters) (hmore : Undrawn more) :
    Undrawn (if holds then filters else more) := by
  split
  · exact h
  · exact hmore

theorem given {α : Type} {value : Option α} {filter : α → Filter}
    (h : ∀ x, (filter x).drawn? = none) : Undrawn (value.map filter).toList := by
  cases value with
  | none => exact nil
  | some x => exact cons (h x) nil

theorem above {t : FilterType} {filter : Number → Filter} (h : ∀ x, (filter x).drawn? = none) :
    Undrawn (c.filterAbove t filter) := by
  unfold Clip.filterAbove
  cases c.filterValue? t with
  | none => exact nil
  | some x => exact ite (cons (h x) nil) nil

theorem map_blank (h : Undrawn filters) : filters.map Filter.blank = filters := by
  rw [List.map_congr_left fun f hf => Filter.blank_of_undrawn (h f hf), List.map_id']

end Undrawn

open Undrawn

theorem undrawn_videoFilters (c : Clip) (t : Timing) : Undrawn (c.videoFilters t) := by
  unfold Clip.videoFilters
  refine .append (.append (.append (.append (.append (.append (.append (.append (.append
    (.cons rfl (.cons rfl .nil)) ?_) ?_) ?_) ?_) ?_) ?_) ?_) ?_) ?_
  · exact .ite .nil (.cons rfl .nil)
  · exact .ite .nil (.cons rfl .nil)
  · exact .given fun _ => rfl
  · exact .above fun _ => rfl
  · exact .above fun _ => rfl
  · exact .given fun _ => rfl
  · exact .given fun _ => rfl
  · exact .given fun _ => rfl
  · exact .given fun _ => rfl

theorem undrawn_canvas (out : Defaults) : Undrawn out.canvas :=
  .cons rfl (.cons rfl (.cons rfl (.cons rfl (.cons rfl .nil))))

theorem undrawn_blackFrame (out : Defaults) (duration : Number) :
    Undrawn (out.blackFrame duration) := .cons rfl (.cons rfl (.cons rfl .nil))

theorem undrawn_imageFilters (o : Overlay) : Undrawn o.imageFilters :=
  .append (.append (.given fun _ => rfl) (.cons rfl .nil)) (.ite (.cons rfl .nil) .nil)

theorem undrawn_audioFilters (c : Clip) (r : Rounding) (finish : Option Number) (rate : Int) :
    Undrawn (c.audioFilters r finish rate) := by
  refine .append (.append (.append (.cons rfl (.cons rfl .nil)) ?_) ?_) (.cons rfl .nil)
  · intro f hf
    obtain ⟨x, -, rfl⟩ := List.mem_map.mp hf
    rfl
  · exact .ite .nil (.cons rfl .nil)

theorem undrawn_audioChain (c : Clip) (r : Rounding) (clip : Nat) (a : Asset) (t : Timing)
    (input : Nat) (rate : Int) : Undrawn (c.audioChain r clip a t input rate).filters := by
  unfold Clip.audioChain
  split
  · exact .append (undrawn_audioFilters c r _ rate) (.cons rfl (.cons rfl .nil))
  · exact .cons rfl (.cons rfl (.cons rfl .nil))

/-- The chains behind those of the clips have one filter each, which draws no text. -/
theorem finishStages_filters {out : Defaults} {count items : Nat} {st : Stage Label Filter}
    (h : st ∈ finishStages out count items) :
    ∀ ch ∈ st.chains, ∃ f, ch.filters = [f] ∧ f.drawn? = none := by
  simp only [finishStages, List.mem_append, List.mem_singleton] at h
  rcases h with (rfl | h) | rfl
  · unfold joinStage
    split <;> exact List.forall_mem_cons.mpr
      ⟨⟨_, rfl, rfl⟩, List.forall_mem_singleton.mpr ⟨_, rfl, rfl⟩⟩
  · split at h
    · cases h
    · rw [List.mem_singleton.mp h]
      exact List.forall_mem_singleton.mpr ⟨_, rfl, rfl⟩
  · exact fun _ h => absurd h List.not_mem_nil

theorem undrawn_finishStages {out : Defaults} {count items : Nat} {st : Stage Label Filter}
    (h : st ∈ finishStages out count items) : ∀ ch ∈ st.chains, Undrawn ch.filters := by
  intro ch hch
  obtain ⟨f, hf, hnone⟩ := finishStages_filters h ch hch
  rw [hf]
  exact .cons hnone .nil

/-! ### Chains and sections -/

def Chain.blank (c : Chain Label Filter) : Chain Label Filter := c.map id Filter.blank

theorem Chain.blank_of_undrawn {c : Chain Label Filter} (h : Undrawn c.filters) : c.blank = c := by
  rw [blank, Chain.map, h.map_blank, List.map_id]
  rfl

theorem Stage.blank_of_undrawn {s : Stage Label Filter} (h : ∀ ch ∈ s.chains, Undrawn ch.filters) :
    s.map id Filter.blank = s := by
  have hchains : s.chains.map Chain.blank = s.chains := by
    rw [List.map_congr_left fun c hc => Chain.blank_of_undrawn (h c hc), List.map_id']
  have hmap : s.chains.map (Chain.map id Filter.blank) = s.chains := hchains
  rw [Stage.map, hmap, List.map_id]

theorem atLeastOne_blank (filters : List Filter) :
    (atLeastOne filters).map Filter.blank = atLeastOne (filters.map Filter.blank) := by
  cases filters <;> rfl

/-- Blank words give the chains with blank words, and need the same files. -/
theorem overlayChains_blank {clip index next : Nat} {inputs : List Label} {filters : List Filter}
    {os : List Overlay} :
    k.blank.overlayChains assets clip index next inputs (filters.map Filter.blank)
        (os.map Overlay.blank) =
      (k.overlayChains assets clip index next inputs filters os).map fun r =>
        (r.1.map Chain.blank, r.2) := by
  have hchain (inputs : List Label) (filters : List Filter) (output : Label) :
      Chain.blank ⟨inputs, filters, output⟩ = ⟨inputs, filters.map Filter.blank, output⟩ := by
    rw [Chain.blank, Chain.map, List.map_id]
    rfl
  induction os generalizing index next inputs filters with
  | nil =>
    simp only [List.map_nil, Compiler.overlayChains, Except.map, List.map_cons, hchain,
      atLeastOne_blank]
  | cons o rest ih =>
    cases hcontent : o.content with
    | text words written source =>
      have hblank : o.blank.content = .text "text" (by decide) source := by
        rw [Overlay.blank, hcontent, OverlayContent.blank]
      have hdrawn : filters.map Filter.blank ++ [.drawText (k.blank.drawText o.blank "text")] =
          (filters ++ [Filter.drawText (k.drawText o words)]).map Filter.blank := by
        rw [List.map_append]
        rfl
      simp only [List.map_cons, Compiler.overlayChains, hcontent, hblank, hdrawn]
      exact ih
    | image source caption =>
      have hblank : o.blank.content = .image source caption := by
        rw [Overlay.blank, hcontent, OverlayContent.blank]
      have himage : o.imageFilters.map Filter.blank = o.imageFilters :=
        (undrawn_imageFilters o).map_blank
      simp only [List.map_cons, Compiler.overlayChains, hcontent, hblank]
      cases need assets (clipPlace .clips clip ++ "." ++ itemPlace "overlays" index ++ ".source")
        source with
      | error f => rfl
      | ok a =>
        have hnext : k.blank.overlayChains assets clip (index + 1) (next + 1)
            [.base clip index, .image clip index]
            [.overlay o.blank.x o.blank.y ⟨o.blank.start, o.blank.finish⟩]
            (rest.map Overlay.blank) = _ :=
          @ih (index + 1) (next + 1) [.base clip index, .image clip index]
            [.overlay o.x o.y ⟨o.start, o.finish⟩]
        dsimp only
        rw [hnext]
        cases k.overlayChains assets clip (index + 1) (next + 1)
            [.base clip index, .image clip index] [.overlay o.x o.y ⟨o.start, o.finish⟩] rest with
        | error f => rfl
        | ok r =>
          simp only [Except.map, List.map_cons, hchain, atLeastOne_blank, himage]
          rfl

/-- Every clip starts from a picture in which nothing is drawn yet. -/
theorem exists_picture (k : Compiler) (out : Defaults) (next : Nat) (c : Clip) (a : Asset)
    (t : Timing) :
    ∃ inputs filters, Undrawn filters ∧
      (if c.mediaType == .video && a.hasVideo then
          ([Label.stream next .video], c.videoFilters t ++ out.canvas)
        else ([], out.blackFrame (t.duration k.rounding))) = (inputs, filters) := by
  cases c.mediaType == .video && a.hasVideo with
  | true => exact ⟨_, _, (undrawn_videoFilters c t).append (undrawn_canvas out), rfl⟩
  | false => exact ⟨_, _, undrawn_blackFrame _ _, rfl⟩

theorem clipSection_blank {out : Defaults} {index next : Nat} {c : Clip} :
    k.blank.clipSection out assets index next c.blank =
      (k.clipSection out assets index next c).map Section.blank := by
  unfold Compiler.clipSection
  rw [show c.blank.source = c.source from rfl]
  cases need assets (clipPlace .clips index ++ ".source") c.source with
  | error f => rfl
  | ok a =>
    have htiming : k.blank.timing index c.blank a = k.timing index c a := rfl
    simp only [bind, Except.bind, htiming]
    cases k.timing index c a with
    | error f => rfl
    | ok r =>
      obtain ⟨inputs, filters, hundrawn, hpicture⟩ := exists_picture k out next c a r.1
      have hblank : (if c.blank.mediaType == .video && a.hasVideo then
          ([Label.stream next .video], c.blank.videoFilters r.1 ++ out.canvas)
        else ([], out.blackFrame (r.1.duration k.blank.rounding))) = (inputs, filters) := hpicture
      have hchains : k.blank.overlayChains assets index 0 (next + 1) inputs filters
          c.blank.overlays =
          (k.overlayChains assets index 0 (next + 1) inputs filters c.overlays).map fun r =>
            (r.1.map Chain.blank, r.2) := by
        rw [← overlayChains_blank, hundrawn.map_blank]
        rfl
      have haudio : c.blank.audioChain k.blank.rounding index a r.1 next out.sampleRate =
          (c.audioChain k.rounding index a r.1 next out.sampleRate).blank :=
        (Chain.blank_of_undrawn (undrawn_audioChain _ _ _ _ _ _ _)).symm
      simp only [hpicture, hblank, hchains, haudio]
      cases k.overlayChains assets index 0 (next + 1) inputs filters c.overlays with
      | error f => rfl
      | ok chains =>
        simp only [Except.map, Section.blank, Stage.map, List.map_append, List.map_nil]
        rfl

theorem soundtrackSection_blank {out : Defaults} {index next : Nat} {c : Clip} :
    k.blank.soundtrackSection out assets index next c =
      (k.soundtrackSection out assets index next c).map Section.blank := by
  unfold Compiler.soundtrackSection
  cases need assets (clipPlace .soundtrack index ++ ".source") c.source with
  | error f => rfl
  | ok a =>
    have hsound : Chain.blank ⟨[.stream next .audio],
        c.audioFilters k.rounding (c.requestedEnd? k.rounding) out.sampleRate,
        .soundtrack index⟩ = _ := Chain.blank_of_undrawn (undrawn_audioFilters _ _ _ _)
    cases h : a.hasAudio with
    | false => simp [bind, Except.bind, ensure, h, Except.map]
    | true =>
      simp only [bind, Except.bind, ensure, h, Except.map, Section.blank, Stage.map, if_true,
        List.map_cons, List.map_nil]
      rw [show Chain.map id Filter.blank _ = _ from hsound]
      rfl

/-! ### Plans -/

theorem sectionsFrom_blank {make make' : Nat → Nat → Clip → Except CompileFault Section}
    {g : Clip → Clip} (h : ∀ i n c, make' i n (g c) = (make i n c).map Section.blank)
    {index next : Nat} {cs : List Clip} :
    sectionsFrom make' index next (cs.map g) =
      (sectionsFrom make index next cs).map (List.map Section.blank) := by
  induction cs generalizing index next with
  | nil => rfl
  | cons c rest ih =>
    simp only [List.map_cons, sectionsFrom, h]
    cases make index next c with
    | error f => rfl
    | ok s =>
      simp only [Except.map, bind, Except.bind, Section.blank, ih]
      cases sectionsFrom make (index + 1) (next + s.inputs.length) rest <;> rfl

theorem planOf_blank {t : Timeline} {clips soundtrack : List Section} :
    k.blank.planOf t.blank (clips.map Section.blank) (soundtrack.map Section.blank) =
      (k.planOf t clips soundtrack).blank := by
  have hfinish (out : Defaults) (count items : Nat) :
      (finishStages out count items).map (Stage.map id Filter.blank) =
        finishStages out count items := by
    rw [List.map_congr_left fun st hst => Stage.blank_of_undrawn (undrawn_finishStages hst),
      List.map_id']
  have hstages : (k.blank.planOf t.blank (clips.map Section.blank)
      (soundtrack.map Section.blank)).stages =
        (k.planOf t clips soundtrack).stages.map (Stage.map id Filter.blank) := by
    rw [planOf_stages, planOf_stages, List.map_append, List.map_append, hfinish, List.map_map,
      List.map_map, List.map_map, List.map_map, List.length_map, List.length_map]
    rfl
  rw [Plan.blank, Plan.map, ← hstages]
  simp only [Compiler.planOf, Compiler.assemble, ← List.map_append, List.flatMap_map, List.map_map]
  rfl

theorem checkLabels_blank (p : Plan Label Filter) :
    p.blank.checkLabels Label.input? = p.checkLabels Label.input? := by
  have hid (fault : LabelFault Label) : fault.map id = fault := by
    cases fault <;> simp [LabelFault.map]
  have hstream (l : Label) : (id l).input? = l.input? := rfl
  rw [Plan.blank, Plan.checkLabels_map Function.injective_id hstream]
  cases p.checkLabels Label.input? with
  | ok u => rfl
  | error fault => rw [mapError_error, hid]

/-- **A timeline with blank words compiles to the plan with blank words, or with the same fault.** -/
theorem compile_blank (k : Compiler) (t : Timeline) (assets : Assets) :
    k.blank.compile t.blank assets = (k.compile t assets).map Plan.blank := by
  have hclips (out : Defaults) : sectionsFrom (k.blank.clipSection out assets) 0 0 t.blank.clips =
      (sectionsFrom (k.clipSection out assets) 0 0 t.clips).map (List.map Section.blank) :=
    sectionsFrom_blank fun _ _ _ => clipSection_blank
  have hsoundtrack (out : Defaults) (next : Nat) :
      sectionsFrom (k.blank.soundtrackSection out assets) 0 next t.blank.soundtrack =
        (sectionsFrom (k.soundtrackSection out assets) 0 next t.soundtrack).map
          (List.map Section.blank) := by
    have hitems : sectionsFrom (k.blank.soundtrackSection out assets) 0 next
        (t.soundtrack.map id) =
          (sectionsFrom (k.soundtrackSection out assets) 0 next t.soundtrack).map
            (List.map Section.blank) := sectionsFrom_blank fun _ _ _ => soundtrackSection_blank
    rwa [List.map_id] at hitems
  have hplan (clips soundtrack : List Section) :
      k.blank.assemble (k.defaults.under t.settings) (clips.map Section.blank)
        (soundtrack.map Section.blank) =
          (k.assemble (k.defaults.under t.settings) clips soundtrack).blank := planOf_blank
  have hinputs (clips : List Section) : (clips.map Section.blank).flatMap Section.inputs =
      clips.flatMap Section.inputs := List.flatMap_map ..
  have hout : k.blank.defaults.under t.blank.settings = k.defaults.under t.settings := rfl
  unfold Compiler.compile
  rw [show k.blank.rounding = k.rounding from rfl, t.check_blank, needAll_blank]
  cases t.check k.rounding with
  | error f => rfl
  | ok u =>
    cases needAll assets t with
    | error f => rfl
    | ok u =>
      simp only [bind, Except.bind, mapError_ok, hout, hclips, hsoundtrack]
      cases sectionsFrom (k.clipSection (k.defaults.under t.settings) assets) 0 0 t.clips with
      | error f => rfl
      | ok clips =>
        simp only [Except.map, hinputs]
        cases sectionsFrom (k.soundtrackSection (k.defaults.under t.settings) assets) 0
          (clips.flatMap Section.inputs).length t.soundtrack with
        | error f => rfl
        | ok soundtrack =>
          simp only [hplan, checkLabels_blank]
          cases Plan.checkLabels Label.input?
            (k.assemble (k.defaults.under t.settings) clips soundtrack) <;> rfl

end Montage
