import Montage.Proofs.FiniteNumbers
import Montage.Asset.Upload

/-! # Texts of a fixed form

A colour, a bit rate and the suffix of an upload go into a command line or into the name of a file as
they came.  What guards them is their form: each has a grammar (`Form.Admits`), and the tests accept
exactly the texts of the grammar, with at most one line feed behind (`Form.accepts_iff`).

So a text that was tested consists of letters and figures of ASCII, points and number signs if it has
no line feed and all of its characters are of ASCII (`Form.Holds.forall_bare_iff`).  The tests ensure
neither: the line feed is overlooked, and the figures of a bit rate may be those of any script.
-/
namespace Montage

open Text Number

/-! ### Grammars -/

/-- Either a name, or six or eight hexadecimal digits behind a sign. -/
inductive ColorForm : List Char → Prop
  | name {cs : List Char} (some : cs ≠ []) (letters : ∀ c ∈ cs, isAsciiLetter c = true) : ColorForm cs
  | digits {sign ds : List Char} (sign_eq : sign = ['#'] ∨ sign = ['0', 'x'])
      (length : ds.length = 6 ∨ ds.length = 8) (digits : ∀ c ∈ ds, isHexDigit c = true) :
      ColorForm (sign ++ ds)

/-- Figures of any script, at least one. -/
def IsFigures (cs : List Char) : Prop := cs ≠ [] ∧ ∀ c ∈ cs, (digitValue? c).isSome = true

/-- A number, perhaps with places, and perhaps a unit. -/
inductive RateForm : List Char → Prop
  | whole {cs unit : List Char} (figures : IsFigures cs) (isUnit : isRateUnit unit = true) :
      RateForm (cs ++ unit)
  | places {cs ds unit : List Char} (figures : IsFigures cs) (more : IsFigures ds)
      (isUnit : isRateUnit unit = true) : RateForm (cs ++ '.' :: (ds ++ unit))

/-- A point and one to five letters or figures. -/
inductive SuffixForm : List Char → Prop
  | mk {cs : List Char} (some : cs ≠ []) (length : cs.length ≤ 5)
      (chars : ∀ c ∈ cs, isAsciiAlphanumeric c = true) : SuffixForm ('.' :: cs)

/-- What is guarded by nothing but its form. -/
inductive Form where
  | color
  | bitRate
  | suffix
  deriving DecidableEq, Repr

namespace Form

/-- The texts of a form. -/
def Admits : Form → List Char → Prop
  | color => ColorForm
  | bitRate => RateForm
  | suffix => SuffixForm

/-- The test for a form. -/
def accepts : Form → String → Bool
  | color, s => isColor s
  | bitRate, s => isBitrate s
  | suffix, s => isUploadSuffix s.toList

/-- A text of a form, perhaps with a line feed behind it. -/
def Holds (f : Form) (s : String) : Prop :=
  ∃ body, f.Admits body ∧ (s.toList = body ∨ s.toList = body ++ ['\n'])

end Form

/-! ### What the tests accept -/

/-- What is left without a line feed at the end, and how it was before. -/
theorem Text.dropFinalFeed_cases (cs : List Char) :
    cs = dropFinalFeed cs ∨ cs = dropFinalFeed cs ++ ['\n'] := by
  unfold dropFinalFeed
  split
  · rename_i rest hrest
    right
    rw [← List.reverse_reverse cs, hrest, List.reverse_cons]
  · exact Or.inl rfl

theorem Text.dropFinalFeed_append (cs : List Char) : dropFinalFeed (cs ++ ['\n']) = cs := by
  unfold dropFinalFeed
  rw [List.reverse_append, List.reverse_singleton, List.singleton_append]
  exact List.reverse_reverse cs

theorem isHexColor_iff {cs : List Char} : isHexColor cs = true ↔
    (cs.length = 6 ∨ cs.length = 8) ∧ ∀ c ∈ cs, isHexDigit c = true := by
  simp only [isHexColor, Bool.and_eq_true, Bool.or_eq_true, beq_iff_eq, List.all_eq_true]

theorem isColorBody_iff {cs : List Char} : isColorBody cs = true ↔ ColorForm cs := by
  constructor
  · intro h
    unfold isColorBody at h
    split at h
    · obtain ⟨hlength, hdigits⟩ := isHexColor_iff.mp h
      exact .digits (Or.inl rfl) hlength hdigits
    · obtain ⟨hlength, hdigits⟩ := isHexColor_iff.mp h
      exact .digits (Or.inr rfl) hlength hdigits
    · obtain ⟨hsome, hletters⟩ := Bool.and_eq_true_iff.mp h
      exact .name (by simpa using hsome) (List.all_eq_true.mp hletters)
  · intro h
    cases h with
    | digits sign length digits =>
      have hhex := isHexColor_iff.mpr ⟨length, digits⟩
      rcases sign with rfl | rfl <;> exact hhex
    | name hsome letters =>
      unfold isColorBody
      split
      · exact absurd (letters '#' List.mem_cons_self) (by decide)
      · exact absurd (letters '0' List.mem_cons_self) (by decide)
      · simpa [hsome] using letters

/-- The digits in front are the longest front of digits. -/
theorem takeDigits_cases (digit : Char → Option Nat) (cs : List Char) :
    ∃ front rest ds, cs = front ++ rest ∧ takeDigits digit cs = (ds, rest) ∧
      (ds = [] ↔ front = []) ∧ ∀ c ∈ front, (digit c).isSome = true := by
  induction cs with
  | nil => exact ⟨[], [], [], rfl, rfl, by simp, fun _ h => absurd h List.not_mem_nil⟩
  | cons c cs ih =>
    cases hc : digit c with
    | none =>
      refine ⟨[], c :: cs, [], rfl, ?_, by simp, fun _ h => absurd h List.not_mem_nil⟩
      rw [takeDigits, hc]
    | some d =>
      obtain ⟨front, rest, ds, rfl, htake, -, hfront⟩ := ih
      refine ⟨c :: front, rest, d :: ds, rfl, ?_, by simp, ?_⟩
      · simp only [takeDigits, hc, htake]
      · exact List.forall_mem_cons.mpr ⟨by rw [hc]; rfl, hfront⟩

/-- Digits in front of something else. -/
theorem takeDigits_figures {cs rest : List Char} (h : IsFigures cs)
    (hrest : ∀ c, rest.head? = some c → digitValue? c = none) :
    ∃ d ds, takeDigits digitValue? (cs ++ rest) = (d :: ds, rest) := by
  obtain ⟨hsome, hdigits⟩ := h
  induction cs with
  | nil => exact absurd rfl hsome
  | cons c cs ih =>
    obtain ⟨hc, hcs⟩ := List.forall_mem_cons.mp hdigits
    obtain ⟨d, hd⟩ := Option.isSome_iff_exists.mp hc
    by_cases hmore : cs = []
    · subst hmore
      refine ⟨d, [], ?_⟩
      cases rest with
      | nil => simp [takeDigits, hd]
      | cons e rest => simp [takeDigits, hd, hrest e rfl]
    · obtain ⟨d', ds, htake⟩ := ih hmore hcs
      refine ⟨d, d' :: ds, ?_⟩
      simp only [List.cons_append, takeDigits, hd, htake]

theorem mem_of_isRateUnit {unit : List Char} (h : isRateUnit unit = true) {c : Char}
    (hc : c ∈ unit) : c ∈ ['k', 'K', 'm', 'M'] := by
  unfold isRateUnit at h
  split at h
  · cases hc
  · simp only [Bool.or_eq_true, beq_iff_eq] at h
    rw [List.mem_singleton.mp hc]
    rcases h with ((rfl | rfl) | rfl) | rfl <;> decide
  · cases h

/-- A unit is no figure. -/
theorem head_isRateUnit {unit : List Char} (h : isRateUnit unit = true) {c : Char}
    (hc : unit.head? = some c) : digitValue? c = none ∧ c ≠ '.' := by
  have hmem := mem_of_isRateUnit h (List.mem_of_head? hc)
  simp only [List.mem_cons, List.not_mem_nil, or_false] at hmem
  rcases hmem with rfl | rfl | rfl | rfl <;> decide

theorem isBitrateBody_iff {cs : List Char} : isBitrateBody cs = true ↔ RateForm cs := by
  constructor
  · intro h
    -- the test splits on the digits in front; what is behind them decides between the two forms
    obtain ⟨front, rest, ds, rfl, htake, hds, hfront⟩ := takeDigits_cases digitValue? cs
    unfold isBitrateBody at h
    rw [htake] at h
    split at h
    · cases h
    · rename_i more hnone heq
      obtain ⟨rfl, rfl⟩ := Prod.mk.inj heq
      obtain ⟨front', rest', ds', rfl, htake', hds', hfront'⟩ := takeDigits_cases digitValue? more
      rw [htake'] at h
      split at h
      · cases h
      · rename_i hnone' heq'
        obtain ⟨rfl, rfl⟩ := Prod.mk.inj heq'
        refine .places ⟨fun e => ?_, hfront⟩ ⟨fun e => ?_, hfront'⟩ h
        · exact hnone (hds.mpr e)
        · exact hnone' (hds'.mpr e)
    · rename_i hnone _ heq
      obtain ⟨rfl, rfl⟩ := Prod.mk.inj heq
      exact .whole ⟨fun e => hnone (hds.mpr e), hfront⟩ h
  · intro h
    cases h with
    | whole figures isUnit =>
      obtain ⟨d, ds, htake⟩ := takeDigits_figures figures fun c hc => (head_isRateUnit isUnit hc).1
      unfold isBitrateBody
      rw [htake]
      split
      · rename_i heq
        cases heq
      · rename_i heq
        obtain ⟨-, rfl⟩ := Prod.mk.inj heq
        exact absurd rfl (head_isRateUnit isUnit rfl).2
      · rename_i heq
        obtain ⟨-, rfl⟩ := Prod.mk.inj heq
        exact isUnit
    | places figures more isUnit =>
      obtain ⟨d, ds, htake⟩ := takeDigits_figures more fun c hc => (head_isRateUnit isUnit hc).1
      have hpoint {rest : List Char} : ∀ c, ('.' :: rest).head? = some c → digitValue? c = none := by
        intro c hc
        cases hc
        decide
      obtain ⟨d', ds', htake'⟩ := takeDigits_figures figures hpoint
      unfold isBitrateBody
      rw [htake']
      simp only [htake]
      exact isUnit

theorem isUploadSuffix_iff {cs : List Char} :
    isUploadSuffix cs = true ↔ SuffixForm (dropFinalFeed cs) := by
  unfold isUploadSuffix
  constructor
  · intro h
    split at h
    · rename_i rest hrest
      simp only [Bool.and_eq_true, Bool.not_eq_true', List.isEmpty_eq_false_iff,
        decide_eq_true_eq, List.all_eq_true] at h
      rw [hrest]
      exact ⟨h.1.1, h.1.2, h.2⟩
    · cases h
  · intro h
    cases hdrop : dropFinalFeed cs with
    | nil => rw [hdrop] at h; cases h
    | cons c rest =>
      rw [hdrop] at h
      cases h with
      | mk hsome length chars => simp [hsome, length, List.all_eq_true.mpr chars]

/-! ### Characters -/

/-- Letters and figures of ASCII, the point and the number sign. -/
def isBareChar (c : Char) : Bool := isAsciiAlphanumeric c || c == '.' || c == '#'

theorem isAsciiFigure_iff {c : Char} : isAsciiFigure c = true ↔ 48 ≤ c.toNat ∧ c.toNat ≤ 57 := by
  simp only [isAsciiFigure, Bool.and_eq_true, decide_eq_true_eq]
  exact Iff.rfl

theorem isAsciiLetter_iff {c : Char} : isAsciiLetter c = true ↔
    97 ≤ c.toNat ∧ c.toNat ≤ 122 ∨ 65 ≤ c.toNat ∧ c.toNat ≤ 90 := by
  simp only [isAsciiLetter, Bool.or_eq_true, Bool.and_eq_true, decide_eq_true_eq]
  exact Iff.rfl

theorem isBareChar_iff {c : Char} : isBareChar c = true ↔
    isAsciiLetter c = true ∨ isAsciiFigure c = true ∨ c = '.' ∨ c = '#' := by
  simp only [isBareChar, isAsciiAlphanumeric, Bool.or_eq_true, beq_iff_eq, or_assoc]

theorem isAscii_of_isBareChar {c : Char} (h : isBareChar c = true) : isAscii c = true := by
  simp only [isAscii, decide_eq_true_eq]
  rcases isBareChar_iff.mp h with hletter | hfigure | rfl | rfl
  · have hrange := isAsciiLetter_iff.mp hletter
    omega
  · have hrange := isAsciiFigure_iff.mp hfigure
    omega
  · decide
  · decide

theorem isBareChar_of_isHexDigit {c : Char} (h : isHexDigit c = true) : isBareChar c = true := by
  have hrange : (48 ≤ c.toNat ∧ c.toNat ≤ 57) ∨ (97 ≤ c.toNat ∧ c.toNat ≤ 102) ∨
      (65 ≤ c.toNat ∧ c.toNat ≤ 70) := by
    unfold isHexDigit hexDigit? at h
    split at h
    · exact Or.inl ‹_›
    · split at h
      · exact Or.inr (Or.inl ‹_›)
      · split at h
        · exact Or.inr (Or.inr ‹_›)
        · cases h
  rw [isBareChar_iff, isAsciiLetter_iff, isAsciiFigure_iff]
  omega

/-- Only the figures of other scripts are no figures of ASCII. -/
theorem isBareChar_of_digit {c : Char} (h : (digitValue? c).isSome = true)
    (ascii : isAscii c = true) : isBareChar c = true := by
  -- the figures of ASCII are the first run, and all other runs lie behind ASCII
  have hothers : ∀ run ∈ digitRuns.tail, 128 ≤ run.1 := by decide
  rw [digitValue?, Option.isSome_map] at h
  obtain ⟨run, hrun⟩ := Option.isSome_iff_exists.mp h
  have hmem := List.mem_of_find?_eq_some hrun
  have hrange := List.find?_some hrun
  simp only [Bool.and_eq_true, decide_eq_true_eq, isAscii] at hrange ascii
  rw [digitRuns_eq] at hmem
  rw [isBareChar_iff, isAsciiFigure_iff]
  rcases List.mem_cons.mp hmem with rfl | hmem
  · exact Or.inr (Or.inl hrange)
  · have hlow := hothers run hmem
    omega

theorem isBareChar_of_isRateUnit {unit : List Char} (h : isRateUnit unit = true) {c : Char}
    (hc : c ∈ unit) : isBareChar c = true := by
  have hmem := mem_of_isRateUnit h hc
  simp only [List.mem_cons, List.not_mem_nil, or_false] at hmem
  rcases hmem with rfl | rfl | rfl | rfl <;> decide

namespace Form
variable {f : Form} {s : String} {body : List Char}

/-- Only the figures of a bit rate may be other characters. -/
theorem bare_or_figure (h : f.Admits body) {c : Char} (hc : c ∈ body) :
    isBareChar c = true ∨ f = .bitRate ∧ (digitValue? c).isSome = true := by
  cases f with
  | color =>
    left
    cases h with
    | name hsome letters => exact isBareChar_iff.mpr (Or.inl (letters c hc))
    | digits sign length digits =>
      rcases List.mem_append.mp hc with hc | hc
      · rcases sign with rfl | rfl
        · rw [List.mem_singleton.mp hc]
          decide
        · rcases List.mem_pair.mp hc with rfl | rfl <;> decide
      · exact isBareChar_of_isHexDigit (digits c hc)
  | bitRate =>
    cases h with
    | whole figures isUnit =>
      rcases List.mem_append.mp hc with hc | hc
      · exact Or.inr ⟨rfl, figures.2 c hc⟩
      · exact Or.inl (isBareChar_of_isRateUnit isUnit hc)
    | places figures more isUnit =>
      rcases List.mem_append.mp hc with hc | hc
      · exact Or.inr ⟨rfl, figures.2 c hc⟩
      rcases List.mem_cons.mp hc with rfl | hc
      · exact Or.inl (by decide)
      rcases List.mem_append.mp hc with hc | hc
      · exact Or.inr ⟨rfl, more.2 c hc⟩
      · exact Or.inl (isBareChar_of_isRateUnit isUnit hc)
  | suffix =>
    left
    cases h with
    | mk hsome length chars =>
      rcases List.mem_cons.mp hc with rfl | hc
      · decide
      · simp [isBareChar, chars c hc]

/-- No text of a form has a line feed. -/
theorem feed_not_mem (h : f.Admits body) : '\n' ∉ body := by
  intro hc
  rcases bare_or_figure h hc with hbare | ⟨-, hfigure⟩
  · exact absurd hbare (by decide)
  · exact absurd hfigure (by decide)

/-- **The tests accept the texts of the forms**, with at most one line feed behind. -/
theorem accepts_iff : f.accepts s = true ↔ f.Holds s := by
  have hbody : f.accepts s = true ↔ f.Admits (dropFinalFeed s.toList) := by
    cases f with
    | color => exact isColorBody_iff
    | bitRate => exact isBitrateBody_iff
    | suffix => exact isUploadSuffix_iff
  rw [hbody]
  constructor
  · intro h
    exact ⟨_, h, dropFinalFeed_cases s.toList⟩
  · rintro ⟨body, h, hs | hs⟩
    · rwa [hs, dropFinalFeed_of_not_mem (feed_not_mem h)]
    · rwa [hs, dropFinalFeed_append]

/-- **What makes a text of a form safe**: no line feed behind it, and no figures of other scripts. -/
theorem Holds.forall_bare_iff (h : f.Holds s) :
    (∀ c ∈ s.toList, isBareChar c = true) ↔
      '\n' ∉ s.toList ∧ (f = .bitRate → ∀ c ∈ s.toList, isAscii c = true) := by
  constructor
  · intro hall
    exact ⟨fun hfeed => absurd (hall _ hfeed) (by decide),
      fun _ c hc => isAscii_of_isBareChar (hall c hc)⟩
  · rintro ⟨hfeed, hascii⟩ c hc
    obtain ⟨body, hadmits, hs | hs⟩ := h
    · rcases bare_or_figure hadmits (hs ▸ hc) with hbare | ⟨hrate, hfigure⟩
      · exact hbare
      · exact isBareChar_of_digit hfigure (hascii hrate c hc)
    · exact absurd (hs ▸ List.mem_append_right body (List.mem_singleton_self _)) hfeed

end Form

/-! ### What a plan takes over as it came -/

/-- The colours that a text is drawn with. -/
def DrawText.colors (d : DrawText) : List String := d.color :: (nonempty? d.boxColor).toList

/-- The colours in some chains. -/
def colorsIn (chains : List (Chain Label Filter)) : List String :=
  chains.flatMap fun ch => (ch.filters.filterMap Filter.drawn?).flatMap DrawText.colors

/-- The bit rates among options, which stand in pairs. -/
def bitRates : List String → List String
  | name :: value :: rest =>
    if name = "-b:v" ∨ name = "-b:a" then value :: bitRates rest else bitRates rest
  | _ => []

/-- The texts that a plan takes over as they came, with the forms that guard them. -/
def Plan.bareTexts (p : Plan Label Filter) : List (Form × String) :=
  (colorsIn p.chains).map (Form.color, ·) ++
    (p.encoder?.toList.flatMap fun e => bitRates e.options).map (Form.bitRate, ·)

/-- The colours of an overlay, if it is a text. -/
def Overlay.drawnColors (o : Overlay) : List String :=
  match o.content with
  | .text .. => o.style.color :: (nonempty? o.style.boxColor).toList
  | .image .. => []

/-- The colours of the texts of a timeline, and its bit rates as far as it gives them. -/
def Timeline.bareTexts (t : Timeline) (d : Defaults) : List (Form × String) :=
  (t.clips.flatMap fun c => c.overlays.flatMap Overlay.drawnColors).map (Form.color, ·) ++
    [(Form.bitRate, (nonempty? t.settings.videoBitrate).getD d.videoBitrate),
      (Form.bitRate, (nonempty? t.settings.audioBitrate).getD d.audioBitrate)]

/-- A text stands in some arguments as it is; a colour inside one of them. -/
def Form.Reaches : Form → String → List String → Prop
  | color, s, arguments => ∃ a ∈ arguments, StandsIn (Plan.engineColor s) a
  | _, s, arguments => s ∈ arguments

section Plans
variable {k : Compiler} {t : Timeline} {assets : Assets} {p : Plan Label Filter}

theorem drawn_eq_nil {filters : List Filter} (h : Undrawn filters) :
    filters.filterMap Filter.drawn? = [] := List.filterMap_eq_nil_iff.mpr h

theorem colorsIn_append (chains more : List (Chain Label Filter)) :
    colorsIn (chains ++ more) = colorsIn chains ++ colorsIn more := List.flatMap_append

theorem colorsIn_of_undrawn {chains : List (Chain Label Filter)}
    (h : ∀ ch ∈ chains, Undrawn ch.filters) : colorsIn chains = [] := by
  refine List.flatMap_eq_nil_iff.mpr fun ch hch => ?_
  rw [drawn_eq_nil (h ch hch), List.flatMap_nil]

theorem drawn_atLeastOne (filters : List Filter) :
    (atLeastOne filters).filterMap Filter.drawn? = filters.filterMap Filter.drawn? := by
  unfold atLeastOne
  split
  · rename_i hnil
    rw [List.isEmpty_iff.mp hnil]
    rfl
  · rfl

/-- The chains of a picture draw what they are given, and then the texts among the overlays. -/
theorem colorsIn_layers {clip index next : Nat} {inputs : List Label} {filters : List Filter}
    {os : List Overlay} :
    colorsIn (k.layers clip index next inputs filters os) =
      (filters.filterMap Filter.drawn?).flatMap DrawText.colors ++ os.flatMap Overlay.drawnColors := by
  -- a text joins the filters of the chain at hand, an image has a chain that draws nothing
  induction os generalizing index next inputs filters with
  | nil => simp [Compiler.layers, colorsIn, drawn_atLeastOne]
  | cons o rest ih =>
    rw [List.flatMap_cons]
    cases hcontent : o.content with
    | text words written source =>
      have hcolors : o.drawnColors = (k.drawText o words).colors := by
        rw [Overlay.drawnColors, hcontent]
        rfl
      simp only [Compiler.layers, hcontent]
      rw [ih, hcolors, List.filterMap_append, List.flatMap_append, List.append_assoc]
      simp [Filter.drawn?]
    | image source caption =>
      have hcolors : o.drawnColors = [] := by rw [Overlay.drawnColors, hcontent]
      have hoverlay : [Filter.overlay o.x o.y ⟨o.start, o.finish⟩].filterMap Filter.drawn? = [] :=
        drawn_eq_nil (.cons rfl .nil)
      simp only [Compiler.layers, hcontent]
      rw [colorsIn, List.flatMap_cons, List.flatMap_cons, ← colorsIn, ih, drawn_atLeastOne,
        drawn_eq_nil (undrawn_imageFilters o), hoverlay, hcolors]
      rfl

theorem colorsIn_clipPart {out : Defaults} {i n : Nat} {c : Clip} {a : Asset} {tm : Timing}
    {said : List String} :
    colorsIn (k.clipPart out assets i n c a tm said).stage.chains =
      c.overlays.flatMap Overlay.drawnColors := by
  have hpicture : Undrawn (if c.isShown a then c.videoFilters tm ++ out.canvas
      else out.blackFrame (tm.duration k.rounding)) :=
    .ite ((undrawn_videoFilters c tm).append (undrawn_canvas out)) (undrawn_blackFrame _ _)
  rw [Compiler.clipPart, colorsIn_append, colorsIn_layers, drawn_eq_nil hpicture,
    colorsIn_of_undrawn (List.forall_mem_singleton.mpr (undrawn_audioChain _ _ _ _ _ _ _)),
    List.append_nil]
  rfl

/-- **The colours of a plan are those of its timeline's texts**, in order. -/
theorem colorsIn_chains (h : k.compile t assets = .ok p) :
    colorsIn p.chains = t.clips.flatMap fun c => c.overlays.flatMap Overlay.drawnColors := by
  obtain ⟨clips, soundtrack, hs, rfl⟩ := exists_sectionsOf h
  have hclips : clips.map (fun s => colorsIn s.stage.chains) =
      t.clips.zipIdx.map fun c => c.1.overlays.flatMap Overlay.drawnColors := by
    refine sectionsFrom_map hs.made fun i n c s hc hmake => ?_
    obtain ⟨a, tm, said, -, -, rfl⟩ := hs.eq_clipPart hc hmake
    exact colorsIn_clipPart
  have hsoundtrack : ∀ s ∈ soundtrack, ∀ ch ∈ s.stage.chains, Undrawn ch.filters := by
    intro s hmem
    obtain ⟨m, hm⟩ := List.getElem?_of_mem hmem
    obtain ⟨c, a, -, -, -, rfl⟩ := hs.soundtrack_getElem hm
    exact List.forall_mem_singleton.mpr (undrawn_audioFilters c _ _ _)
  have hrest : colorsIn (soundtrack.flatMap (fun s => s.stage.chains) ++
      (finishStages (k.defaults.under t.settings) clips.length soundtrack.length).flatMap
        Stage.chains) = [] := by
    refine colorsIn_of_undrawn (List.forall_mem_append.mpr ⟨?_, ?_⟩)
    · exact List.forall_mem_flatMap.mpr hsoundtrack
    · exact List.forall_mem_flatMap.mpr fun st hst => undrawn_finishStages hst
  rw [Plan.chains, planOf_stages, List.flatMap_append, List.flatMap_append, List.flatMap_map,
    List.flatMap_map, List.append_assoc, colorsIn_append, hrest, List.append_nil, colorsIn,
    List.flatMap_assoc, List.flatMap_def]
  change (clips.map fun s => colorsIn s.stage.chains).flatten = _
  rw [hclips, ← List.flatMap_def]
  conv_rhs => rw [← List.zipIdx_map_fst 0 t.clips, List.flatMap_map]

/-- The encoder of a compiled plan. -/
theorem encoder?_of_compile (h : k.compile t assets = .ok p) :
    p.encoder? = some (k.defaults.under t.settings).encodeStage := by
  obtain ⟨clips, soundtrack, hs, rfl⟩ := exists_sectionsOf h
  have hclips : ∀ st ∈ clips.map Section.stage, st.kind ≠ .encode := by
    refine List.forall_mem_map.mpr fun s hmem => ?_
    obtain ⟨i, hi⟩ := List.getElem?_of_mem hmem
    obtain ⟨c, a, tm, said, -, -, -, rfl⟩ := hs.clip_getElem hi
    exact StageKind.noConfusion
  have hsoundtrack : ∀ st ∈ soundtrack.map Section.stage, st.kind ≠ .encode := by
    refine List.forall_mem_map.mpr fun s hmem => ?_
    obtain ⟨m, hm⟩ := List.getElem?_of_mem hmem
    obtain ⟨c, a, -, -, -, rfl⟩ := hs.soundtrack_getElem hm
    exact StageKind.noConfusion
  have hnone {stages : List (Stage Label Filter)} (h : ∀ st ∈ stages, st.kind ≠ .encode) :
      stages.filter (fun st => st.kind == .encode) = [] :=
    List.filter_eq_nil_iff.mpr fun st hst => by simpa using h st hst
  have hfinish (out : Defaults) (count items : Nat) :
      (finishStages out count items).filter (fun st => st.kind == .encode) = [out.encodeStage] := by
    unfold finishStages joinStage
    split <;> split <;> rfl
  rw [Plan.encoder?, Plan.stagesOf, planOf_stages, List.filter_append, List.filter_append,
    hnone hclips, hnone hsoundtrack, hfinish]
  rfl

/-- **A plan takes over what its timeline gives**, and the bit rates of the defaults. -/
theorem bareTexts_of_compile (h : k.compile t assets = .ok p) :
    p.bareTexts = t.bareTexts k.defaults := by
  rw [Plan.bareTexts, Timeline.bareTexts, colorsIn_chains h, encoder?_of_compile h]
  rfl

/-- A colour stands in an option. -/
theorem DrawText.exists_colorOption {d : DrawText} {s : String} (hs : s ∈ d.colors) :
    ∃ o ∈ d.options, StandsIn (Plan.engineColor s) (optionText o) := by
  rcases List.mem_cons.mp hs with rfl | hs
  · let opacity := if isTranslucent d.opacity then "@" ++ d.opacity.sixPlaces else ""
    refine ⟨("fontcolor", .plain (Plan.engineColor d.color ++ opacity)), ?_, ?_⟩
    · simp [options, opacity]
    · exact ((StandsIn.self _).before _).behind _
  · refine ⟨("boxcolor", .plain (Plan.engineColor s)), ?_, ?_⟩
    · simp [options, Option.mem_toList.mp hs]
    · exact (StandsIn.self _).behind _

theorem bitRates_subset (options : List String) : bitRates options ⊆ options := by
  induction options using bitRates.induct with
  | case1 name value rest hname ih =>
    rw [bitRates, if_pos hname]
    exact List.subset_cons_of_subset name (List.cons_subset_cons value ih)
  | case2 name value rest hname ih =>
    rw [bitRates, if_neg hname]
    exact List.subset_cons_of_subset name (List.subset_cons_of_subset value ih)
  | case3 options hshort =>
    rw [bitRates]
    · exact List.nil_subset _
    · exact hshort

/-- The encoder of a plan as text has the same options. -/
theorem options_encoder?_toText (p : Plan Label Filter) :
    p.toText.encoder?.map Stage.options = p.encoder?.map Stage.options := by
  rw [Plan.encoder?, Plan.encoder?, Plan.stagesOf, Plan.toText, Plan.map, List.filter_map,
    List.head?_map, Option.map_map]
  rfl

/-- **What a plan takes over reaches the engine as it is.** -/
theorem reaches_arguments {f : Form} {s : String} (hs : (f, s) ∈ p.bareTexts) {program : String}
    {extra arguments : List String} (h : p.toText.arguments? program extra = some arguments) :
    f.Reaches s arguments := by
  obtain ⟨e, he, rfl⟩ := Option.map_eq_some_iff.mp h
  rcases List.mem_append.mp hs with hs | hs
  · obtain ⟨s, hs, heq⟩ := List.mem_map.mp hs
    cases heq
    obtain ⟨ch, hch, hs⟩ := List.mem_flatMap.mp hs
    obtain ⟨d, hd, hs⟩ := List.mem_flatMap.mp hs
    obtain ⟨filter, hfilter, hdrawn⟩ := List.mem_filterMap.mp hd
    obtain rfl : filter = .drawText d := by
      cases filter <;> cases hdrawn
      rfl
    obtain ⟨o, ho, hstands⟩ := DrawText.exists_colorOption hs
    refine ⟨p.toText.graph, by simp, Plan.stands_graph_of_filter hch hfilter ?_⟩
    rw [text_drawText]
    exact (hstands.intercalate (List.mem_map_of_mem ho)).behind _
  · obtain ⟨s, hs, heq⟩ := List.mem_map.mp hs
    cases heq
    obtain ⟨e', he', hs⟩ := List.mem_flatMap.mp hs
    have hoptions := options_encoder?_toText p
    rw [he, Option.mem_toList.mp he'] at hoptions
    have hmem : s ∈ e.options := by
      rw [Option.some.inj hoptions]
      exact bitRates_subset _ hs
    show s ∈ _
    simp [hmem]

/-- The bit rates of the defaults that settings leave in force. -/
def OutputSettings.openRates (s : OutputSettings) (d : Defaults) : List String :=
  (if s.videoBitrate.isNone then [d.videoBitrate] else []) ++
    (if s.audioBitrate.isNone then [d.audioBitrate] else [])

theorem holds_of_checkedColors {o : Overlay} (checked : o.check = .ok ()) {s : String}
    (hs : s ∈ o.drawnColors) : Form.color.Holds s := by
  simp only [Overlay.check, andThen_eq_ok_iff, ensure_eq_ok_iff, ifGiven_eq_ok_iff] at checked
  obtain ⟨-, -, -, -, -, hcolor, hbox⟩ := checked
  refine Form.accepts_iff.mp ?_
  unfold Overlay.drawnColors at hs
  split at hs
  · rcases List.mem_cons.mp hs with rfl | hs
    · exact hcolor
    · obtain ⟨hgiven, -⟩ := Option.filter_eq_some_iff.mp (Option.mem_toList.mp hs)
      exact hbox s hgiven
  · cases hs

/-- A bit rate that is in force was checked, or is one of the defaults. -/
theorem holds_rate {given : Option String} {standard : String}
    (checked : ∀ b, given = some b → isBitrate b = true) :
    Form.bitRate.Holds ((nonempty? given).getD standard) ∨
      given = none ∧ (nonempty? given).getD standard = standard := by
  cases given with
  | none => exact Or.inr ⟨rfl, rfl⟩
  | some b =>
    have hb := checked b rfl
    -- an empty bit rate would be no bit rate, so what was checked is what is in force
    have hsome : b.isEmpty = false := by
      by_contra hempty
      rw [Bool.not_eq_false, String.isEmpty_iff] at hempty
      subst hempty
      cases hb
    left
    rw [nonempty?, Option.filter_some, hsome]
    exact Form.accepts_iff.mp hb

/-- **Every text that a plan takes over has its form**, unless it is a default. -/
theorem holds_of_compile (h : k.compile t assets = .ok p) {f : Form} {s : String}
    (hs : (f, s) ∈ p.bareTexts) :
    f.Holds s ∨ f = .bitRate ∧ s ∈ t.settings.openRates k.defaults := by
  have hcheck := (compile_eq_ok_iff.mp h).1
  have hsettings := settings_checked hcheck
  simp only [OutputSettings.check, andThen_eq_ok_iff, ifGiven_eq_ok_iff, ensure_eq_ok_iff]
    at hsettings
  obtain ⟨-, -, -, hvideo, haudio⟩ := hsettings
  rw [bareTexts_of_compile h] at hs
  rcases List.mem_append.mp hs with hs | hs
  · obtain ⟨s, hs, heq⟩ := List.mem_map.mp hs
    cases heq
    obtain ⟨c, hc, hs⟩ := List.mem_flatMap.mp hs
    obtain ⟨o, ho, hs⟩ := List.mem_flatMap.mp hs
    exact Or.inl (holds_of_checkedColors (overlays_checked hcheck hc o ho) hs)
  · rcases List.mem_pair.mp hs with heq | heq
    · obtain ⟨rfl, rfl⟩ := Prod.mk.inj heq
      refine (holds_rate hvideo).imp_right fun hopen => ⟨rfl, ?_⟩
      simp [OutputSettings.openRates, hopen.1, nonempty?]
    · obtain ⟨rfl, rfl⟩ := Prod.mk.inj heq
      refine (holds_rate haudio).imp_right fun hopen => ⟨rfl, ?_⟩
      simp [OutputSettings.openRates, hopen.1, nonempty?]

theorem holds_uploadSuffix (name : String) :
    uploadSuffix name = "" ∨ Form.suffix.Holds (uploadSuffix name) := by
  rw [uploadSuffix]
  split
  · rename_i hsuffix
    right
    refine Form.accepts_iff.mp ?_
    rwa [Form.accepts, String.toList_ofList]
  · exact Or.inl rfl

/-- **What goes into a command line as it came has a form.**  The colours and bit rates of a compiled
plan are those that the timeline gives, and they stand in the arguments of the engine as they are;
each of them, and each suffix of an upload, is a text of its form with at most one line feed behind.
It consists of letters and figures of ASCII, `.` and `#` if and only if there is no line feed and, of
a bit rate, all figures are of ASCII. -/
theorem bare_texts_formed (h : k.compile t assets = .ok p) :
    p.bareTexts = t.bareTexts k.defaults ∧
      (∀ f s, (f, s) ∈ p.bareTexts →
        (f.Holds s ∨ f = .bitRate ∧ s ∈ t.settings.openRates k.defaults) ∧
          ∀ program extra arguments, p.toText.arguments? program extra = some arguments →
            f.Reaches s arguments) ∧
      (∀ name, uploadSuffix name = "" ∨ Form.suffix.Holds (uploadSuffix name)) ∧
      ∀ (f : Form) (s : String), f.Holds s → ((∀ c ∈ s.toList, isBareChar c = true) ↔
        '\n' ∉ s.toList ∧ (f = .bitRate → ∀ c ∈ s.toList, isAscii c = true)) := by
  refine ⟨bareTexts_of_compile h, fun f s hs => ⟨holds_of_compile h hs, ?_⟩, holds_uploadSuffix,
    fun f s hholds => hholds.forall_bare_iff⟩
  intro program extra arguments harguments
  exact reaches_arguments hs harguments

end Plans

theorem bare_texts_formed_sample :
    ∃ p, Compiler.standard.compile Sample.timeline (Sample.files 8 true) = .ok p ∧
      p.bareTexts = [(.color, "white"), (.bitRate, "4M"), (.bitRate, "160k")] ∧
      Form.color.Holds "white" ∧ ∀ c ∈ "white".toList, isBareChar c = true := by
  obtain ⟨p, hp⟩ := Sample.exists_plan
  obtain ⟨htexts, hforms, -, hchars⟩ := bare_texts_formed hp
  have hwhite : p.bareTexts = [(.color, "white"), (.bitRate, "4M"), (.bitRate, "160k")] := htexts
  have hholds : Form.color.Holds "white" :=
    (hforms .color "white" (hwhite ▸ List.mem_cons_self)).1.resolve_right (by simp)
  exact ⟨p, hp, hwhite, hholds, (hchars _ _ hholds).mpr ⟨by decide, by simp⟩⟩

namespace Sample

/-- A colour that ends with a line feed, and a bit rate with an Arabic figure. -/
def strayTimeline : Timeline :=
  { film with
    clips :=
      [{ Clip.whole (file "beach.mp4") .video (.finite 1) with
          overlays := [{ title with style := { OverlayStyle.standard with color := "red\n" } }] }]
    settings := { OutputSettings.unset with videoBitrate := some "٤M" } }

end Sample

/-- Both tests let a character pass that is none of these, and so does that of an upload's suffix. -/
theorem stray_characters :
    ∃ p, Compiler.standard.compile Sample.strayTimeline (Sample.files 8 true) = .ok p ∧
      p.bareTexts = [(.color, "red\n"), (.bitRate, "٤M"), (.bitRate, "160k")] ∧
      uploadSuffix "a.mp4\n" = ".mp4\n" ∧
      isBareChar '\n' = false ∧ isBareChar '٤' = false := by
  obtain ⟨p, hp⟩ : ∃ p, Compiler.standard.compile Sample.strayTimeline (Sample.files 8 true) =
      .ok p := exists_plan (by decide +kernel) (by decide +kernel) (by decide +kernel) (by decide)
  exact ⟨p, hp, bareTexts_of_compile hp, by decide +kernel, by decide, by decide⟩

end Montage
