import Montage.Proofs.CompileOutcome
import Montage.Proofs.FilterText
import Montage.Proofs.Rewording

/-! # The text of a filter graph

The engine gets the graph of a plan as one text and takes it apart again: at bare semicolons into
chains, each of these at bare brackets into labels and filters, and the filters at bare commas
(`readGraph?`).  What it reads of a compiled plan are the chains of the plan, with their labels and
filters (`graph_read`).

The words of overlays and the path of the font stand in the middle of this text.  Other words or
another font give other filters that draw text and change nothing else that is read.
-/
namespace Montage

open Plan

/-! ### A reader of graphs -/

namespace Plan

/-- What a chain falls into at bare brackets; brackets that do not fit are stray. -/
inductive Piece where
  | label (text : List Char)
  | filters (marks : List (Char × Role))
  | stray
  deriving DecidableEq, Repr

def Piece.label? : Piece → Option String
  | label text => some (.ofList text)
  | _ => none

/-- What was read since the last bracket, when none is there that would end it as a label. -/
def Piece.unclosed (inside : Bool) (read : List (Char × Role)) : List Piece :=
  if inside then [.stray] else if read.isEmpty then [] else [.filters read]

/-- Takes a chain apart at bare brackets; `read` was read since the last one, and it stands inside of
brackets or not. -/
def pieces (inside : Bool) (read : List (Char × Role)) : List (Char × Role) → List Piece
  | [] => Piece.unclosed inside read
  | m :: rest =>
    if separates '[' m then Piece.unclosed inside read ++ pieces true [] rest
    else if separates ']' m then
      (if inside then .label (kept read) else .stray) :: pieces false [] rest
    else pieces inside (read ++ [m]) rest

/-- Reads a chain: labels, then filters between bare commas, then one label. -/
def readChain? (marks : List (Char × Role)) : Option (Chain String String) :=
  let found := pieces false [] marks
  match found.dropWhile fun p => p.label?.isSome with
  | [.filters middle, .label output] =>
    some ⟨(found.takeWhile fun p => p.label?.isSome).filterMap Piece.label?,
      (middle.splitOnP (separates ',')).map fun f => .ofList (kept f), .ofList output⟩
  | _ => none

/-- Drops a line feed at the beginning. -/
def dropFeed : List (Char × Role) → List (Char × Role)
  | ('\n', .bare) :: rest => rest
  | marks => marks

/-- What stands between the bare semicolons of a graph, without the line feeds behind them. -/
def segments (graph : String) : List (List (Char × Role)) :=
  match (scan false graph.toList).splitOnP (separates ';') with
  | [] => []
  | first :: rest => first :: rest.map dropFeed

/-- Reads a graph, chain by chain. -/
def readGraph? (graph : String) : Option (List (Chain String String)) :=
  (segments graph).mapM readChain?

end Plan

/-! ### Reading one chain -/

theorem mapM_eq_some_map {α β γ : Type} {f : α → β} {read : β → Option γ} {g : α → γ} {l : List α}
    (h : ∀ a ∈ l, read (f a) = some (g a)) : (l.map f).mapM read = some (l.map g) := by
  induction l with
  | nil => rfl
  | cons a rest ih =>
    obtain ⟨ha, hrest⟩ := List.forall_mem_cons.mp h
    simp [ha, ih hrest]

section Pieces
variable {inside : Bool} {read rest w : List (Char × Role)} {cs : List Char}

/-- No bare bracket is there. -/
def Unbracketed (w : List (Char × Role)) : Prop :=
  ∀ m ∈ w, separates '[' m = false ∧ separates ']' m = false

theorem unbracketed_of_isWord {separators : List Char} (h : IsWord separators cs)
    (hopen : '[' ∈ separators) (hclose : ']' ∈ separators) : Unbracketed (scan false cs) :=
  fun m hm => ⟨h.not_separates hopen m hm, h.not_separates hclose m hm⟩

theorem pieces_append (h : Unbracketed w) :
    pieces inside read (w ++ rest) = pieces inside (read ++ w) rest := by
  induction w generalizing read with
  | nil => rw [List.nil_append, List.append_nil]
  | cons m w ih =>
    obtain ⟨⟨hopen, hclose⟩, hw⟩ := List.forall_mem_cons.mp h
    rw [List.cons_append, pieces, hopen, hclose, if_neg Bool.false_ne_true,
      if_neg Bool.false_ne_true, ih hw, List.append_assoc, List.singleton_append]

/-- A text between brackets is a label. -/
theorem pieces_label (h : Unbracketed w) :
    pieces false read (('[', .bare) :: w ++ (']', .bare) :: rest) =
      Piece.unclosed false read ++ .label (kept w) :: pieces false [] rest := by
  have hopen : separates '[' ('[', Role.bare) = true := rfl
  have hclose : separates ']' (']', Role.bare) = true := rfl
  have hnot : separates '[' (']', Role.bare) = false := rfl
  rw [List.cons_append, pieces, if_pos hopen, pieces_append h, List.nil_append, pieces, hnot,
    if_neg Bool.false_ne_true, if_pos hclose, if_pos rfl]

end Pieces

/-- A chain whose texts can stand beside each other. -/
structure Chain.IsWritable (c : Chain String String) : Prop where
  labels : ∀ l ∈ c.inputs, IsPlain l
  output : IsPlain c.output
  filters : ∀ f ∈ c.filters, IsWord graphSeparators f.toList
  present : (",".intercalate c.filters).toList ≠ []

/-- A chain as it is read: one level of escaping is undone in its filters. -/
def Chain.asRead (c : Chain String String) : Chain String String :=
  ⟨c.inputs, c.filters.map fun f => .ofList (undo f.toList), c.output⟩

theorem toList_commas (texts : List String) :
    (",".intercalate texts).toList = [','].intercalate (texts.map String.toList) := by
  rw [String.toList_intercalate]
  rfl

section Bracketed
variable {l : String}

theorem toList_bracketed (l : String) : (bracketed l).toList = '[' :: l.toList ++ [']'] := by
  simp [bracketed]

theorem scan_bracketed (h : IsPlain l) : scan false (bracketed l).toList =
    ('[', .bare) :: scan false l.toList ++ [(']', .bare)] := by
  rw [toList_bracketed, List.cons_append, scan_bare (by decide) (by decide),
    h.isWord.scan_append_bare (by decide) (by decide), scan_nil]
  rfl

/-- A label between brackets is no end of a chain. -/
theorem isWord_bracketed (h : IsPlain l) : IsWord [';'] (bracketed l).toList := by
  have hbracket (c : Char) (hc : c ≠ '\\' ∧ c ≠ '\'' ∧ c ∉ [';']) : IsWord [';'] [c] :=
    .of_plain (by simpa using hc)
  rw [toList_bracketed]
  exact ((hbracket '[' (by decide)).append (h.isWord.mono (by decide))).append
    (hbracket ']' (by decide))

end Bracketed

/-- Labels that stand beside each other are found one by one. -/
theorem pieces_labels {ls : List String} (h : ∀ l ∈ ls, IsPlain l) (rest : List (Char × Role)) :
    pieces false [] ((ls.flatMap fun l => scan false (bracketed l).toList) ++ rest) =
      ls.map (fun l => .label l.toList) ++ pieces false [] rest := by
  induction ls with
  | nil => rfl
  | cons l ls ih =>
    obtain ⟨hl, hls⟩ := List.forall_mem_cons.mp h
    have hlabel (rest : List (Char × Role)) :
        pieces false [] (('[', .bare) :: scan false l.toList ++ (']', .bare) :: rest) =
          .label (kept (scan false l.toList)) :: pieces false [] rest :=
      pieces_label (unbracketed_of_isWord hl.isWord (by decide) (by decide))
    have hkept : kept (scan false l.toList) = l.toList := hl.undo_eq
    rw [List.flatMap_cons, scan_bracketed hl, List.append_assoc, List.append_assoc,
      List.singleton_append, hlabel, hkept, ih hls]
    rfl

namespace Chain.IsWritable
variable {c : Chain String String}

theorem isWord_filters (h : c.IsWritable) :
    IsWord ['[', ']', ';'] (",".intercalate c.filters).toList := by
  rw [toList_commas]
  refine .joined (by decide) (by decide) (by decide) fun w hw => ?_
  obtain ⟨f, hf, rfl⟩ := List.mem_map.mp hw
  exact (h.filters f hf).mono (by decide)

theorem isWord_inputs (h : c.IsWritable) :
    IsWord [';'] (String.join (c.inputs.map bracketed)).toList := by
  rw [String.toList_join, List.flatMap_def, List.map_map]
  refine .flatten fun w hw => ?_
  obtain ⟨l, hl, rfl⟩ := List.mem_map.mp hw
  exact isWord_bracketed (h.labels l hl)

/-- The text of a chain has no bare semicolon. -/
theorem isWord_render (h : c.IsWritable) : IsWord [';'] c.render.toList := by
  rw [Chain.render, String.toList_append, String.toList_append]
  exact (h.isWord_inputs.append (h.isWord_filters.mono (by decide))).append
    (isWord_bracketed h.output)

/-- **A chain falls into its labels and its filters.** -/
theorem pieces_render (h : c.IsWritable) : pieces false [] (scan false c.render.toList) =
    c.inputs.map (fun l => .label l.toList) ++
      [.filters (scan false (",".intercalate c.filters).toList), .label c.output.toList] := by
  have hinputs : scan false (String.join (c.inputs.map bracketed)).toList =
      c.inputs.flatMap fun l => scan false (bracketed l).toList := by
    have hwords : ∀ w ∈ (c.inputs.map bracketed).map String.toList, IsWord [';'] w := by
      rw [List.map_map, List.forall_mem_map]
      exact fun l hl => isWord_bracketed (h.labels l hl)
    rw [String.toList_join, List.flatMap_def, IsWord.scan_flatten hwords, List.map_map,
      List.flatMap_map]
    rfl
  have hmiddle := unbracketed_of_isWord h.isWord_filters (by decide) (by decide)
  have houtput := unbracketed_of_isWord h.output.isWord (by decide) (by decide)
  have hkept : kept (scan false c.output.toList) = c.output.toList := h.output.undo_eq
  have hpresent : (scan false (",".intercalate c.filters).toList).isEmpty = false := by
    rw [List.isEmpty_eq_false_iff]
    intro hnone
    have hlost := map_fst_scan false (",".intercalate c.filters).toList
    rw [hnone] at hlost
    exact h.present hlost.symm
  rw [Chain.render, String.toList_append, String.toList_append, List.append_assoc,
    h.isWord_inputs.closed, h.isWord_filters.closed, hinputs, pieces_labels h.labels,
    pieces_append hmiddle, scan_bracketed h.output, List.nil_append, pieces_label houtput, hkept]
  rw [Piece.unclosed, if_neg Bool.false_ne_true, hpresent, if_neg Bool.false_ne_true]
  rfl

/-- **A chain is read as it was meant.** -/
theorem readChain?_render (h : c.IsWritable) :
    readChain? (scan false c.render.toList) = some c.asRead := by
  have hlabels : ∀ p ∈ c.inputs.map fun l => Piece.label l.toList, p.label?.isSome = true := by
    rw [List.forall_mem_map]
    exact fun l _ => rfl
  have hfilters : (scan false (",".intercalate c.filters).toList).splitOnP (separates ',') =
      (c.filters.map String.toList).map (scan false) := by
    have hne : c.filters.map String.toList ≠ [] := by
      intro hnone
      exact h.present (by rw [toList_commas, hnone]; rfl)
    rw [toList_commas]
    have hwords : ∀ w ∈ c.filters.map String.toList, IsWord graphSeparators w := by
      rw [List.forall_mem_map]
      exact h.filters
    exact splitOnP_joined (by decide) (by decide) (by decide) hne hwords
  have hdrop (tail : List Piece) : ((c.inputs.map fun l => Piece.label l.toList) ++
      tail).dropWhile (fun p => p.label?.isSome) = tail.dropWhile fun p => p.label?.isSome :=
    List.dropWhile_append_of_pos hlabels
  have htake (tail : List Piece) : ((c.inputs.map fun l => Piece.label l.toList) ++
      tail).takeWhile (fun p => p.label?.isSome) =
        (c.inputs.map fun l => .label l.toList) ++ tail.takeWhile fun p => p.label?.isSome :=
    List.takeWhile_append_of_pos hlabels
  have hinputs : (c.inputs.map fun l => Piece.label l.toList).filterMap Piece.label? = c.inputs := by
    rw [List.filterMap_map]
    simp [Function.comp_def, Piece.label?]
  unfold readChain?
  rw [h.pieces_render]
  dsimp only
  rw [hdrop, htake]
  simp only [List.dropWhile_cons, List.takeWhile_cons, Piece.label?, Option.isSome_none,
    Bool.false_eq_true, if_false]
  rw [List.append_nil, hinputs, hfilters, List.map_map, List.map_map, String.ofList_toList]
  rfl

end Chain.IsWritable

/-! ### Reading a graph -/

/-- The chains of a plan, in the order of its stages. -/
def Plan.chains {ℓ φ : Type} (p : Plan ℓ φ) : List (Chain ℓ φ) := p.stages.flatMap Stage.chains

/-- The chains of a stage stand between those of the stages before it and behind it. -/
theorem chains_at {ℓ φ : Type} {q : Plan ℓ φ} {i : Nat} {st : Stage ℓ φ} (h : q.stages[i]? = some st) :
    q.chains = (q.stages.take i).flatMap Stage.chains ++ st.chains ++
      (q.stages.drop (i + 1)).flatMap Stage.chains := by
  obtain ⟨hi, rfl⟩ := List.getElem?_eq_some_iff.mp h
  have hsplit : q.stages = q.stages.take i ++ q.stages[i] :: q.stages.drop (i + 1) := by
    rw [← List.drop_eq_getElem_cons hi, List.take_append_drop]
  conv_lhs => rw [Plan.chains, hsplit]
  rw [List.flatMap_append, List.flatMap_cons, List.append_assoc]

theorem graph_eq (p : TextPlan) : p.graph = ";\n".intercalate (p.chains.map Chain.render) := by
  rw [Plan.graph, Plan.chains, List.map_flatMap]

/-- The line feed behind a semicolon may be taken for the beginning of what follows. -/
theorem intercalate_lines (first : List Char) (rest : List (List Char)) :
    [';', '\n'].intercalate (first :: rest) =
      [';'].intercalate (first :: rest.map ('\n' :: ·)) := by
  induction rest generalizing first with
  | nil => rfl
  | cons next rest ih =>
    rw [List.map_cons, List.intercalate_cons_cons, List.intercalate_cons_cons, ih]
    cases rest <;> simp [List.intercalate_cons_cons]

theorem segments_graph {p : TextPlan} (hne : p.chains ≠ []) (h : ∀ c ∈ p.chains, c.IsWritable) :
    segments p.graph = p.chains.map fun c => scan false c.render.toList := by
  obtain ⟨first, rest, hchains⟩ := List.exists_cons_of_ne_nil hne
  rw [hchains, List.forall_mem_cons] at h
  have htext : p.graph.toList = [';'].intercalate
      (first.render.toList :: rest.map fun c => '\n' :: c.render.toList) := by
    rw [graph_eq, hchains, String.toList_intercalate, List.map_cons, List.map_cons, List.map_map]
    refine (intercalate_lines _ _).trans ?_
    rw [List.map_map]
    rfl
  have hwords : ∀ w ∈ first.render.toList :: rest.map fun c => '\n' :: c.render.toList,
      IsWord [';'] w := by
    have hfeed : IsWord [';'] ['\n'] := .of_plain (by simp)
    refine List.forall_mem_cons.mpr ⟨h.1.isWord_render, ?_⟩
    rw [List.forall_mem_map]
    exact fun c hc => hfeed.append (h.2 c hc).isWord_render
  rw [segments, htext, splitOnP_joined (by decide) (by decide) (by decide)
    (List.cons_ne_nil _ _) hwords, hchains, List.map_cons, List.map_map, List.map_cons]
  simp only [List.map_map]
  refine congrArg _ (List.map_congr_left fun c _ => ?_)
  rw [Function.comp_apply, Function.comp_apply, scan_bare (by decide) (by decide)]
  rfl

/-- **The graph of a plan is read as the chains of the plan.** -/
theorem readGraph?_of_writable {p : TextPlan} (hne : p.chains ≠ [])
    (h : ∀ c ∈ p.chains, c.IsWritable) :
    readGraph? p.graph = some (p.chains.map Chain.asRead) := by
  rw [readGraph?, segments_graph hne h]
  exact mapM_eq_some_map fun c hc => (h c hc).readChain?_render

/-! ### Compiled plans -/

/-- A chain with filters, each of which can be read. -/
structure Chain.IsSound (c : Chain Label Filter) : Prop where
  nonempty : c.filters ≠ []
  filters : ∀ f ∈ c.filters, f.IsSound

theorem isPlain_label (l : Label) : IsPlain l.text := by
  have hcount (n : Nat) := (inert_digits n).plain
  cases l with
  | stream i c =>
    refine isPlain_append.mpr ⟨isPlain_append.mpr ⟨hcount i, by decide⟩, ?_⟩
    cases c <;> decide
  | clipVideo i | clipAudio i | soundtrack i => exact isPlain_append.mpr ⟨by decide, hcount i⟩
  | base i o | image i o =>
    refine isPlain_append.mpr ⟨?_, hcount o⟩
    exact isPlain_append.mpr ⟨isPlain_append.mpr ⟨by decide, hcount i⟩, by decide⟩
  | programAudio | outputVideo | outputAudio => decide

/-- A filter says at least its name. -/
theorem Filter.text_ne_nil (f : Filter) : f.text.toList ≠ [] := by
  cases f <;> delta text <;> simp

theorem Chain.IsSound.writable {c : Chain Label Filter} (h : c.IsSound) :
    (c.map Label.text Filter.text).IsWritable where
  labels := by
    rw [Chain.map, List.forall_mem_map]
    exact fun l _ => isPlain_label l
  output := isPlain_label c.output
  filters := by
    rw [Chain.map, List.forall_mem_map]
    exact fun f hf => f.isWord_text (h.filters f hf)
  present := by
    obtain ⟨f, rest, hfilters⟩ := List.exists_cons_of_ne_nil h.nonempty
    have hfirst := f.text_ne_nil
    rw [toList_commas, Chain.map, hfilters, List.map_cons, List.map_cons]
    cases rest with
    | nil => simpa using hfirst
    | cons f' rest =>
      rw [List.map_cons, List.map_cons, List.intercalate_cons_cons, List.append_assoc]
      exact List.append_ne_nil_of_left_ne_nil hfirst _

/-- A filter that draws no text can be read. -/
theorem Undrawn.sound {filters : List Filter} (h : Undrawn filters) : ∀ f ∈ filters, f.IsSound := by
  intro f hf
  have hnone := h f hf
  cases f with
  | drawText d => cases hnone
  | _ => trivial

section Sound
variable {k : Compiler} {os : List Overlay}

/-- Chains with at least the filters that they are given. -/
theorem isSound_atLeastOne {inputs : List Label} {filters : List Filter} {output : Label}
    (h : ∀ f ∈ filters, f.IsSound) : Chain.IsSound ⟨inputs, atLeastOne filters, output⟩ := by
  unfold atLeastOne
  split
  · exact ⟨List.cons_ne_nil _ _, List.forall_mem_singleton.mpr trivial⟩
  · rename_i hsome
    exact ⟨fun h => hsome (List.isEmpty_iff.mpr h), h⟩

/-- The chains of a picture can be read if its overlays were checked. -/
theorem layers_sound {clip index next : Nat} {inputs : List Label} {filters : List Filter}
    (checked : ∀ o ∈ os, o.check = .ok ()) (h : ∀ f ∈ filters, f.IsSound) :
    ∀ ch ∈ k.layers clip index next inputs filters os, ch.IsSound := by
  induction os generalizing index next inputs filters with
  | nil => exact List.forall_mem_singleton.mpr (isSound_atLeastOne h)
  | cons o rest ih =>
    obtain ⟨ho, hrest⟩ := List.forall_mem_cons.mp checked
    cases hcontent : o.content with
    | text words written source =>
      have hdrawn : ∀ f ∈ filters ++ [.drawText (k.drawText o words)], f.IsSound := by
        rw [List.forall_mem_append]
        refine ⟨h, fun f hf => ?_⟩
        rw [List.mem_singleton.mp hf]
        exact drawText_sound k ho words
      simp only [Compiler.layers, hcontent]
      exact ih hrest hdrawn
    | image source caption =>
      have himage : Chain.IsSound ⟨[.stream next .video], o.imageFilters, .image clip index⟩ :=
        ⟨by simp [Overlay.imageFilters], (undrawn_imageFilters o).sound⟩
      simp only [Compiler.layers, hcontent, List.forall_mem_cons]
      exact ⟨isSound_atLeastOne h, himage, ih hrest (List.forall_mem_singleton.mpr trivial)⟩

theorem audioChain_sound (c : Clip) (r : Rounding) (clip : Nat) (a : Asset) (t : Timing)
    (input : Nat) (rate : Int) : (c.audioChain r clip a t input rate).IsSound where
  nonempty := by
    unfold Clip.audioChain
    split <;> simp
  filters := (undrawn_audioChain _ _ _ _ _ _ _).sound

end Sound

theorem overlays_checked {r : Rounding} {t : Timeline} (h : t.check r = .ok ()) {c : Clip}
    (hc : c ∈ t.clips) : ∀ o ∈ c.overlays, o.check = .ok () := by
  intro o ho
  obtain ⟨n, hn⟩ := List.getElem?_of_mem ho
  have hclip := clips_checked h c (List.mem_append_left _ hc)
  simp only [Clip.check, andThen_eq_ok_iff, checkItems_eq_ok_iff, mapError_eq_ok_iff] at hclip
  obtain ⟨-, -, -, -, -, -, -, hoverlays⟩ := hclip
  exact hoverlays n o hn

/-- **The chains of a compiled plan can be read.** -/
theorem chains_sound {k : Compiler} {t : Timeline} {assets : Assets} {p : Plan Label Filter}
    (h : k.compile t assets = .ok p) : p.chains ≠ [] ∧ ∀ c ∈ p.chains, c.IsSound := by
  obtain ⟨hcheck, -⟩ := compile_eq_ok_iff.mp h
  obtain ⟨clips, soundtrack, hs, rfl⟩ := exists_sectionsOf h
  refine ⟨?_, fun ch hch => ?_⟩
  · -- the stage that joins the clips has chains
    have hjoin : ∃ ch, ch ∈ (joinStage clips.length
        (if soundtrack.length = 0 then Label.outputAudio else .programAudio)).chains := by
      unfold joinStage
      split <;> exact ⟨_, List.mem_cons_self⟩
    obtain ⟨ch, hch⟩ := hjoin
    refine List.ne_nil_of_mem (List.mem_flatMap.mpr ⟨_, ?_, hch⟩)
    rw [planOf_stages]
    simp [finishStages]
  · obtain ⟨st, hst, hch⟩ := List.mem_flatMap.mp hch
    obtain ⟨n, hn⟩ := List.getElem?_of_mem hst
    rcases stage_cases hn with ⟨s, hsection, rfl⟩ | ⟨m, s, -, hsection, rfl⟩ | hfinish
    · obtain ⟨c, a, tm, said, hc, -, -, rfl⟩ := hs.clip_getElem hsection
      rcases List.mem_append.mp hch with hch | hch
      · refine layers_sound (overlays_checked hcheck (List.mem_of_getElem? hc)) ?_ ch hch
        split
        · exact ((undrawn_videoFilters c tm).append (undrawn_canvas _)).sound
        · exact (undrawn_blackFrame _ _).sound
      · rw [List.mem_singleton.mp hch]
        exact audioChain_sound ..
    · obtain ⟨c, a, -, -, -, rfl⟩ := hs.soundtrack_getElem hsection
      rw [List.mem_singleton.mp hch]
      exact ⟨by simp [Clip.audioFilters], (undrawn_audioFilters c _ _ _).sound⟩
    · obtain ⟨f, hf, -⟩ := finishStages_filters hfinish ch hch
      exact ⟨by simp [hf], (undrawn_finishStages hfinish ch hch).sound⟩

theorem chains_toText (p : Plan Label Filter) :
    p.toText.chains = p.chains.map (Chain.map Label.text Filter.text) := by
  rw [Plan.toText, Plan.chains, Plan.chains, Plan.map, List.flatMap_map, List.map_flatMap]
  rfl

/-- The graph of a compiled plan is read as the chains of the plan. -/
theorem readGraph?_of_compile {k : Compiler} {t : Timeline} {assets : Assets}
    {p : Plan Label Filter} (h : k.compile t assets = .ok p) :
    readGraph? p.toText.graph = some (p.toText.chains.map Chain.asRead) := by
  obtain ⟨hne, hsound⟩ := chains_sound h
  refine readGraph?_of_writable ?_ ?_
  · simpa [chains_toText] using hne
  · rw [chains_toText, List.forall_mem_map]
    exact fun c hc => (hsound c hc).writable

/-! ### Other words and fonts -/

/-- The text of a filter as it is read; of one that draws text the name only. -/
def Plan.outline (filter : String) : String :=
  if "drawtext=".toList.isPrefixOf filter.toList then "drawtext" else filter

/-- A chain as it is read, without what its filters draw. -/
def Chain.outline (c : Chain String String) : Chain String String := c.map id Plan.outline

theorem outline_drawText (d : DrawText) :
    Plan.outline (.ofList (undo (Filter.drawText d).text.toList)) = "drawtext" := by
  have hname : IsPlain ("drawtext" ++ "=") := by decide
  have htext : undo (Filter.drawText d).text.toList =
      "drawtext=".toList ++ undo (":".intercalate (d.options.map optionText)).toList := by
    rw [text_drawText, String.toList_append, hname.isWord.undo_append, hname.undo_eq]
    rfl
  rw [Plan.outline, htext, String.toList_ofList, if_pos (by simp)]

theorem outline_blank (f : Filter) :
    Plan.outline (.ofList (undo f.blank.text.toList)) =
      Plan.outline (.ofList (undo f.text.toList)) := by
  cases f with
  | drawText d => rw [Filter.blank, outline_drawText, outline_drawText]
  | _ => rfl

theorem Chain.outline_blank (c : Chain Label Filter) :
    (c.blank.map Label.text Filter.text).asRead.outline =
      (c.map Label.text Filter.text).asRead.outline := by
  have hfilters : (((c.filters.map Filter.blank).map Filter.text).map fun f =>
      String.ofList (undo f.toList)).map Plan.outline =
        ((c.filters.map Filter.text).map fun f => String.ofList (undo f.toList)).map Plan.outline := by
    simp only [List.map_map]
    refine List.map_congr_left fun f _ => ?_
    simp only [Function.comp_apply]
    exact Montage.outline_blank f
  have hinputs : c.inputs.map id = c.inputs := List.map_id _
  simp only [outline, asRead, Chain.blank, Chain.map, hinputs, hfilters, id_eq]

/-- What is read of a graph without its words and fonts does not depend on them. -/
theorem outlines_blank (p : Plan Label Filter) :
    (p.blank.toText.chains.map Chain.asRead).map Chain.outline =
      (p.toText.chains.map Chain.asRead).map Chain.outline := by
  have hchains : p.blank.chains = p.chains.map Chain.blank := by
    rw [Plan.blank, Plan.chains, Plan.chains, Plan.map, List.flatMap_map, List.map_flatMap]
    rfl
  rw [chains_toText, chains_toText, hchains, List.map_map, List.map_map, List.map_map, List.map_map,
    List.map_map]
  exact List.map_congr_left fun c _ => c.outline_blank

/-- **The graph of a compiled plan is read as the chains of the plan**, with their labels and their
filters.  Whatever other words its overlays and whatever other path its font get, the timeline still
compiles, and what is read are the same chains, with the same labels, the same filters that draw
text, and all other filters unchanged. -/
theorem graph_read {k : Compiler} {t : Timeline} {assets : Assets} {p : Plan Label Filter}
    (h : k.compile t assets = .ok p) :
    readGraph? p.toText.graph = some (p.toText.chains.map Chain.asRead) ∧
    ∀ (k' : Compiler) (t' : Timeline), k'.blank = k.blank → t'.blank = t.blank →
      ∃ p', k'.compile t' assets = .ok p' ∧
        (readGraph? p'.toText.graph).map (List.map Chain.outline) =
          (readGraph? p.toText.graph).map (List.map Chain.outline) := by
  refine ⟨readGraph?_of_compile h, fun k' t' hk ht => ?_⟩
  have hcompiled : (k'.compile t' assets).map Plan.blank = .ok p.blank := by
    rw [← compile_blank, hk, ht, compile_blank, h]
    rfl
  cases h' : k'.compile t' assets with
  | error f =>
    rw [h'] at hcompiled
    cases hcompiled
  | ok p' =>
    rw [h'] at hcompiled
    refine ⟨p', rfl, ?_⟩
    rw [readGraph?_of_compile h', readGraph?_of_compile h, Option.map_some, Option.map_some,
      ← outlines_blank, ← outlines_blank p, Except.ok.inj hcompiled]

namespace Sample

/-- Words that would end a chain, were they not escaped. -/
def slyTitle : Overlay :=
  { title with content := .text "';[v0];\nnull[out],negate" (by decide) none }

/-- The timeline with these words. -/
def slyTimeline : Timeline :=
  { timeline with
    clips :=
      [{ Clip.whole (file "beach.mp4") .video (.finite 1) with overlays := [slyTitle, logo] },
        { Clip.whole (file "beach.mp4") .video (.finite 1) with
          trim := some ⟨.finite 2, none, some (.finite 3)⟩, overlays := [logo] }] }

end Sample

theorem graph_read_sample :
    ∃ p p', Compiler.standard.compile Sample.timeline (Sample.files 8 true) = .ok p ∧
      { Compiler.standard with fontFile := some "a;[b],'c" }.compile Sample.slyTimeline
        (Sample.files 8 true) = .ok p' ∧
      readGraph? p.toText.graph = some (p.toText.chains.map Chain.asRead) ∧
      (readGraph? p'.toText.graph).map (List.map Chain.outline) =
        (readGraph? p.toText.graph).map (List.map Chain.outline) := by
  obtain ⟨p, hp⟩ := Sample.exists_plan
  obtain ⟨hread, hwords⟩ := graph_read hp
  obtain ⟨p', hp', houtline⟩ := hwords { Compiler.standard with fontFile := some "a;[b],'c" }
    Sample.slyTimeline rfl rfl
  exact ⟨p, p', hp, hp', hread, houtline⟩

end Montage
