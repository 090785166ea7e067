import Montage.Proofs.CompileOutcome

/-! # The way of a picture

A chain says what is done between the labels that it reads and the one that it writes.  What is done to
a picture on the whole is said by the chains on its **way**: the chain that writes its label, the one
that writes the first label read there, and so on back to a source (`wayTo`).  Along the way each filter
is a step, with the further streams that it reads beside the picture (`stepsTo`).

An image overlay cuts the chain of its clip in two, so the texts before, between and after the images
stand in different chains.  On the way they all come back in the order of the overlays, each image with
the stream of its own file (`overlays_in_order`).  The reason is an invariant of the compiler's loop: what
follows an image starts from the two labels that were written for it, and the first of them leads to
what was done so far (`way_layers`).
-/
namespace Montage

/-! ### Ways -/

section Way
variable {ℓ φ : Type} [DecidableEq ℓ]

/-- The chains on the way to a label, in order, of chains of which the last one comes first. -/
def wayBack (l : ℓ) : List (Chain ℓ φ) → List (Chain ℓ φ)
  | [] => []
  | c :: earlier =>
    if c.output = l then
      (match c.inputs with
        | [] => []
        | base :: _ => wayBack base earlier) ++ [c]
    else wayBack l earlier

/-- What the first of some labels comes from. -/
def behind (inputs : List ℓ) (earlier : List (Chain ℓ φ)) : List (Chain ℓ φ) :=
  match inputs with
  | [] => []
  | base :: _ => wayBack base earlier

/-- The chains on the way to a label, from the source on. -/
def wayTo (l : ℓ) (chains : List (Chain ℓ φ)) : List (Chain ℓ φ) := wayBack l chains.reverse

/-- Filters as steps.  The first one takes all inputs: the picture, and what is laid over it. -/
def steps (inputs : List ℓ) : List φ → List (φ × List ℓ)
  | [] => []
  | f :: rest => (f, inputs.tail) :: rest.map fun g => (g, [])

/-- The steps of a chain. -/
def Chain.steps (c : Chain ℓ φ) : List (φ × List ℓ) := Montage.steps c.inputs c.filters

/-- The filters on the way to a label. -/
def filtersTo (l : ℓ) (chains : List (Chain ℓ φ)) : List φ := (wayTo l chains).flatMap Chain.filters

/-- The steps on the way to a label: the filters, and what they read beside. -/
def stepsTo (l : ℓ) (chains : List (Chain ℓ φ)) : List (φ × List ℓ) :=
  (wayTo l chains).flatMap Chain.steps

variable {l : ℓ} {c : Chain ℓ φ} {earlier chains : List (Chain ℓ φ)} {inputs : List ℓ}

theorem wayBack_cons_of_eq (h : c.output = l) :
    wayBack l (c :: earlier) = behind c.inputs earlier ++ [c] := by
  rw [wayBack, if_pos h]
  rfl

theorem wayBack_cons_of_ne (h : c.output ≠ l) : wayBack l (c :: earlier) = wayBack l earlier := by
  rw [wayBack, if_neg h]

/-- Chains that do not write a label do not stand on the way to it. -/
theorem wayBack_append_of_not_written (h : l ∉ chains.map Chain.output) :
    wayBack l (chains ++ earlier) = wayBack l earlier := by
  induction chains with
  | nil => rfl
  | cons c rest ih =>
    rw [List.map_cons, List.mem_cons, not_or] at h
    rw [List.cons_append, wayBack_cons_of_ne (Ne.symm h.1), ih h.2]

theorem wayBack_of_not_written (h : l ∉ chains.map Chain.output) : wayBack l chains = [] := by
  rw [← List.append_nil chains, wayBack_append_of_not_written h]
  rfl

/-- A way ends with the chain that writes the label. -/
theorem getLast?_wayBack (h : l ∈ chains.map Chain.output) :
    (wayBack l chains).getLast?.map Chain.output = some l := by
  induction chains with
  | nil => exact absurd h List.not_mem_nil
  | cons c rest ih =>
    by_cases hc : c.output = l
    · rw [wayBack_cons_of_eq hc, List.getLast?_concat, Option.map_some, hc]
    · rw [wayBack_cons_of_ne hc]
      exact ih ((List.mem_cons.mp h).resolve_left (Ne.symm hc))

/-- The first inputs of a clip are streams of files; nothing lies behind them. -/
theorem behind_of_not_written (h : ∀ l ∈ inputs, l ∉ earlier.map Chain.output) :
    behind inputs earlier = [] := by
  cases inputs with
  | nil => rfl
  | cons base more => exact wayBack_of_not_written (h base (List.mem_cons_self ..))

/-- Of two labels the way follows the first one. -/
theorem behind_pair {base beside : Chain ℓ φ} {l' : ℓ} (hbase : base.output = l)
    (hbeside : beside.output ≠ l) :
    behind [l, l'] (beside :: base :: earlier) = behind base.inputs earlier ++ [base] := by
  show wayBack l (beside :: base :: earlier) = _
  rw [wayBack_cons_of_ne hbeside, wayBack_cons_of_eq hbase]

theorem map_fst_stepsTo : (stepsTo l chains).map Prod.fst = filtersTo l chains := by
  have hsteps (c : Chain ℓ φ) : c.steps.map Prod.fst = c.filters := by
    rw [Chain.steps]
    cases c.filters with
    | nil => rfl
    | cons f rest => simp [steps, Function.comp_def]
  rw [stepsTo, List.map_flatMap, filtersTo]
  exact List.flatMap_congr fun c _ => hsteps c

omit [DecidableEq ℓ] in
theorem steps_of_tail (h : inputs.tail = []) (filters : List φ) :
    steps inputs filters = filters.map fun f => (f, []) := by
  cases filters with
  | nil => rfl
  | cons f rest => rw [steps, h, List.map_cons]

omit [DecidableEq ℓ] in
/-- A filter behind others reads the picture alone, and so it does as the first one if there is
nothing else to read. -/
theorem steps_concat {filters : List φ} (f : φ) (h : filters ≠ [] ∨ inputs.tail = []) :
    steps inputs (filters ++ [f]) = steps inputs filters ++ [(f, [])] := by
  rcases h with h | h
  · obtain ⟨g, rest, rfl⟩ := List.exists_cons_of_ne_nil h
    rw [List.cons_append, steps, steps, List.map_append]
    rfl
  · rw [steps_of_tail h, steps_of_tail h, List.map_append]
    rfl

end Way

/-! ### The way through overlays -/

/-- The filters before the first overlay.  Where there are none, a chain still has to have one and
passes the picture on, unless the first overlay is a text and stands in this chain. -/
def opening (filters : List Filter) : List Overlay → List Filter
  | [] => atLeastOne filters
  | o :: _ => if o.image?.isSome then atLeastOne filters else filters

theorem atLeastOne_of_ne_nil {filters : List Filter} (h : filters ≠ []) :
    atLeastOne filters = filters := by
  rw [atLeastOne, if_neg (by rwa [List.isEmpty_iff])]

theorem opening_of_ne_nil {filters : List Filter} (h : filters ≠ []) (os : List Overlay) :
    opening filters os = filters := by
  cases os with
  | nil => exact atLeastOne_of_ne_nil h
  | cons o rest => rw [opening, atLeastOne_of_ne_nil h, ite_self]

/-- The step that draws the overlay at a position of a clip. -/
def Compiler.drawn (k : Compiler) (clip : Nat) (o : Overlay × Nat) : Filter × List Label :=
  match o.1.content with
  | .text words _ _ =>
    (.drawText
      { words, fontFile := k.fontFile, fontSize := o.1.style.fontSize, color := o.1.style.color
        opacity := o.1.style.opacity, x := o.1.x, y := o.1.y, boxColor := o.1.style.boxColor
        window := ⟨o.1.start, o.1.finish⟩ }, [])
  | .image _ _ => (.overlay o.1.x o.1.y ⟨o.1.start, o.1.finish⟩, [.image clip o.2])

/-- **The way to a clip's picture goes through what its overlays start from**, and from there on
each overlay is one step. -/
theorem way_layers (k : Compiler) (clip index next : Nat) (os : List Overlay) {inputs : List Label}
    {filters : List Filter} (h : filters ≠ [] ∨ inputs.tail = [])
    (earlier : List (Chain Label Filter)) :
    ∃ first rest,
      wayBack (.clipVideo clip) ((k.layers clip index next inputs filters os).reverse ++ earlier) =
        behind inputs earlier ++ first :: rest ∧ first.inputs = inputs ∧
      (first :: rest).flatMap Chain.steps =
        steps inputs (opening filters os) ++ (os.zipIdx index).map (k.drawn clip) := by
  -- an image adds its two chains to those that lie behind the rest, so `earlier` changes as well
  induction os generalizing index next inputs filters earlier with
  | nil =>
    refine ⟨⟨inputs, atLeastOne filters, .clipVideo clip⟩, [], wayBack_cons_of_eq rfl, rfl, ?_⟩
    simp [Chain.steps, opening]
  | cons o rest ih =>
    cases ho : o.content with
    | text words hw source =>
      have hdrawn : k.drawn clip (o, index) = (.drawText (k.drawText o words), []) := by
        simp only [Compiler.drawn, ho]
        rfl
      have hopening : opening filters (o :: rest) = filters := by
        simp [opening, Overlay.image?, ho]
      have hdrawing : filters ++ [.drawText (k.drawText o words)] ≠ [] := by simp
      obtain ⟨first, more, hway, hfirst, hsteps⟩ :=
        ih (index + 1) next (Or.inl hdrawing) earlier
      refine ⟨first, more, ?_, hfirst, ?_⟩
      · simp only [Compiler.layers, ho]
        exact hway
      · rw [hsteps, opening_of_ne_nil (by simp), steps_concat _ h, hopening, List.zipIdx_cons,
          List.map_cons, hdrawn, List.append_assoc]
        rfl
    | image source caption =>
      have hdrawn : k.drawn clip (o, index) =
          (.overlay o.x o.y ⟨o.start, o.finish⟩, [.image clip index]) := by
        simp only [Compiler.drawn, ho]
      have hopening : opening filters (o :: rest) = atLeastOne filters := by
        simp [opening, Overlay.image?, ho]
      let base : Chain Label Filter := ⟨inputs, atLeastOne filters, .base clip index⟩
      let image : Chain Label Filter :=
        ⟨[.stream next .video], o.imageFilters, .image clip index⟩
      have hoverlay : [Filter.overlay o.x o.y ⟨o.start, o.finish⟩] ≠ [] := List.cons_ne_nil _ _
      obtain ⟨first, more, hway, hfirst, hsteps⟩ :=
        @ih (index + 1) (next + 1) [.base clip index, .image clip index] _ (Or.inl hoverlay)
          (image :: base :: earlier)
      have hbehind : behind [.base clip index, .image clip index] (image :: base :: earlier) =
          behind inputs earlier ++ [base] := behind_pair rfl fun h => by cases h
      refine ⟨base, first :: more, ?_, rfl, ?_⟩
      · simp only [Compiler.layers, ho, List.reverse_cons, List.append_assoc, List.cons_append,
          List.nil_append]
        rw [hway, hbehind, List.append_assoc]
        rfl
      · rw [List.flatMap_cons, hsteps, opening_of_ne_nil (by simp), hopening, List.zipIdx_cons,
          List.map_cons, hdrawn]
        rfl

variable {k : Compiler} {assets : Assets} {clip index next : Nat} {os : List Overlay}

theorem length_layers {inputs : List Label} {filters : List Filter} :
    (k.layers clip index next inputs filters os).length = 2 * (imagesOf os).length + 1 := by
  induction os generalizing index next inputs filters with
  | nil => rfl
  | cons o rest ih =>
    cases ho : o.content with
    | text words hw source =>
      simp only [Compiler.layers, ho, imagesOf_cons_text ho]
      exact ih
    | image source caption =>
      simp only [Compiler.layers, ho, imagesOf_cons_image ho, List.length_cons, ih]
      omega

theorem outputs_layers_nodup {inputs : List Label} {filters : List Filter} :
    ((k.layers clip index next inputs filters os).map Chain.output).Nodup := by
  rw [outputs_layers]
  refine List.nodup_append'.mpr ⟨overlayLabels_nodup .., List.nodup_singleton _, fun l hl hl' => ?_⟩
  rw [List.mem_singleton.mp hl'] at hl
  obtain ⟨o, -, h | h⟩ := mem_overlayLabels hl <;> exact nomatch h

/-- The file of an image stands among the files of the images at the place that the image has among
them. -/
theorem getElem?_imageFiles {j : Nat} {o : Overlay} {s : MediaSource}
    (h : ∀ s ∈ imagesOf os, Fetched assets s) (ho : os[j]? = some o) (hs : o.image? = some s) :
    ∃ a, assets s.key = some a ∧
      ((imagesOf os).filterMap (inputOf? assets))[(imagesOf (os.take j)).length]? =
        some ⟨a.path, []⟩ := by
  obtain ⟨a, ha⟩ := (h s (List.mem_filterMap.mpr ⟨o, List.mem_of_getElem? ho, hs⟩)).exists
  have hplace : (imagesOf os)[(imagesOf (os.take j)).length]? = some s :=
    getElem?_filterMap_take ho hs
  have hinput := congrArg (fun l => l[(imagesOf (os.take j)).length]?) (filterMap_inputOf? h)
  simp only [List.getElem?_map, hplace, Option.map_some, inputOf?, ha] at hinput
  obtain ⟨file, hfile, heq⟩ := Option.map_eq_some_iff.mp hinput
  rw [Option.some.inj heq] at hfile
  exact ⟨a, ha, hfile⟩

/-! ### Overlays in order -/

/-- Chains that draw overlays over a picture, and the files that they need, which are the inputs
from `next` on. -/
structure Compiler.DrawsInOrder (k : Compiler) (assets : Assets) (clip next : Nat)
    (input : Option Label) (filters : List Filter) (os : List Overlay)
    (chains : List (Chain Label Filter)) (files : List EngineInput) : Prop where
  /-- There are two chains for each image and one more. -/
  length_chains : chains.length = 2 * (imagesOf os).length + 1
  /-- There is one file for each image. -/
  length_files : files.length = (imagesOf os).length
  /-- No label is written by two of the chains. -/
  outputs : (chains.map Chain.output).Nodup
  /-- The way to the clip's picture starts from the picture that was given. -/
  source : (wayTo (.clipVideo clip) chains).head?.map Chain.inputs = some input.toList
  target : (wayTo (.clipVideo clip) chains).getLast?.map Chain.output = some (.clipVideo clip)
  /-- On the way stand the filters that were given, and then one step for each overlay. -/
  steps : stepsTo (.clipVideo clip) chains =
    (opening filters os).map (fun f => (f, [])) ++ os.zipIdx.map (k.drawn clip)
  /-- What an image is drawn from is read of the input that the very image was made. -/
  images : ∀ (j : Nat) (o : Overlay) (s : MediaSource), os[j]? = some o → o.image? = some s →
    ∃ m a, ⟨[.stream (next + m) .video], o.imageFilters, .image clip j⟩ ∈ chains ∧
      files[m]? = some ⟨a.path, []⟩ ∧ assets s.key = some a ∧
      m = (imagesOf (os.take j)).length

end Montage
