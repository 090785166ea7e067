import Montage.Proofs.FilePlaces
import Montage.Service.Task

/-! # Where downloads write

A download writes its part file and its target, which stand side by side.  So in a directory of
assets the downloads of one job spare whatever stands elsewhere, as long as none of them has a file
open that stands there (`Download.Apart`).
-/
namespace Montage

open FileTree

/-- A path inside a directory, the name being one that stands there. -/
theorem Path.plain_concat {directory : Path} {name : String} (plain : ".." ∉ directory)
    (other : name ≠ "..") : ".." ∉ directory ++ [name] := by
  simpa [plain] using other.symm

theorem Path.concat_ne_nil {directory : Path} {name : String} : directory ++ [name] ≠ [] := by simp

/-- A file that a download has open is there, and it is not the one that stands at a place. -/
def Download.Apart (p : Path) (t : FileTree) (d : Download) : Prop :=
  ∀ k n, d.phase = .receiving k n → k < t.contents.length ∧ t.node? p ≠ some (.file k)

theorem Download.Apart.mono {p : Path} {t u : FileTree} {d : Download} (h : d.Apart p t)
    (spares : Spares p t u) : d.Apart p u := fun k n hphase =>
  ⟨Nat.lt_of_lt_of_le (h k n hphase).1 spares.grows, fun hk =>
    (h k n hphase).2 (spares.node.symm.trans hk)⟩

theorem Download.apart_of_phase {p : Path} {t : FileTree} {d : Download}
    (h : ∀ k n, d.phase ≠ .receiving k n) : d.Apart p t := fun k n hphase => absurd hphase (h k n)

theorem ne_dots_of_part (name : String) : name ++ ".part" ≠ ".." := by
  intro h
  have hlength := congrArg String.length h
  have hpart : ".part".length = 5 := by decide
  have hdots : "..".length = 2 := by decide
  rw [String.length_append, hpart, hdots] at hlength
  omega

section Steps
variable {d : Download} {t u : FileTree} {p assets : Path} {name : String}

theorem Download.part_eq (target : d.target = assets ++ [name]) :
    d.part = assets ++ [name ++ ".part"] := by
  rw [part, target, Path.withName_concat, Path.name_concat]

/-- What a step of a download comes to, for a place that is none of the assets. -/
structure Download.Steps (p : Path) (d : Download) (t : FileTree) (r : Download × FileTree) :
    Prop where
  target : r.1.target = d.target
  spares : Spares p t r.2
  apart : r.1.Apart p r.2

/-- Only the phase changes, and no file is open then. -/
theorem Download.Steps.of_phase {phase : DownloadPhase} (h : ∀ k n, phase ≠ .receiving k n) :
    Download.Steps p d t ({ d with phase }, t) :=
  ⟨rfl, .refl p t, apart_of_phase h⟩

theorem Download.Steps.after {r : Download × FileTree} (spares : Spares p t u)
    (h : Download.Steps p d u r) : Download.Steps p d t r :=
  ⟨h.target, spares.trans h.spares, h.apart⟩

variable (plain : ".." ∉ assets) (target : d.target = assets ++ [name]) (hp : ¬ assets <+: p)
include plain target hp

theorem Download.steps_fail (fault : FetchFault) : Download.Steps p d t (d.fail t fault) := by
  have hne : p ≠ assets ++ [name ++ ".part"] := fun h => hp (h ▸ List.prefix_append _ _)
  unfold fail
  split
  · rename_i u hunlink
    rw [Download.part_eq target] at hunlink
    exact (Download.Steps.of_phase (by simp)).after
      (.unlink (Path.plain_concat plain (ne_dots_of_part name)) Path.concat_ne_nil hne hunlink)
  · exact .of_phase (by simp)

theorem Download.steps_settle (size : Nat) : Download.Steps p d t (d.settle t size) := by
  unfold settle
  split
  · exact steps_fail plain target hp _
  · split
    · rename_i u hrename
      rw [Download.part_eq target, target] at hrename
      have hname := (name_of_rename hrename).2
      rw [Path.name_concat] at hname
      have hout (n : String) : ¬ assets ++ [n] <+: p := fun h =>
        hp ((List.prefix_append _ _).trans h)
      exact (Download.Steps.of_phase (by simp)).after
        (.rename (Path.plain_concat plain (ne_dots_of_part name)) Path.concat_ne_nil
          (Path.plain_concat plain hname) Path.concat_ne_nil (hout _) (hout _) hrename)
    · exact steps_fail plain target hp _

theorem Download.steps_copy (hs : t.Sane p) (f : Fetcher) :
    Download.Steps p d t (d.copy f t) := by
  have hne : p ≠ assets ++ [name ++ ".part"] := fun h => hp (h ▸ List.prefix_append _ _)
  unfold copy
  split
  · exact steps_fail plain target hp _
  · split
    · exact steps_fail plain target hp _
    · split
      · exact steps_fail plain target hp _
      · rename_i u hwrite
        rw [Download.part_eq target] at hwrite
        exact (steps_settle plain target hp _).after
          (.write (Path.plain_concat plain (ne_dots_of_part name)) Path.concat_ne_nil hne hs hwrite)

theorem Download.steps_receive (hs : t.Sane p) : Download.Steps p d t (d.receive t) := by
  have hne : p ≠ assets ++ [name ++ ".part"] := fun h => hp (h ▸ List.prefix_append _ _)
  unfold receive
  split
  · exact .of_phase (by simp)
  · rename_i k u hopen
    rw [Download.part_eq target] at hopen
    have hplain := Path.plain_concat plain (ne_dots_of_part name)
    have hspares := Spares.openNew hplain Path.concat_ne_nil hne hopen
    refine ⟨rfl, hspares, fun k' n hphase => ?_⟩
    cases hphase
    -- the part file has its number for itself
    refine ⟨lt_of_openNew hplain Path.concat_ne_nil hs hopen, fun hk => hne ?_⟩
    exact ((hspares.sane hs).alone _ k hk
      (mem_of_node? (node?_openNew hplain Path.concat_ne_nil hopen))).symm

/-- **A step of a download spares what is none of the assets.** -/
theorem Download.steps_step (hs : t.Sane p) (apart : d.Apart p t) (f : Fetcher)
    (e : DownloadEvent) : Download.Steps p d t (d.step f t e) := by
  have hstay : Download.Steps p d t (d, t) := ⟨rfl, .refl p t, apart⟩
  have hdoom (fault : FetchFault) : Download.Steps p d t (d.doom fault, t) :=
    .of_phase (by simp)
  unfold step
  split
  · exact hstay
  · split
    · have hne : p ≠ assets ++ [name ++ ".part"] := fun h => hp (h ▸ List.prefix_append _ _)
      refine ⟨rfl, ?_, apart_of_phase (by simp)⟩
      dsimp only
      rw [Download.part_eq target]
      exact .discard (Path.plain_concat plain (ne_dots_of_part name)) Path.concat_ne_nil hne
    · exact hdoom _
    · split
      · exact steps_settle plain target hp _
      · exact steps_fail plain target hp _
      · exact hstay
    · split
      · exact steps_copy plain target hp hs f
      · exact hstay
    · split
      · unfold Download.begin
        split
        · exact hdoom _
        · split
          · exact steps_receive plain target hp hs
          · exact hdoom _
      · exact hstay
    · split
      · rename_i piece _ part size hphase
        unfold Download.append
        have hpart := apart part size hphase
        split
        · rename_i c hc
          have hfill := Spares.fill hpart.2 (c.extended piece)
          refine ⟨rfl, hfill, fun k n h => ?_⟩
          cases h
          exact ⟨Nat.lt_of_lt_of_le hpart.1 hfill.grows, hpart.2⟩
        · refine ⟨rfl, .refl p t, fun k n h => ?_⟩
          cases h
          exact hpart
      · exact hstay
    · split
      · exact .of_phase (by simp)
      · exact hstay
    all_goals
      split
      · exact hdoom _
      · exact hstay

end Steps

/-! ### All downloads of a job -/

/-- Downloads write among some assets, and their open files do not stand at a place. -/
def Downloads.Within (p assets : Path) (t : FileTree) (ds : Downloads) : Prop :=
  ∀ d ∈ ds, (∃ name, d.target = assets ++ [name]) ∧ d.Apart p t

theorem Downloads.Within.mono {p assets : Path} {t u : FileTree} {ds : Downloads}
    (h : ds.Within p assets t) (spares : Spares p t u) : ds.Within p assets u :=
  fun d hd => ⟨(h d hd).1, (h d hd).2.mono spares⟩

theorem fetchItems_targets {timeline : Timeline} {assets : Path} {index : Nat}
    {sources : List MediaSource} {items : List (MediaSource × Path)}
    (h : fetchItems timeline assets index sources = .ok items) :
    ∀ i ∈ items, ∃ name, i.2 = assets ++ [name] := by
  induction sources generalizing index items with
  | nil =>
    cases h
    exact nofun
  | cons source rest ih =>
    simp only [fetchItems, bind, Except.bind] at h
    split at h
    · cases h
    · split at h
      · cases h
      · rename_i suffix hsuffix more hmore
        cases h
        intro i hi
        rcases List.mem_cons.mp hi with rfl | hi
        · exact ⟨_, rfl⟩
        · exact ih hmore i hi

theorem Downloads.within_begin {p assets : Path} {t : FileTree} {timeline : Timeline}
    {sources : List MediaSource} {items : List (MediaSource × Path)}
    (h : fetchItems timeline assets 0 sources = .ok items) :
    (Downloads.begin items).Within p assets t := by
  intro d hd
  obtain ⟨i, hi, rfl⟩ := List.mem_map.mp hd
  exact ⟨fetchItems_targets h i hi, Download.apart_of_phase (by simp)⟩

section AllSteps
variable {ds : Downloads} {t : FileTree} {p assets : Path}

theorem Downloads.spares_step (plain : ".." ∉ assets) (hp : ¬ assets <+: p) (hs : t.Sane p)
    (h : ds.Within p assets t) (f : Fetcher) (index : Nat) (e : DownloadEvent) :
    Spares p t (ds.step f t index e).2 ∧
      (ds.step f t index e).1.Within p assets (ds.step f t index e).2 := by
  unfold step
  split
  · exact ⟨.refl p t, h⟩
  · rename_i d hd
    have hmem := List.mem_of_getElem? hd
    obtain ⟨⟨name, target⟩, apart⟩ := h d hmem
    have hstep := Download.steps_step plain target hp hs apart f e
    refine ⟨hstep.spares, fun d' hd' => ?_⟩
    rcases List.mem_or_eq_of_mem_set hd' with hd' | rfl
    · exact ⟨(h d' hd').1, (h d' hd').2.mono hstep.spares⟩
    · exact ⟨⟨name, hstep.target.trans target⟩, hstep.apart⟩

theorem Downloads.spares_abandon (plain : ".." ∉ assets) (hp : ¬ assets <+: p) (hs : t.Sane p)
    (h : ds.Within p assets t) (f : Fetcher) : Spares p t (ds.abandon f t).2 := by
  induction ds generalizing t with
  | nil => exact .refl p t
  | cons d rest ih =>
    obtain ⟨⟨name, target⟩, apart⟩ := h d List.mem_cons_self
    have hstep := Download.steps_step plain target hp hs apart f .abandoned
    exact hstep.spares.trans (ih (hstep.spares.sane hs) fun d' hd' =>
      ⟨(h d' (List.mem_cons_of_mem d hd')).1,
        (h d' (List.mem_cons_of_mem d hd')).2.mono hstep.spares⟩)

end AllSteps
end Montage
