import Montage.Proofs.AssetPlaces
import Montage.Proofs.Fetched
import Montage.Proofs.LabelText
import Montage.Service.Task
import Mathlib.Data.List.Nodup

/-! # Keys of sources and names of their files

Sources share a key exactly if they refer to the same file (`MediaSource.key_eq_iff`), so the list
of a timeline's sources names each file once.

The file of a source gets its position in that list as a name, with a suffix behind it.  What the
suffix is may come from the source, but it begins with a point and holds neither another point nor a
slash (`IsSuffix`).  So no two files of a timeline get one name, and none the name of another one's
part file (`nodup_fileNames`).
-/
namespace Montage

open Text

/-! ### Keys -/

/-- What a source refers to. -/
inductive Reference where
  | url (address : String)
  | upload (id : String)
  deriving DecidableEq, Repr

namespace MediaSource

/-- What the source refers to; the field that is left empty does not matter. -/
def reference (s : MediaSource) : Reference :=
  match s.remote? with
  | some u => .url u
  | none => .upload (s.uploadId.getD "")

/-- **A key stands for one file**, and an address and an upload of the same text are two. -/
theorem key_eq_iff (a b : MediaSource) : a.key = b.key ↔ a.reference = b.reference := by
  unfold key reference
  cases a.remote? <;> cases b.remote?
  · simp
  · simp [← String.toList_inj]
  · simp [← String.toList_inj]
  · simp

end MediaSource

theorem keys_firstByKey (seen : List String) (l : List MediaSource) :
    ((Timeline.firstByKey seen l).map MediaSource.key).Nodup ∧
      ∀ s ∈ Timeline.firstByKey seen l, s.key ∉ seen := by
  induction l generalizing seen with
  | nil => exact ⟨List.nodup_nil, fun _ h => absurd h List.not_mem_nil⟩
  | cons s rest ih =>
    rw [Timeline.firstByKey]
    split
    · exact ih seen
    · rename_i hnew
      obtain ⟨hnodup, hfresh⟩ := ih (s.key :: seen)
      refine ⟨List.nodup_cons.mpr ⟨fun hmem => ?_, hnodup⟩, List.forall_mem_cons.mpr ⟨?_, ?_⟩⟩
      · obtain ⟨s', hs', hkey⟩ := List.mem_map.mp hmem
        exact hfresh s' hs' (hkey ▸ List.mem_cons_self)
      · simpa using hnew
      · exact fun s' hs' hmem => hfresh s' hs' (List.mem_cons_of_mem _ hmem)

/-- No two sources of a timeline have one key. -/
theorem Timeline.keys_nodup (t : Timeline) : (t.sources.map MediaSource.key).Nodup :=
  (keys_firstByKey [] _).1

/-- Kinds are listed mention by mention. -/
theorem Timeline.kinds_keys (t : Timeline) :
    t.kinds.map Prod.fst = t.mentions.map MediaSource.key := by
  simp only [kinds, mentions, Clip.sources, List.map_flatMap, List.map_cons, List.map_map]
  rfl

/-- Every source of a timeline has a kind. -/
theorem Timeline.exists_kind {t : Timeline} {s : MediaSource} (h : s ∈ t.sources) :
    ∃ kind, t.kinds.lookup s.key = some kind := by
  have hkey : s.key ∈ t.kinds.map Prod.fst :=
    t.kinds_keys ▸ List.mem_map_of_mem (mem_of_mem_firstByKey h)
  obtain ⟨k, hk, hkey⟩ := List.mem_map.mp hkey
  exact Option.isSome_iff_exists.mp (List.lookup_isSome_iff.mpr ⟨k, hk, by simpa using hkey.symm⟩)

/-! ### Suffixes -/

/-- A point, and behind it neither another point nor a slash. -/
def IsSuffix (x : String) : Prop := ∃ rest, x.toList = '.' :: rest ∧ '.' ∉ rest ∧ '/' ∉ rest

theorem isSuffix_kindSuffix (kind : String) : IsSuffix (kindSuffix kind) := by
  unfold kindSuffix
  split <;> exact ⟨_, rfl, by decide, by decide⟩

theorem isSuffix_plainSuffixOr (kind path : String) : IsSuffix (plainSuffixOr kind path) := by
  have hpoint : isAlphanumeric '.' = false := by decide +kernel
  have hslash : isAlphanumeric '/' = false := by decide +kernel
  unfold plainSuffixOr
  dsimp only
  split
  · rename_i hplain
    unfold isPlainSuffix at hplain
    split at hplain
    · rename_i rest hrest
      simp only [Bool.and_eq_true, List.all_eq_true] at hplain
      refine ⟨rest, by rw [String.toList_ofList, hrest], fun h => ?_, fun h => ?_⟩
      · exact Bool.false_ne_true (hpoint.symm.trans (hplain.2 _ h))
      · exact Bool.false_ne_true (hslash.symm.trans (hplain.2 _ h))
    · cases hplain
  · exact isSuffix_kindSuffix kind

theorem isSuffix_of_suffixFor {s : MediaSource} {kind x : String}
    (h : suffixFor s kind = .ok x) : IsSuffix x := by
  unfold suffixFor at h
  cases hpath : s.path with
  | error f =>
    rw [hpath] at h
    cases h
  | ok path =>
    rw [hpath] at h
    cases h
    exact isSuffix_plainSuffixOr kind path

/-! ### Names -/

/-- A number and a text that begins with a point can be told apart. -/
theorem numbered_inj {n m : Nat} {x y : String} (hx : x.toList.head? = some '.')
    (hy : y.toList.head? = some '.') (h : toString n ++ x = toString m ++ y) : n = m ∧ x = y := by
  have hdigits : Nat.toDigits 10 n ++ x.toList = Nat.toDigits 10 m ++ y.toList := by
    simpa using congrArg String.toList h
  obtain ⟨hn, hrest⟩ := Number.digits_append_inj
    (fun c hc => by cases hx.symm.trans hc; decide) (fun c hc => by cases hy.symm.trans hc; decide)
    hdigits
  exact ⟨hn, String.toList_inj.mp hrest⟩

/-- Each source has its item, and each item the name of its position and a suffix. -/
theorem fetchItems_eq_ok {t : Timeline} {directory : Path} {index : Nat}
    {sources : List MediaSource} {items : List (MediaSource × Path)}
    (h : fetchItems t directory index sources = .ok items) :
    items.map Prod.fst = sources ∧ ∀ (n : Nat) (i : MediaSource × Path), items[n]? = some i →
      ∃ x, IsSuffix x ∧ i.2 = directory ++ [toString (index + n) ++ x] := by
  induction sources generalizing index items with
  | nil =>
    cases h
    exact ⟨rfl, nofun⟩
  | cons s rest ih =>
    obtain ⟨x, hx, h⟩ := bind_eq_ok_iff.mp h
    obtain ⟨more, hmore, h⟩ := bind_eq_ok_iff.mp h
    cases h
    obtain ⟨hsources, hnames⟩ := ih hmore
    refine ⟨by rw [List.map_cons, hsources], fun n i hi => ?_⟩
    cases n with
    | zero =>
      cases hi
      exact ⟨x, isSuffix_of_suffixFor hx, rfl⟩
    | succ n =>
      rw [← Nat.add_assoc, Nat.add_right_comm]
      exact hnames n i hi

/-- Names of the files that items are fetched to, and of the part files beside them. -/
def fileNames (items : List (MediaSource × Path)) : List String :=
  (Downloads.begin items).map (fun d => d.target.name) ++
    (Downloads.begin items).map fun d => d.part.name

section Names
variable {t : Timeline} {directory : Path} {items : List (MediaSource × Path)}
  (h : fetchItems t directory 0 t.sources = .ok items)
include h

theorem exists_name {n : Nat} {i : MediaSource × Path} (hi : items[n]? = some i) :
    ∃ x, IsSuffix x ∧ i.2.name = toString n ++ x := by
  obtain ⟨x, hx, hpath⟩ := (fetchItems_eq_ok h).2 n i hi
  exact ⟨x, hx, by rw [hpath, Path.name_concat, Nat.zero_add]⟩

theorem fileNames_eq : fileNames items =
    items.map (fun i => i.2.name) ++ items.map fun i => i.2.name ++ ".part" := by
  rw [fileNames, Downloads.begin, List.map_map, List.map_map]
  refine congrArg _ (List.map_congr_left fun i hi => ?_)
  obtain ⟨n, hn⟩ := List.getElem?_of_mem hi
  obtain ⟨x, -, hpath⟩ := (fetchItems_eq_ok h).2 n i hn
  rw [Function.comp_apply, Download.part_eq hpath, hpath, Path.name_concat, Path.name_concat]

/-- **No two files get one name, and none the name of a part file.** -/
theorem nodup_fileNames : (fileNames items).Nodup := by
  have hhead {x y : String} (hx : IsSuffix x) : (x ++ y).toList.head? = some '.' := by
    obtain ⟨rest, hrest, -⟩ := hx
    simp [hrest]
  have hnames : (items.map fun i => i.2.name).Nodup := by
    rw [List.Nodup, List.pairwise_map, List.pairwise_iff_getElem]
    intro n m hn hm hlt heq
    obtain ⟨x, hx, hxname⟩ := exists_name h (List.getElem?_eq_getElem hn)
    obtain ⟨y, hy, hyname⟩ := exists_name h (List.getElem?_eq_getElem hm)
    rw [hxname, hyname] at heq
    have hxhead := hhead (y := "") hx
    have hyhead := hhead (y := "") hy
    rw [String.append_empty] at hxhead hyhead
    have := (numbered_inj hxhead hyhead heq).1
    omega
  rw [fileNames_eq h]
  refine List.nodup_append'.mpr ⟨hnames, ?_, fun name hname hpart => ?_⟩
  · have hparts := hnames.map fun a b (hab : a ++ ".part" = b ++ ".part") => by simpa using hab
    rwa [List.map_map] at hparts
  · -- a part file has one point more
    obtain ⟨i, hi, rfl⟩ := List.mem_map.mp hname
    obtain ⟨j, hj, heq⟩ := List.mem_map.mp hpart
    obtain ⟨n, hn⟩ := List.getElem?_of_mem hi
    obtain ⟨m, hm⟩ := List.getElem?_of_mem hj
    obtain ⟨x, hx, hxname⟩ := exists_name h hn
    obtain ⟨y, hy, hyname⟩ := exists_name h hm
    rw [hxname, hyname, String.append_assoc] at heq
    have hxhead := hhead (y := "") hx
    rw [String.append_empty] at hxhead
    obtain ⟨-, rfl⟩ := numbered_inj (hhead hy) hxhead heq
    obtain ⟨rest, hrest, hpoint, -⟩ := hx
    obtain ⟨rest', hrest', -, -⟩ := hy
    rw [String.toList_append, hrest', List.cons_append, List.cons.injEq] at hrest
    exact hpoint (hrest.2 ▸ by simp)

/-- No slash stands in a name. -/
theorem slash_not_mem_fileNames : ∀ name ∈ fileNames items, '/' ∉ name.toList := by
  have hname : ∀ i ∈ items, '/' ∉ i.2.name.toList := by
    intro i hi
    obtain ⟨n, hn⟩ := List.getElem?_of_mem hi
    obtain ⟨x, ⟨rest, hrest, -, hslash⟩, hxname⟩ := exists_name h hn
    have hdigits : '/' ∉ Nat.toDigits 10 n := fun hmem =>
      absurd (Number.isDigit_of_mem_digits hmem) (by decide)
    rw [hxname, String.toList_append, hrest]
    simpa using ⟨hdigits, hslash⟩
  rw [fileNames_eq h, List.forall_mem_append, List.forall_mem_map, List.forall_mem_map]
  refine ⟨hname, fun i hi => ?_⟩
  rw [String.toList_append, List.mem_append, not_or]
  exact ⟨hname i hi, by decide⟩

end Names

end Montage
