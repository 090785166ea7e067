import Montage.Proofs.DownloadRuns

/-! # What downloads leave, and what they answer

When all downloads of a schedule are over, each target holds all of what was to be fetched, or it is as it
was, and no part file is left (`Downloads.Settled`).  The answer gives the targets in the order of the items
if all were stored, and else the fault of the first that was not (`Downloads.Answered`).  None of that
depends on the order between the downloads: schedules that bring the same to each item leave the same
(`Downloads.downloads_settled`).
-/
namespace Montage

open FileTree Path DownloadEvent

/-! ### What can be read in the directory -/

section Files
variable {t u : FileTree} {directory place p q : Path} {name : String}

/-- What is kept where a path leads is read as before. -/
theorem FileTree.Keeps.read?_eq (kept : Keeps q t u) (located : t.locate p = .ok q)
    (located' : u.locate p = .ok q) : u.nodeAt? p = t.nodeAt? p ∧ u.read? p = t.read? p := by
  have hnode : u.nodeAt? p = t.nodeAt? p := by simp only [nodeAt?, located, located', kept.node]
  have hplace : t.nodeAt? p = t.node? q := by simp only [nodeAt?, located]
  refine ⟨hnode, ?_⟩
  rw [read?, read?, handle?, handle?, hnode, hplace]
  cases hfile : t.node? q with
  | none => rfl
  | some n =>
    cases n with
    | directory => rfl
    | file k => exact kept.content k hfile

theorem nodeAt?_of_error {c : FileCause} (located : t.locate p = .error c) :
    t.nodeAt? p = none ∧ t.read? p = none := by
  simp only [read?, handle?, nodeAt?, located, Option.bind_none, and_self]

variable (files : t.HoldsFiles directory place) (files' : u.HoldsFiles directory place)
include files'

/-- No part file is there if none stands where it can. -/
theorem not_exists?_part
    (gone : CanStand (partName name) → u.node? (place ++ [partName name]) = none) :
    u.exists? (directory ++ [partName name]) = false := by
  rcases files'.stands.part_cases name with ⟨stand, hlocate, -⟩ | ⟨-, c, -, hlocate, -⟩
  · simp only [exists?, nodeAt?, hlocate, gone stand, Option.isSome_none]
  · simp only [exists?, nodeAt?, hlocate, Option.isSome_none]

theorem read?_of_node? (stand : CanStand name) {k : Handle} {c : Content}
    (node : u.node? (place ++ [name]) = some (.file k)) (content : u.content? k = some c) :
    u.read? (directory ++ [name]) = some c := by
  simp only [read?, handle?, nodeAt?, files'.stands.locate_of_canStand stand, node,
    Option.bind_some, content]

include files

/-- A file that is kept is read as before. -/
theorem read?_of_keeps (other : name ≠ "..") (kept : Keeps (place ++ [name]) t u) :
    u.nodeAt? (directory ++ [name]) = t.nodeAt? (directory ++ [name]) ∧
      u.read? (directory ++ [name]) = t.read? (directory ++ [name]) := by
  have hlocate : u.locate (directory ++ [name]) = t.locate (directory ++ [name]) := by
    rw [files.stands.locate_entry, files'.stands.locate_entry]
  cases hplace : t.locate (directory ++ [name]) with
  | error c =>
    obtain ⟨hnode, hread⟩ := nodeAt?_of_error hplace
    obtain ⟨hnode', hread'⟩ := nodeAt?_of_error (hlocate.trans hplace)
    exact ⟨hnode'.trans hnode.symm, hread'.trans hread.symm⟩
  | ok q =>
    obtain ⟨rfl, -⟩ := files.stands.locate_eq_ok other hplace
    exact kept.read?_eq hplace (hlocate.trans hplace)

/-- What happens in the directory makes no way and closes none. -/
theorem locate_eq_ok_iff_of_keeps (outside : ∀ q, ¬ Inside place q → Keeps q t u) :
    u.locate p = .ok q ↔ t.locate p = .ok q := by
  have hdirectory (r : Path) : t.node? r = some .directory ↔ u.node? r = some .directory := by
    by_cases hin : Inside place r
    · exact iff_of_false (files.flat r hin) (files'.flat r hin)
    · rw [(outside r hin).node]
  exact ⟨locate_mono fun r => (hdirectory r).mpr, locate_mono fun r => (hdirectory r).mp⟩

end Files

namespace Downloads

/-! ### What is left -/

/-- What is to be fetched for an item, and is not empty: of a remote file what arrives between the answer and
the end of the body, of an upload what it holds when it is copied. -/
structure Brought (items : List (MediaSource × Path)) (f : Fetcher) (t : FileTree) (schedule : Schedule)
    (i : Nat) (source : MediaSource) (c : Content) : Prop where
  given : 0 < c.size
  remote : ∀ url, source.remote? = some url → c = .raw (bodyOf (schedule.eventsOf i))
  upload : source.remote? = none → ∃ path,
    f.upload ((begin items).after f t (schedule.untilCopied i)).2 (source.uploadId.getD "") source =
      .ok (path, c)

/-- How an item has ended, as its own events say: all of it stands at its target, or its target is as it
was. -/
def Ended (items : List (MediaSource × Path)) (f : Fetcher) (t u : FileTree) (schedule : Schedule)
    (i : Nat) (item : MediaSource × Path) (phase : DownloadPhase) : Prop :=
  (phase = .stored ∧ ∃ c, fateIn items f t schedule i item = .stored c ∧
      Brought items f t schedule i item.1 c ∧ u.read? item.2 = some c) ∨
    ∃ fault, phase = .failed fault ∧ fateIn items f t schedule i item = .failed fault ∧
      u.nodeAt? item.2 = t.nodeAt? item.2 ∧ u.read? item.2 = t.read? item.2

/-- All were stored and their targets are given, or the first that failed says why. -/
def Answered (targets : List Path) (ds : Downloads)
    (answer : Option (Except FetchFault (List Path))) : Prop :=
  ((∀ d ∈ ds, d.phase = .stored) ∧ answer = some (.ok targets)) ∨
    ∃ (i : Nat) (d : Download) (fault : FetchFault), ds[i]? = some d ∧ d.phase = .failed fault ∧
      (∀ j < i, ∀ d' : Download, ds[j]? = some d' → d'.phase = .stored) ∧
      answer = some (.error fault)

/-- What items come to. -/
structure Settled (items : List (MediaSource × Path)) (f : Fetcher) (t : FileTree) (schedule : Schedule)
    (ds : Downloads) (u : FileTree) : Prop where
  each : ∀ (i : Nat) (item : MediaSource × Path), items[i]? = some item → ∃ phase,
    ds[i]? = some { fresh item with phase } ∧ u.exists? (fresh item).part = false ∧
      Ended items f t u schedule i item phase
  answer : Answered (items.map Prod.snd) ds ds.result?

/-- A schedule brings all downloads to their end, and none is given up. -/
structure Completes (items : List (MediaSource × Path)) (f : Fetcher) (t : FileTree)
    (schedule : Schedule) (ds : Downloads) (u : FileTree) : Prop where
  steady : ∀ e ∈ schedule, e.2 ≠ .abandoned
  reaches : (begin items).after f t schedule = (ds, u)
  finished : ds.areOver = true

section Ends
variable {items : List (MediaSource × Path)} {directory place : Path} {names : List String}
  {t u : FileTree} {f : Fetcher} {schedule : Schedule} {ds : Downloads} {i : Nat}
  {item : MediaSource × Path}

theorem Completes.length (h : Completes items f t schedule ds u) : ds.length = items.length := by
  have hafter := length_after (begin items) f t schedule
  rwa [h.reaches, begin, List.length_map] at hafter

theorem upload_of_found {d : Download} {c : Content} (h : d.found f t = .ok c) :
    ∃ path, f.upload t (d.source.uploadId.getD "") d.source = .ok (path, c) := by
  rw [Download.found] at h
  split at h
  · cases h
  · rename_i path c' hupload
    split at h
    · cases h
    · cases h
      exact ⟨path, hupload⟩

/-- What was stored is what was to be fetched. -/
theorem brought_of_fateIn {c : Content} (given : 0 < c.size)
    (stored : fateIn items f t schedule i item = .stored c) :
    Brought items f t schedule i item.1 c where
  given := given
  remote _ hurl := Fate.fateOf_remote hurl stored
  upload hremote := by
    obtain ⟨-, hfound⟩ := Fate.fateOf_upload hremote stored
    exact upload_of_found (d := fresh item) hfound

/-- A download that is over has ended, and its part file is gone. -/
theorem Settling.ended (h : Settling items f t directory place names schedule)
    (into : Into items directory names) (files : t.HoldsFiles directory place)
    (completes : Completes items f t schedule ds u) (hitem : items[i]? = some item) :
    ∃ phase, ds[i]? = some { fresh item with phase } ∧ u.exists? (fresh item).part = false ∧
      Ended items f t u schedule i item phase := by
  obtain ⟨name, hname, htarget, hother⟩ := into.name hitem
  obtain ⟨phase, hstage, hheld⟩ := h.each i item name hitem hname
  have hfiles := h.files
  rw [completes.reaches] at hfiles hheld hstage
  have hpart : (fresh item).part = directory ++ [partName name] := Download.part_eq htarget
  have hover : phase.isOver = true :=
    List.all_eq_true.mp completes.finished _ (List.mem_of_getElem? hstage)
  refine ⟨phase, hstage, ?_⟩
  rw [hpart, Ended, htarget]
  generalize hfate : fateIn items f t schedule i item = fate at hheld ⊢
  cases hheld with
  | stored stand gone k c node content size =>
    exact ⟨not_exists?_part hfiles fun _ => gone, Or.inl ⟨rfl, c, rfl, brought_of_fateIn size hfate,
      read?_of_node? hfiles (stand.of_part hother) node content⟩⟩
  | failed kept gone fault =>
    exact ⟨not_exists?_part hfiles gone, Or.inr ⟨fault, rfl, rfl,
      read?_of_keeps files hfiles hother kept⟩⟩
  | waiting _ | arriving _ _ _ _ _ _ | arrived _ _ _ _ _ _ | doomed _ _ => cases hover

/-! ### The answer -/

theorem fault?_cases (ended : ∀ d ∈ ds, d.phase = .stored ∨ ∃ fault, d.phase = .failed fault) :
    ((∀ d ∈ ds, d.phase = .stored) ∧ ds.fault? = none) ∨
      ∃ (i : Nat) (d : Download) (fault : FetchFault), ds[i]? = some d ∧ d.phase = .failed fault ∧
        (∀ j < i, ∀ d' : Download, ds[j]? = some d' → d'.phase = .stored) ∧
        ds.fault? = some fault := by
  induction ds with
  | nil => exact Or.inl ⟨fun d hd => absurd hd List.not_mem_nil, rfl⟩
  | cons d ds ih =>
    rcases ended d List.mem_cons_self with hstored | ⟨fault, hfailed⟩
    · have hskip : fault? (d :: ds) = fault? ds := by
        rw [fault?, List.findSome?_cons, hstored]
        rfl
      rcases ih fun d' hd' => ended d' (List.mem_cons_of_mem d hd') with
        ⟨hall, hnone⟩ | ⟨i, d', fault, hd', hfailed, hbefore, hfault⟩
      · refine Or.inl ⟨fun d' hd' => ?_, hskip.trans hnone⟩
        rcases List.mem_cons.mp hd' with rfl | hd'
        · exact hstored
        · exact hall d' hd'
      · refine Or.inr ⟨i + 1, d', fault, hd', hfailed, fun j hj d'' hd'' => ?_, hskip.trans hfault⟩
        cases j with
        | zero =>
          obtain rfl : d = d'' := Option.some.inj hd''
          exact hstored
        | succ j => exact hbefore j (Nat.lt_of_succ_lt_succ hj) d'' hd''
    · refine Or.inr ⟨0, d, fault, rfl, hfailed, fun j hj => absurd hj (Nat.not_lt_zero j), ?_⟩
      rw [fault?, List.findSome?_cons, hfailed]

theorem answered_result? (finished : ds.areOver = true)
    (ended : ∀ d ∈ ds, d.phase = .stored ∨ ∃ fault, d.phase = .failed fault) :
    Answered (ds.map Download.target) ds ds.result? := by
  rw [result?, if_pos finished]
  rcases fault?_cases ended with ⟨hall, hnone⟩ | ⟨i, d, fault, hd, hfailed, hbefore, hfault⟩
  · rw [hnone]
    exact Or.inl ⟨hall, rfl⟩
  · rw [hfault]
    exact Or.inr ⟨i, d, fault, hd, hfailed, hbefore, rfl⟩

/-- Complete downloads have settled. -/
theorem settled_of_completes (into : Into items directory names)
    (files : t.HoldsFiles directory place) (completes : Completes items f t schedule ds u) :
    Settled items f t schedule ds u := by
  have heach (i : Nat) (item : MediaSource × Path) (hitem : items[i]? = some item) :=
    (settling_after into files completes.steady).ended into files completes hitem
  have hlength := completes.length
  -- each download is that of an item
  have hitem (i : Nat) (hi : i < ds.length) : ∃ item, items[i]? = some item :=
    ⟨_, List.getElem?_eq_getElem (hlength ▸ hi)⟩
  have htargets : ds.map Download.target = items.map Prod.snd := by
    refine List.ext_getElem? fun i => ?_
    rw [List.getElem?_map, List.getElem?_map]
    by_cases hi : i < ds.length
    · obtain ⟨item, hitem⟩ := hitem i hi
      obtain ⟨phase, hd, -⟩ := heach i item hitem
      rw [hd, hitem]
      rfl
    · rw [List.getElem?_eq_none (Nat.le_of_not_lt hi),
        List.getElem?_eq_none (hlength ▸ Nat.le_of_not_lt hi), Option.map_none, Option.map_none]
  refine ⟨heach, ?_⟩
  rw [← htargets]
  refine answered_result? completes.finished fun d hd => ?_
  obtain ⟨i, hi⟩ := List.mem_iff_getElem?.mp hd
  obtain ⟨item, hitem⟩ := hitem i (List.getElem?_eq_some_iff.mp hi).1
  obtain ⟨phase, hstage, -, hended⟩ := heach i item hitem
  obtain rfl := Option.some.inj (hi.symm.trans hstage)
  rcases hended with ⟨hstored, -⟩ | ⟨fault, hfailed, -⟩
  · exact Or.inl hstored
  · exact Or.inr ⟨fault, hfailed⟩

end Ends

/-! ### The order does not matter -/

/-- Two schedules bring the same to each item: the same events, and the same upload if it is copied. -/
structure Alike (items : List (MediaSource × Path)) (f : Fetcher) (t : FileTree)
    (schedule other : Schedule) : Prop where
  events : ∀ i, other.eventsOf i = schedule.eventsOf i
  uploads : ∀ (i : Nat) (item : MediaSource × Path), items[i]? = some item → item.1.remote? = none →
    foundIn items f t other i item = foundIn items f t schedule i item

/-- No upload is kept in the directory. -/
def Elsewhere (items : List (MediaSource × Path)) (f : Fetcher) (t : FileTree) (place : Path) : Prop :=
  ∀ item ∈ items, item.1.remote? = none → ∀ path q,
    f.uploadPath (item.1.uploadId.getD "") = .ok path → t.locate path = .ok q → ¬ Inside place q

section Orders
variable {items : List (MediaSource × Path)} {directory place : Path} {names : List String}
  {t u u' : FileTree} {f : Fetcher} {schedule other : Schedule} {ds ds' : Downloads} {i : Nat}
  {item : MediaSource × Path}

theorem Alike.fateIn_eq (alike : Alike items f t schedule other) (hitem : items[i]? = some item) :
    fateIn items f t other i item = fateIn items f t schedule i item := by
  rw [fateIn, fateIn, alike.events i]
  cases hremote : item.1.remote? with
  | none => rw [alike.uploads i item hitem hremote]
  | some url => exact fateOf_congr_of_remote (p := { (fresh item).prospect f t with
      found := foundIn items f t schedule i item }) hremote _

/-- An item that comes to the same has ended in the same way. -/
theorem Ended.agree {phase phase' : DownloadPhase} (h : Ended items f t u schedule i item phase)
    (h' : Ended items f t u' other i item phase')
    (same : fateIn items f t other i item = fateIn items f t schedule i item) :
    phase' = phase ∧ u'.read? item.2 = u.read? item.2 := by
  rcases h with ⟨rfl, c, hfate, -, hread⟩ | ⟨fault, rfl, hfate, -, hread⟩
  · rcases h' with ⟨rfl, c', hfate', -, hread'⟩ | ⟨fault', -, hfate', -⟩
    · rw [same, hfate] at hfate'
      cases hfate'
      exact ⟨rfl, hread'.trans hread.symm⟩
    · rw [same, hfate] at hfate'
      cases hfate'
  · rcases h' with ⟨-, c', hfate', -⟩ | ⟨fault', rfl, hfate', -, hread'⟩
    · rw [same, hfate] at hfate'
      cases hfate'
    · rw [same, hfate] at hfate'
      cases hfate'
      exact ⟨rfl, hread'.trans hread.symm⟩

/-- **The order does not matter** to what is left and to what is answered. -/
theorem Completes.agree (h : Completes items f t schedule ds u) (h' : Completes items f t other ds' u')
    (into : Into items directory names) (files : t.HoldsFiles directory place)
    (alike : Alike items f t schedule other) :
    ds' = ds ∧ ∀ item ∈ items, u'.read? item.2 = u.read? item.2 := by
  have heach (i : Nat) (item : MediaSource × Path) (hitem : items[i]? = some item) :
      ds'[i]? = ds[i]? ∧ u'.read? item.2 = u.read? item.2 := by
    obtain ⟨phase, hstage, -, hended⟩ := (settled_of_completes into files h).each i item hitem
    obtain ⟨phase', hstage', -, hended'⟩ := (settled_of_completes into files h').each i item hitem
    obtain ⟨rfl, hread⟩ := hended.agree hended' (alike.fateIn_eq hitem)
    exact ⟨hstage'.trans hstage.symm, hread⟩
  refine ⟨List.ext_getElem? fun i => ?_, fun item hmem => ?_⟩
  · cases hitem : items[i]? with
    | some item => exact (heach i item hitem).1
    | none =>
      have hlength : items.length ≤ i := List.getElem?_eq_none_iff.mp hitem
      rw [List.getElem?_eq_none (Nat.le_trans (Nat.le_of_eq h.length) hlength),
        List.getElem?_eq_none (Nat.le_trans (Nat.le_of_eq h'.length) hlength)]
  · obtain ⟨i, hi⟩ := List.mem_iff_getElem?.mp hmem
    exact (heach i item hi).2

theorem uploadPath_of_upload {id : String} {s : MediaSource} {path : Path} {c : Content}
    (h : f.upload t id s = .ok (path, c)) : f.uploadPath id = .ok path := by
  rw [Fetcher.upload] at h
  split at h
  · cases h
  · rename_i path' hpath
    split at h
    · cases h
    · split at h
      · cases h
      · cases h
        exact hpath

/-- An upload that is kept elsewhere is not the part file. -/
theorem isSame_part (files : t.HoldsFiles directory place) {name : String}
    (target : item.2 = directory ++ [name]) {path : Path}
    (outside : ∀ q, t.locate path = .ok q → ¬ Inside place q) :
    t.isSame path (fresh item).part = false := by
  have hpart : (fresh item).part = directory ++ [partName name] := Download.part_eq target
  rw [isSame]
  split
  · rename_i a b ha hb
    rw [hpart] at hb
    obtain ⟨rfl, -⟩ := files.stands.locate_eq_ok (ne_dots_of_part name) hb
    rw [beq_eq_false_iff_ne.mpr (ne_entry_of_outside (outside a ha) _), Bool.false_and]
  · rfl

/-- An upload that is kept elsewhere is found as it was in the beginning. -/
theorem found_eq (files : t.HoldsFiles directory place) (files' : u.HoldsFiles directory place)
    (outside : ∀ q, ¬ Inside place q → Keeps q t u) {name : String}
    (target : item.2 = directory ++ [name])
    (elsewhere : ∀ path q, f.uploadPath (item.1.uploadId.getD "") = .ok path →
      t.locate path = .ok q → ¬ Inside place q) :
    (fresh item).found f u = (fresh item).found f t := by
  have hway (p q : Path) := locate_eq_ok_iff_of_keeps (p := p) (q := q) files files' outside
  have hother {v : FileTree} (hv : v.HoldsFiles directory place)
      (hlocate : ∀ p q, v.locate p = .ok q ↔ t.locate p = .ok q) {path : Path}
      (hpath : f.uploadPath (item.1.uploadId.getD "") = .ok path) :
      v.isSame path (fresh item).part = false :=
    isSame_part hv target fun q hq => elsewhere path q hpath ((hlocate path q).mp hq)
  have hread {path : Path} (hpath : f.uploadPath (item.1.uploadId.getD "") = .ok path) :
      u.read? path = t.read? path := by
    cases hlocate : t.locate path with
    | ok q =>
      exact ((outside q (elsewhere path q hpath hlocate)).read?_eq hlocate
        ((hway path q).mpr hlocate)).2
    | error c =>
      cases hlocate' : u.locate path with
      | ok q =>
        rw [(hway path q).mp hlocate'] at hlocate
        cases hlocate
      | error c' => rw [(nodeAt?_of_error hlocate).2, (nodeAt?_of_error hlocate').2]
  have hupload : f.upload u (item.1.uploadId.getD "") item.1 =
      f.upload t (item.1.uploadId.getD "") item.1 := by
    rw [Fetcher.upload, Fetcher.upload]
    cases hpath : f.uploadPath (item.1.uploadId.getD "") with
    | error e => rfl
    | ok path => simp only [hread hpath]
  have hsource : (fresh item).source = item.1 := rfl
  rw [Download.found, Download.found, hsource, hupload]
  cases hcases : f.upload t (item.1.uploadId.getD "") item.1 with
  | error e => rfl
  | ok r =>
    obtain ⟨path, c⟩ := r
    have hpath := uploadPath_of_upload hcases
    simp only [hother files' hway hpath, hother files (fun _ _ => Iff.rfl) hpath]

/-- If no upload is kept in the directory, it does not matter when one is copied. -/
theorem foundIn_eq (into : Into items directory names) (files : t.HoldsFiles directory place)
    (elsewhere : Elsewhere items f t place) (steady : ∀ e ∈ schedule, e.2 ≠ .abandoned)
    (hitem : items[i]? = some item) (upload : item.1.remote? = none) :
    foundIn items f t schedule i item = (fresh item).found f t := by
  obtain ⟨name, -, htarget, -⟩ := into.name hitem
  have hbefore : ∀ e ∈ schedule.untilCopied i, e.2 ≠ .abandoned := fun e he =>
    steady e ((List.takeWhile_prefix _).subset he)
  have hsettling := settling_after (f := f) into files hbefore
  exact found_eq files hsettling.files hsettling.outside htarget
    (elsewhere item (List.mem_of_getElem? hitem) upload)

/-- If no upload is kept in the directory, all schedules that bring the same events are alike. -/
theorem alike_of_elsewhere (into : Into items directory names) (files : t.HoldsFiles directory place)
    (elsewhere : Elsewhere items f t place) (steady : ∀ e ∈ schedule, e.2 ≠ .abandoned)
    (steady' : ∀ e ∈ other, e.2 ≠ .abandoned)
    (events : ∀ i, other.eventsOf i = schedule.eventsOf i) :
    Alike items f t schedule other := by
  refine ⟨events, fun i item hitem hremote => ?_⟩
  rw [foundIn_eq into files elsewhere steady' hitem hremote,
    foundIn_eq into files elsewhere steady hitem hremote]

/-- **All downloads run to their end, and what they leave does not depend on their order.**  Each target
holds all of what was fetched, or it is as it was; no part file is left; and the answer gives all
targets, or the first fault in the order of the items. -/
theorem downloads_settled (into : Into items directory names) (files : t.HoldsFiles directory place)
    (f : Fetcher) :
    (∀ schedule ds u, Completes items f t schedule ds u → Settled items f t schedule ds u) ∧
    (∀ schedule other ds ds' u u', Completes items f t schedule ds u →
      Completes items f t other ds' u' → Alike items f t schedule other →
      ds' = ds ∧ ∀ item ∈ items, u'.read? item.2 = u.read? item.2) ∧
    (Elsewhere items f t place → ∀ schedule other : Schedule, (∀ e ∈ schedule, e.2 ≠ .abandoned) →
      (∀ e ∈ other, e.2 ≠ .abandoned) → (∀ i, other.eventsOf i = schedule.eventsOf i) →
      Alike items f t schedule other) ∧
    ∀ network, ∃ schedule, Completes items f t schedule ((begin items).run network f t).1
      ((begin items).run network f t).2 := by
  refine ⟨fun schedule ds u h => settled_of_completes into files h,
    fun schedule other ds ds' u u' h h' alike => h.agree h' into files alike,
    fun elsewhere schedule other steady steady' events =>
      alike_of_elsewhere into files elsewhere steady steady' events, fun network => ?_⟩
  obtain ⟨schedule, hsteady, hrun⟩ := run_after network f (begin items) t
  exact ⟨schedule, hsteady, hrun.symm, run_areOver network f items t⟩

end Orders

namespace Sample
/-- A directory with an old file, beside one with an upload. -/
def workshop : FileTree :=
  ⟨[(["uploads"], .directory), (["uploads", "in.mp4"], .file 0), (["work"], .directory),
    (["work", "b.mp4"], .file 1)], [.raw [7, 7], .raw [1]]⟩

/-- A file that is there, one that is not, and an upload. -/
def orders : List (MediaSource × Path) :=
  [(⟨some "http://h/a", none, by decide⟩, ["work", "a.mp4"]),
    (⟨some "http://h/b", none, by decide⟩, ["work", "b.mp4"]),
    (⟨none, some "in.mp4", by decide⟩, ["work", "c.mp4"])]

def courier : Fetcher := ⟨["uploads"], .int 60, 65536⟩

def interleaved : Schedule :=
  [(0, .answered 200), (1, .answered 404), (0, .data [1, 2]), (2, .copied), (0, .data [3]),
    (1, .settled), (0, .ended), (0, .settled)]

def oneByOne : Schedule :=
  [(2, .copied), (1, .answered 404), (1, .settled), (0, .answered 200), (0, .data [1, 2]),
    (0, .data [3]), (0, .ended), (0, .settled)]

/-- What the downloads come to and what they leave. -/
def delivered : Downloads × FileTree := (begin orders).after courier workshop interleaved

theorem orders_into : Into orders ["work"] ["a.mp4", "b.mp4", "c.mp4"] :=
  ⟨rfl, by decide, by decide, by decide⟩

theorem workshop_holdsFiles : HoldsFiles ["work"] ["work"] workshop where
  stands := ⟨by decide, rfl⟩
  flat q hq hd := by
    have hmem := mem_of_node? hd
    simp only [workshop, List.mem_cons, Prod.mk.injEq, reduceCtorEq, and_true, and_false,
      List.not_mem_nil, or_false, false_or] at hmem
    rcases hmem with rfl | rfl
    · exact absurd hq.1 (by decide)
    · exact hq.2 rfl
  sane name :=
    { known := fun q k hmem => by
        simp [workshop] at hmem
        rcases hmem with ⟨-, rfl⟩ | ⟨-, rfl⟩ <;> decide
      alone := fun q k hk hq => by
        have hmem := mem_of_node? hk
        simp [workshop] at hmem hq
        obtain ⟨rfl, rfl⟩ := hmem
        simpa using hq }

theorem orders_elsewhere : Elsewhere orders courier workshop ["work"] := by
  intro item hitem hremote path q hpath hlocate
  simp only [orders, List.mem_cons, List.not_mem_nil, or_false] at hitem
  rcases hitem with rfl | rfl | rfl
  · cases hremote
  · cases hremote
  · have hin : courier.uploadPath "in.mp4" = .ok ["uploads", "in.mp4"] := by decide
    obtain rfl : ["uploads", "in.mp4"] = path := Except.ok.inj (hin.symm.trans hpath)
    obtain rfl : ["uploads", "in.mp4"] = q := Except.ok.inj hlocate
    exact fun hinside => absurd hinside.1 (by decide)

theorem eventsOf_oneByOne (i : Nat) : oneByOne.eventsOf i = interleaved.eventsOf i := by
  rcases i with _ | _ | _ | i
  · rfl
  · rfl
  · rfl
  · simp [Schedule.eventsOf, oneByOne, interleaved]

end Sample

theorem downloads_settled_sample :
    Settled Sample.orders Sample.courier Sample.workshop Sample.interleaved Sample.delivered.1
        Sample.delivered.2 ∧
      Alike Sample.orders Sample.courier Sample.workshop Sample.interleaved Sample.oneByOne ∧
      ((begin Sample.orders).after Sample.courier Sample.workshop Sample.oneByOne).1 =
        Sample.delivered.1 ∧
      Sample.delivered.1.result? = some (.error (.missing "http://h/b")) ∧
      Sample.delivered.2.read? ["work", "a.mp4"] = some (.raw [1, 2, 3]) ∧
      Sample.delivered.2.read? ["work", "b.mp4"] = some (.raw [1]) ∧
      Sample.delivered.2.read? ["work", "c.mp4"] = some (.raw [7, 7]) := by
  have hcomplete : Completes Sample.orders Sample.courier Sample.workshop Sample.interleaved
      Sample.delivered.1 Sample.delivered.2 :=
    ⟨by decide, (Prod.eta _).symm, by decide⟩
  have hcomplete' : Completes Sample.orders Sample.courier Sample.workshop Sample.oneByOne
      ((begin Sample.orders).after Sample.courier Sample.workshop Sample.oneByOne).1
      ((begin Sample.orders).after Sample.courier Sample.workshop Sample.oneByOne).2 :=
    ⟨by decide, (Prod.eta _).symm, by decide⟩
  obtain ⟨hsettled, hagree, halike, -⟩ :=
    downloads_settled Sample.orders_into Sample.workshop_holdsFiles Sample.courier
  have hsame := halike Sample.orders_elsewhere Sample.interleaved Sample.oneByOne hcomplete.steady
    hcomplete'.steady Sample.eventsOf_oneByOne
  exact ⟨hsettled _ _ _ hcomplete, hsame, (hagree _ _ _ _ _ _ hcomplete hcomplete' hsame).1,
    by decide⟩
end Downloads
end Montage
