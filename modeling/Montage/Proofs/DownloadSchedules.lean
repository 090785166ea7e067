import Montage.Proofs.Deliveries
import Mathlib.Data.List.TakeWhile

/-! # Downloads in any order

A schedule says which download takes which event.  Each download comes to what its own events make of it,
and what the others do matters only to an upload, at the moment when it is copied (`Downloads.fateIn`).
So after each schedule every download and its files are as its fate says (`Downloads.settling_after`):
by one event one download moves on, and the others stay (`Downloads.settling_step`).
-/
namespace Montage

open FileTree Path DownloadEvent

/-- Events, and the download that takes each of them. -/
abbrev Schedule := List (Nat × DownloadEvent)

namespace Schedule
variable {schedule : Schedule} {i j : Nat} {e : DownloadEvent}

/-- The events of one download. -/
def eventsOf (schedule : Schedule) (i : Nat) : List DownloadEvent :=
  (schedule.filter fun e => e.1 == i).map Prod.snd

/-- What comes before the copy of an upload. -/
def untilCopied (schedule : Schedule) (i : Nat) : Schedule :=
  schedule.takeWhile fun e => e != (i, .copied)

theorem mem_eventsOf : e ∈ schedule.eventsOf i ↔ (i, e) ∈ schedule := by simp [eventsOf]

theorem eventsOf_concat_self (schedule : Schedule) (i : Nat) (e : DownloadEvent) :
    eventsOf (schedule ++ [(i, e)]) i = schedule.eventsOf i ++ [e] := by simp [eventsOf]

theorem eventsOf_concat_of_ne (schedule : Schedule) (h : j ≠ i) (e : DownloadEvent) :
    eventsOf (schedule ++ [(j, e)]) i = schedule.eventsOf i := by simp [eventsOf, h]

/-- Only the first copy counts. -/
theorem untilCopied_append (copied : .copied ∈ schedule.eventsOf i) (rest : Schedule) :
    untilCopied (schedule ++ rest) i = schedule.untilCopied i := by
  rw [untilCopied, untilCopied, List.takeWhile_append, if_neg]
  intro hlength
  have hwhole := (List.takeWhile_prefix _).eq_of_length hlength
  have hall := List.takeWhile_eq_self_iff.mp hwhole _ (mem_eventsOf.mp copied)
  simp at hall

theorem untilCopied_concat (uncopied : .copied ∉ schedule.eventsOf i) :
    untilCopied (schedule ++ [(i, .copied)]) i = schedule := by
  rw [untilCopied, List.takeWhile_append_of_pos]
  · simp
  · intro e he
    rw [bne_iff_ne]
    rintro rfl
    exact uncopied (mem_eventsOf.mpr he)

end Schedule

namespace Downloads

/-- Downloads after the events of a schedule. -/
def after (ds : Downloads) (f : Fetcher) (t : FileTree) (schedule : Schedule) : Downloads × FileTree :=
  schedule.foldl (fun s e => s.1.step f s.2 e.1 e.2) (ds, t)

theorem after_append (ds : Downloads) (f : Fetcher) (t : FileTree) (schedule rest : Schedule) :
    ds.after f t (schedule ++ rest) =
      (ds.after f t schedule).1.after f (ds.after f t schedule).2 rest := by
  rw [after, after, List.foldl_append, after]

theorem step_of_some {ds : Downloads} {i : Nat} {d : Download} (h : ds[i]? = some d) (f : Fetcher)
    (t : FileTree) (e : DownloadEvent) :
    ds.step f t i e = (ds.set i (d.step f t e).1, (d.step f t e).2) := by rw [step, h]

theorem step_of_none {ds : Downloads} {i : Nat} (h : ds[i]? = none) (f : Fetcher) (t : FileTree)
    (e : DownloadEvent) : ds.step f t i e = (ds, t) := by rw [step, h]

theorem length_step (ds : Downloads) (f : Fetcher) (t : FileTree) (i : Nat) (e : DownloadEvent) :
    (ds.step f t i e).1.length = ds.length := by
  cases h : ds[i]? with
  | none => rw [step_of_none h]
  | some d => rw [step_of_some h, List.length_set]

theorem length_after (ds : Downloads) (f : Fetcher) (t : FileTree) (schedule : Schedule) :
    (ds.after f t schedule).1.length = ds.length := by
  induction schedule generalizing ds t with
  | nil => rfl
  | cons e rest ih => exact (ih _ _).trans (length_step ds f t e.1 e.2)

/-! ### The items -/

/-- The targets of items are different names in a directory, and none of them is a part file. -/
structure Into (items : List (MediaSource × Path)) (directory : Path) (names : List String) : Prop where
  targets : items.map Prod.snd = names.map fun name => directory ++ [name]
  different : names.Nodup
  noPart : ∀ n ∈ names, ∀ m ∈ names, n ≠ partName m
  noUp : ".." ∉ names

section Items
variable {items : List (MediaSource × Path)} {directory : Path} {names : List String} {i j : Nat}

theorem Into.name (into : Into items directory names) {item : MediaSource × Path}
    (h : items[i]? = some item) :
    ∃ name, names[i]? = some name ∧ item.2 = directory ++ [name] ∧ name ≠ ".." := by
  have htargets := congrArg (fun l : List Path => l[i]?) into.targets
  simp only [List.getElem?_map, h, Option.map_some] at htargets
  obtain ⟨name, hname, heq⟩ := Option.map_eq_some_iff.mp htargets.symm
  exact ⟨name, hname, heq.symm, fun hup => into.noUp (hup ▸ List.mem_of_getElem? hname)⟩

/-- What one download works at is no file of another one. -/
theorem Into.apart (into : Into items directory names) {n m : String} (hi : names[i]? = some n)
    (hj : names[j]? = some m) (hne : i ≠ j) :
    m ∉ [n, partName n] ∧ partName m ∉ [n, partName n] := by
  have hn := List.mem_of_getElem? hi
  have hm := List.mem_of_getElem? hj
  have hdifferent : m ≠ n := by
    rintro rfl
    have hlt : i < names.length := (List.getElem?_eq_some_iff.mp hi).1
    exact hne ((List.getElem?_inj hlt into.different).mp (hi.trans hj.symm))
  have hparts : partName m ≠ partName n := by
    intro h
    exact hdifferent (by simpa using h)
  simp only [List.mem_cons, List.not_mem_nil, or_false, not_or]
  exact ⟨⟨hdifferent, into.noPart m hm n hn⟩, (into.noPart n hn m hm).symm, hparts⟩

end Items

/-! ### What each download comes to -/

/-- A download that waits for its first event. -/
def fresh (item : MediaSource × Path) : Download := ⟨item.1, item.2, .waiting⟩

/-- What an upload finds when a schedule copies it. -/
def foundIn (items : List (MediaSource × Path)) (f : Fetcher) (t : FileTree) (schedule : Schedule)
    (i : Nat) (item : MediaSource × Path) : Except FetchFault Content :=
  (fresh item).found f ((begin items).after f t (schedule.untilCopied i)).2

/-- What a download comes to with its own events. -/
def fateIn (items : List (MediaSource × Path)) (f : Fetcher) (t : FileTree) (schedule : Schedule)
    (i : Nat) (item : MediaSource × Path) : Fate :=
  fateOf { (fresh item).prospect f t with found := foundIn items f t schedule i item }
    (schedule.eventsOf i)

section Fates
variable {items : List (MediaSource × Path)} {f : Fetcher} {t : FileTree} {schedule : Schedule}
  {i j : Nat} {item : MediaSource × Path}

/-- An event of another download does not matter. -/
theorem fateIn_concat_of_ne (hne : j ≠ i) (e : DownloadEvent) :
    fateIn items f t (schedule ++ [(j, e)]) i item = fateIn items f t schedule i item := by
  rw [fateIn, fateIn, Schedule.eventsOf_concat_of_ne schedule hne]
  by_cases hcopied : .copied ∈ schedule.eventsOf i
  · rw [foundIn, Schedule.untilCopied_append hcopied, ← foundIn]
  · exact fateOf_congr (p := { (fresh item).prospect f t with
      found := foundIn items f t schedule i item }) hcopied _

/-- An event of its own makes of it what it makes of it with what would be found now. -/
theorem fateIn_concat_self (e : DownloadEvent) :
    fateIn items f t (schedule ++ [(i, e)]) i item =
      .step { (fresh item).prospect f t with
          found := (fresh item).found f ((begin items).after f t schedule).2 }
        (fateIn items f t schedule i item) e := by
  rw [fateIn, Schedule.eventsOf_concat_self, fateOf, List.foldl_concat, ← fateOf]
  by_cases hcopied : .copied ∈ schedule.eventsOf i
  · -- what was found before counts
    rw [foundIn, Schedule.untilCopied_append hcopied, ← foundIn, ← fateIn]
    exact (Fate.step_found (p := { (fresh item).prospect f t with
      found := foundIn items f t schedule i item }) _ fun _ upload =>
        Fate.fold_ne_waiting upload hcopied .waiting).symm
  · have hbefore : fateOf { (fresh item).prospect f t with
          found := foundIn items f t (schedule ++ [(i, e)]) i item } (schedule.eventsOf i) =
        fateIn items f t schedule i item :=
      fateOf_congr (p := { (fresh item).prospect f t with
        found := foundIn items f t schedule i item }) hcopied _
    rw [hbefore]
    by_cases hcopy : e = .copied
    · subst hcopy
      rw [foundIn, Schedule.untilCopied_concat hcopied]
    · exact (Fate.step_found (p := { (fresh item).prospect f t with
        found := foundIn items f t (schedule ++ [(i, e)]) i item }) _ fun h =>
          absurd h hcopy).symm

end Fates

/-! ### All downloads at once -/

/-- Each download and its files follow a fate. -/
def Faring (items : List (MediaSource × Path)) (names : List String) (start t : FileTree) (place : Path)
    (ds : Downloads) (fate : Nat → MediaSource × Path → Fate) : Prop :=
  ∀ (i : Nat) (item : MediaSource × Path) (name : String), items[i]? = some item →
    names[i]? = some name → ∃ phase, ds[i]? = some { fresh item with phase } ∧
      Download.Held start t place name (fate i item) phase

section Faring
variable {items : List (MediaSource × Path)} {directory place : Path} {names : List String}
  {start t : FileTree} {ds : Downloads} {fate : Nat → MediaSource × Path → Fate}

theorem faring_begin (fate : Nat → MediaSource × Path → Fate)
    (waiting : ∀ i item, fate i item = .waiting) :
    Faring items names t t place (begin items) fate := by
  intro i item name hitem _
  refine ⟨.waiting, by simp [begin, hitem, fresh], ?_⟩
  rw [waiting]
  exact .waiting (.refl _ t)

/-- **With an event one download moves on, and the others stay.** -/
theorem Faring.step (h : Faring items names start t place ds fate) (length : ds.length = items.length)
    (into : Into items directory names) (files : t.HoldsFiles directory place) (f : Fetcher) (j : Nat)
    {e : DownloadEvent} (steady : e ≠ .abandoned) (fate' : Nat → MediaSource × Path → Fate)
    (moved : ∀ item phase, items[j]? = some item →
      fate' j item = .step (Download.prospect { fresh item with phase } f t) (fate j item) e)
    (others : ∀ i item, j ≠ i → fate' i item = fate i item) :
    (ds.step f t j e).2.HoldsFiles directory place ∧
      (∀ q, ¬ Inside place q → Keeps q t (ds.step f t j e).2) ∧
      Faring items names start (ds.step f t j e).2 place (ds.step f t j e).1 fate' := by
  cases hitem : items[j]? with
  | none =>
    have hnone : ds[j]? = none := by
      rw [List.getElem?_eq_none_iff, length]
      exact List.getElem?_eq_none_iff.mp hitem
    rw [step_of_none hnone]
    refine ⟨files, fun q _ => .refl q t, fun i item name hi hname => ?_⟩
    have hne : j ≠ i := by
      rintro rfl
      rw [hitem] at hi
      cases hi
    rw [others i item hne]
    exact h i item name hi hname
  | some item =>
    obtain ⟨name, hname, htarget, hother⟩ := into.name hitem
    obtain ⟨phase, hstage, hheld⟩ := h j item name hitem hname
    have hfares := Download.fares_step (d := { fresh item with phase }) f files htarget hother
      hheld steady
    rw [← moved item phase hitem] at hfares
    rw [step_of_some hstage]
    generalize Download.step { fresh item with phase } f t e = r at hfares
    obtain ⟨d, u⟩ := r
    refine ⟨hfares.files, hfares.works.outside, fun i item' name' hi hname' => ?_⟩
    by_cases hsame : j = i
    · subst hsame
      obtain rfl : item = item' := Option.some.inj (hitem.symm.trans hi)
      obtain rfl : name = name' := Option.some.inj (hname.symm.trans hname')
      have hlt : j < ds.length := (List.getElem?_eq_some_iff.mp hstage).1
      have hphase : d = { fresh item with phase := d.phase } := by
        obtain ⟨hsource, htarget', -, -, -⟩ := hfares
        obtain ⟨source, target, phase'⟩ := d
        cases hsource
        cases htarget'
        rfl
      exact ⟨d.phase, by rw [List.getElem?_set_self hlt, ← hphase], hfares.held⟩
    · obtain ⟨phase', hstage', hheld'⟩ := h i item' name' hi hname'
      obtain ⟨htargetApart, hpartApart⟩ := into.apart hname hname' hsame
      refine ⟨phase', by rw [List.getElem?_set_ne hsame, hstage'], ?_⟩
      rw [others i item' hsame]
      exact hheld'.mono (hfares.works.others name' htargetApart)
        (hfares.works.others (partName name') hpartApart)

end Faring

/-- What holds after a schedule. -/
structure Settling (items : List (MediaSource × Path)) (f : Fetcher) (t : FileTree)
    (directory place : Path) (names : List String) (schedule : Schedule) : Prop where
  files : ((begin items).after f t schedule).2.HoldsFiles directory place
  outside : ∀ q, ¬ Inside place q → Keeps q t ((begin items).after f t schedule).2
  each : Faring items names t ((begin items).after f t schedule).2 place
    ((begin items).after f t schedule).1 (fateIn items f t schedule)

section Runs
variable {items : List (MediaSource × Path)} {directory place : Path} {names : List String}
  {t : FileTree} {f : Fetcher} {schedule : Schedule}

theorem settling_begin (files : t.HoldsFiles directory place) :
    Settling items f t directory place names [] where
  files := files
  outside q _ := .refl q t
  each := faring_begin _ fun _ _ => rfl

/-- What a download meets later is what it meets in the beginning, but for its upload. -/
theorem prospect_eq {u : FileTree} (files : t.HoldsFiles directory place)
    (files' : u.HoldsFiles directory place) {item : MediaSource × Path} {name : String}
    (target : item.2 = directory ++ [name]) (phase : DownloadPhase) :
    Download.prospect { fresh item with phase } f u =
      { (fresh item).prospect f t with found := (fresh item).found f u } := by
  have hpart : (fresh item).part = directory ++ [partName name] := Download.part_eq target
  have hobstacle : u.obstacleAt? (fresh item).part = t.obstacleAt? (fresh item).part := by
    rw [hpart]
    exact files'.stands.obstacleAt?_eq files.stands _
  have hsame : Download.prospect { fresh item with phase } f u =
      ⟨item.1, f.limit, u.obstacleAt? (fresh item).part, (fresh item).found f u⟩ := rfl
  rw [hsame, hobstacle]
  rfl

/-- With an event of the schedule one download moves on. -/
theorem settling_step (into : Into items directory names) (files : t.HoldsFiles directory place)
    (h : Settling items f t directory place names schedule) (j : Nat) {e : DownloadEvent}
    (steady : e ≠ .abandoned) : Settling items f t directory place names (schedule ++ [(j, e)]) := by
  have hconcat : (begin items).after f t (schedule ++ [(j, e)]) =
      ((begin items).after f t schedule).1.step f ((begin items).after f t schedule).2 j e :=
    after_append (begin items) f t schedule [(j, e)]
  have hlength : ((begin items).after f t schedule).1.length = items.length := by
    rw [length_after, begin, List.length_map]
  obtain ⟨hfiles, houtside, heach⟩ := h.each.step hlength into h.files f j steady
    (fateIn items f t (schedule ++ [(j, e)])) (fun item phase hitem => by
      obtain ⟨name, -, htarget, -⟩ := into.name hitem
      rw [prospect_eq files h.files htarget, ← fateIn_concat_self])
    fun i item hne => fateIn_concat_of_ne hne e
  rw [← hconcat] at hfiles houtside heach
  exact ⟨hfiles, fun q hq => (h.outside q hq).trans (houtside q hq), heach⟩

/-- **Every download follows its own events**, whatever the order between the downloads. -/
theorem settling_after (into : Into items directory names) (files : t.HoldsFiles directory place)
    (steady : ∀ e ∈ schedule, e.2 ≠ .abandoned) :
    Settling items f t directory place names schedule := by
  induction schedule using List.reverseRecOn with
  | nil => exact settling_begin files
  | append_singleton schedule e ih =>
    have hbefore := ih fun e' he' => steady e' (List.mem_append_left _ he')
    exact settling_step into files hbefore e.1 (steady e (by simp))

end Runs
end Downloads
end Montage
