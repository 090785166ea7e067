import Montage.Proofs.DownloadAnswers
import Montage.Proofs.SourceNames
import Montage.Proofs.StationSteps

/-! # The way of a job

A job waits, then it fetches its files, and then it goes from station to station.  All along it is where its
brief says, told from what it has heard (`Tracks`): with its own events it goes on (`Tracks.step_own`),
and with those of others it stays (`Tracks.step_of_other`).
-/
namespace Montage

open FileTree Path Service Downloads

/-- What is fetched does not depend on the directory, but for the paths. -/
theorem fetchItems_append (t : Timeline) (base directory : Path) (index : Nat)
    (sources : List MediaSource) :
    fetchItems t (base ++ directory) index sources =
      (fetchItems t directory index sources).map (List.map fun i => (i.1, base ++ i.2)) := by
  induction sources generalizing index with
  | nil => rfl
  | cons s rest ih =>
    rw [fetchItems, fetchItems, ih]
    simp only [bind, Except.bind]
    cases suffixFor s (t.kindOf s) with
    | error f => rfl
    | ok suffix =>
      dsimp only
      cases fetchItems t directory (index + 1) rest with
      | error f => rfl
      | ok more => simp [Except.map]

/-- Why a download has failed, if it has. -/
def DownloadPhase.fault? : DownloadPhase → Option FetchFault
  | failed f => some f
  | _ => none

/-- The assets have a directory of plain files. -/
theorem FileTree.Estate.holdsFiles {t : FileTree} {base : Path} {taken : Handle → Prop}
    (h : t.Estate base taken) (plain : ".." ∉ base)
    (assets : t.node? (base ++ [Job.assetsName]) = some .directory) :
    t.HoldsFiles (base ++ [Job.assetsName]) (base ++ [Job.assetsName]) where
  stands := by
    have hstand : CanStand Job.assetsName := ⟨by decide, by decide, by decide⟩
    have hzero : CanStand "0" := ⟨by decide, by decide, by decide⟩
    exact .of_reaches (Path.plain_concat plain (by decide))
      ((h.reaches_entry hstand).child assets (by simp) hzero.short)
  flat := fun q hq =>
    h.flat q ((inside_concat base _).extend hq.1) hq.2
  sane := fun name => h.sane ((List.prefix_append _ _).trans (List.prefix_append _ _))

namespace Brief
variable (b : Brief) (id : JobId)

/-- Names of the files that are fetched. -/
def names (items : List (MediaSource × Path)) : List String := items.map fun i => i.2.name

/-- The directory of the assets. -/
def assets : Path := b.home id ++ [Job.assetsName]

/-- What stands against the part file of an item. -/
def obstacle (item : MediaSource × Path) : Option FileFault :=
  (Path.nameFault? (partName item.2.name)).map fun c =>
    .at c (b.assets id ++ [partName item.2.name])

/-- What a download of the job comes to. -/
def fareOf (deliveries : List Delivery) (i : Nat) (item : MediaSource × Path) : Fate :=
  b.fate (b.obstacle id item) deliveries i item.1

/-- A job fetches its files, and each of them fares as the brief says. -/
structure Fetching (s : Service) (deliveries : List Delivery) (items : List (MediaSource × Path))
    (ds : Downloads) : Prop where
  listed : b.items = .ok items
  seen : s.view id = b.working id .downloading (.fetching ds) none none none
  stands : s.store.files.node? (b.assets id) = some .directory
  length : ds.length = items.length
  faring : ∃ start, Faring (items.map (b.placed id)) (names items) start s.store.files (b.assets id) ds
    (b.fareOf id deliveries)

variable {b id} {s : Service} {deliveries : List Delivery} {items : List (MediaSource × Path)}
  {ds : Downloads}

theorem fetchItems_eq (b : Brief) (id : JobId) :
    fetchItems b.timeline (b.assets id) 0 b.timeline.sources =
      b.items.map (List.map (b.placed id)) :=
  fetchItems_append b.timeline (b.home id) [Job.assetsName] 0 b.timeline.sources

/-- The files are fetched to names of their own. -/
theorem into_assets (id : JobId) (listed : b.items = .ok items) :
    Into (items.map (b.placed id)) (b.assets id) (names items) := by
  have hlisted : fetchItems b.timeline [Job.assetsName] 0 b.timeline.sources = .ok items := listed
  have hnodup := nodup_fileNames hlisted
  rw [fileNames_eq hlisted, List.nodup_append'] at hnodup
  refine ⟨?_, hnodup.1, fun n hn m hm heq => ?_, fun hup => ?_⟩
  · rw [names, List.map_map, List.map_map]
    refine List.map_congr_left fun i hi => ?_
    obtain ⟨n, hn⟩ := List.getElem?_of_mem hi
    obtain ⟨x, -, hpath⟩ := (fetchItems_eq_ok hlisted).2 n i hn
    simp only [Function.comp_apply, placed, assets]
    rw [hpath, Path.name_concat, List.append_assoc]
  · obtain ⟨i, hi, rfl⟩ := List.mem_map.mp hm
    subst heq
    exact hnodup.2.2 hn (List.mem_map.mpr ⟨i, hi, rfl⟩)
  · obtain ⟨i, hi, hname⟩ := List.mem_map.mp hup
    obtain ⟨n, hn⟩ := List.getElem?_of_mem hi
    obtain ⟨x, -, hx⟩ := exists_name hlisted hn
    have hdigits : Nat.toDigits 10 n ++ x.toList = ['.', '.'] := by
      simpa using congrArg String.toList (hx.symm.trans hname)
    cases htext : Nat.toDigits 10 n with
    | nil => exact absurd htext Nat.toDigits_ne_nil
    | cons c rest =>
      rw [htext, List.cons_append, List.cons.injEq] at hdigits
      have hdigit : c.isDigit = true := Number.isDigit_of_mem_digits (htext ▸ List.mem_cons_self)
      rw [hdigits.1] at hdigit
      cases hdigit

/-- What stands against a part file is known from its name. -/
theorem obstacleAt?_part {t : FileTree} (stands : t.Stands (b.assets id) (b.assets id))
    (listed : b.items = .ok items) {i : Nat} {item : MediaSource × Path}
    (hitem : (items.map (b.placed id))[i]? = some item) (phase : DownloadPhase) :
    t.obstacleAt? (Download.part { fresh item with phase }) = b.obstacle id item := by
  obtain ⟨name, hname, htarget, -⟩ := (into_assets id listed).name hitem
  have hpart : Download.part { fresh item with phase } = b.assets id ++ [partName name] :=
    Download.part_eq htarget
  rw [hpart, stands.obstacleAt?_part, obstacle, htarget, Path.name_concat]

/-- Files outside of the assets are seen as before. -/
theorem shown?_entry {t u : FileTree} {name : String} (other : name ≠ Job.assetsName)
    (outside : ∀ q, ¬ Inside (b.assets id) q → Keeps q t u) :
    u.shown? (b.home id ++ [name]) = t.shown? (b.home id ++ [name]) := by
  refine (outside _ fun hinside => ?_).shown?_eq
  exact other (prefix_entry_iff.mp hinside.1).symm

namespace Fetching

theorem task (h : b.Fetching id s deliveries items ds) :
    s.task? id = some ⟨id, b.timeline, .fetching ds, false⟩ := congrArg View.task h.seen

theorem downloads (h : b.Fetching id s deliveries items ds) : s.downloads id = ds := by
  rw [Service.downloads, h.task]
  rfl

theorem files (h : b.Fetching id s deliveries items ds) (hosted : b.Hosted id s) :
    s.store.files.HoldsFiles (b.assets id) (b.assets id) := by
  obtain ⟨taken, hestate⟩ := hosted.estate
  exact hestate.holdsFiles hosted.plain h.stands

/-- An event of a download is told, unless the download is over or is given up. -/
theorem deliveriesTo_download (h : b.Fetching id s deliveries items ds) (index : Nat)
    (e : DownloadEvent) : s.deliveriesTo id (.download id index e) =
      (ds[index]?.filter fun d => !d.phase.isOver && e != .abandoned).toList.map fun d => ⟨index, e,
        if e = .copied then d.found s.setup.fetcher s.store.files else .error .unspeakable⟩ := by
  rw [deliveriesTo, if_pos rfl, h.downloads]

/-- **One of the downloads goes on**, and fares as it was told. -/
theorem step_download (h : b.Fetching id s deliveries items ds) (hosted : b.Hosted id s)
    (index : Nat) (e : DownloadEvent) :
    ∃ ds', b.Fetching id (s.step (.download id index e))
      (deliveries ++ s.deliveriesTo id (.download id index e)) items ds' := by
  by_cases habandoned : e = .abandoned
  · -- nobody gives up who was not told to stop
    subst habandoned
    refine ⟨ds, ?_⟩
    simpa [Service.step, h.task, takeDownload, deliveriesTo] using h
  have hsteady : (e != .abandoned) = true := by simpa using habandoned
  obtain ⟨start, hfaring⟩ := h.faring
  have hfiles := h.files hosted
  have hlength : ds.length = (items.map (b.placed id)).length := by rw [h.length, List.length_map]
  have hmoved (item : MediaSource × Path) (phase : DownloadPhase)
      (hitem : (items.map (b.placed id))[index]? = some item) :
      b.fareOf id (deliveries ++ s.deliveriesTo id (.download id index e)) index item =
        .step (Download.prospect { fresh item with phase } s.setup.fetcher s.store.files)
          (b.fareOf id deliveries index item) e := by
    obtain ⟨name, hname, -⟩ := (into_assets id h.listed).name hitem
    obtain ⟨phase', hstage, hheld⟩ := hfaring index item name hitem hname
    have hover := hheld.isOver_eq
    rw [h.deliveriesTo_download, hstage]
    cases hphase : phase'.isOver with
    | true =>
      rw [hphase] at hover
      simp only [hphase, Option.filter_some, Bool.not_true, Bool.false_and, Bool.false_eq_true, if_false,
        Option.toList_none, List.map_nil, List.append_nil]
      exact (Fate.step_of_isOver hover e).symm
    | false =>
      simp only [hphase, hsteady, Option.filter_some, Bool.not_false, Bool.true_and, if_true,
        Option.toList_some, List.map_cons, List.map_nil]
      rw [fareOf, b.fate_concat_self, fateOf, ← fareOf]
      have hprospect : Download.prospect { fresh item with phase } s.setup.fetcher s.store.files =
          ⟨item.1, b.fetcher.limit, b.obstacle id item,
            (fresh item).found s.setup.fetcher s.store.files⟩ := by
        rw [Download.prospect, obstacleAt?_part hfiles.stands h.listed hitem, hosted.fetcher]
        rfl
      rw [hprospect]
      by_cases hcopied : e = .copied
      · rw [if_pos hcopied]
        rfl
      · rw [if_neg hcopied]
        exact Fate.step_found (p := ⟨item.1, b.fetcher.limit, b.obstacle id item,
          (fresh item).found s.setup.fetcher s.store.files⟩) _ fun h => absurd h hcopied
  have hothers (i : Nat) (item : MediaSource × Path) (hne : index ≠ i) :
      b.fareOf id (deliveries ++ s.deliveriesTo id (.download id index e)) i item =
        b.fareOf id deliveries i item := by
    refine b.fate_append_of_ne _ _ (fun d hd => ?_) _
    rw [h.deliveriesTo_download] at hd
    obtain ⟨d', -, rfl⟩ := List.mem_map.mp hd
    exact hne
  obtain ⟨hfiles', houtside, hfaring'⟩ := hfaring.step hlength (into_assets id h.listed) hfiles
    s.setup.fetcher index habandoned
    (b.fareOf id (deliveries ++ s.deliveriesTo id (.download id index e))) hmoved hothers
  have hstep : s.step (.download id index e) =
      (s.setFiles (ds.step s.setup.fetcher s.store.files index e).2).setPhase id
        (.fetching (ds.step s.setup.fetcher s.store.files index e).1) := by
    simp only [Service.step, h.task, takeDownload, habandoned, false_and, if_false]
  rw [hstep]
  refine ⟨(ds.step s.setup.fetcher s.store.files index e).1, h.listed, ?_, ?_, ?_, start, hfaring'⟩
  · refine view_setPhase (view_setFiles h.seen _ ?_ ?_) rfl _
    · rw [hosted.directory, shown?_entry (by decide) houtside, ← hosted.directory]
      exact congrArg View.plan h.seen
    · rw [hosted.directory, shown?_entry (by decide) houtside, ← hosted.directory]
      exact congrArg View.output h.seen
  · exact (houtside _ fun hinside => hinside.2 rfl).node.trans h.stands
  · rw [length_step, h.length]

end Fetching

/-! ### What fetching comes to -/

/-- Items lie among the assets. -/
theorem exists_path (id : JobId) (listed : b.items = .ok items) {i : Nat} {item : MediaSource × Path}
    (hitem : items[i]? = some item) : ∃ name, item.2 = [Job.assetsName, name] ∧
      (b.placed id item).2.name = name ∧ item.2.name = name := by
  have hlisted : fetchItems b.timeline [Job.assetsName] 0 b.timeline.sources = .ok items := listed
  obtain ⟨x, -, hpath⟩ := (fetchItems_eq_ok hlisted).2 i item hitem
  refine ⟨_, hpath, ?_, by rw [hpath, Path.name_concat]⟩
  rw [placed, hpath, ← List.append_assoc, Path.name_concat]

/-- **A download that is over has failed with what the brief says of it, or not at all.** -/
theorem failure?_eq {n : Nat} (listed : b.items = .ok items) {i : Nat} {item : MediaSource × Path}
    (hitem : items[i]? = some item) {start t : FileTree} {name : String} {phase : DownloadPhase}
    (held : Download.Held start t (b.assets (jobId n)) name
      (b.fareOf (jobId n) deliveries i (b.placed (jobId n) item)) phase)
    (ended : phase.isOver = true) :
    phase.fault?.map fetchFailure = (b.failure? deliveries i item).map (Wording.text (jobId n)) := by
  obtain ⟨file, hpath, hplaced, hname⟩ := exists_path (jobId n) listed hitem
  have hover := held.isOver_eq.trans ended
  rw [fareOf, obstacle, hplaced] at held hover
  rw [failure?, hname]
  cases hfault : Path.nameFault? (partName file) with
  | some c =>
    rw [hfault, Option.map_some] at held hover
    rw [b.fate_of_obstacle _ _ _ hover] at held
    cases held
    simp only [DownloadPhase.fault?, Option.map_some, b.text_partFailure, assets, home,
      List.append_assoc]
    rfl
  | none =>
    rw [hfault, Option.map_none] at held hover
    change Download.Held start t _ name (b.fate none deliveries i item.1) phase at held
    cases hfate : b.fate none deliveries i item.1 <;> rw [hfate] at held <;> cases held
    case stored => rfl
    case failed => rfl
    all_goals cases ended

/-- **Fetching fails with what the brief says of it, or not at all.** -/
theorem Fetching.fault?_eq {n : Nat} (h : b.Fetching (jobId n) s deliveries items ds)
    (ended : ds.areOver = true) : ds.fault?.map fetchFailure =
      (items.zipIdx.findSome? fun i => b.failure? deliveries i.2 i.1).map
        (Wording.text (jobId n)) := by
  obtain ⟨start, hfaring⟩ := h.faring
  have hlists : (ds.map fun d => d.phase.fault?.map fetchFailure) =
      items.zipIdx.map fun i => (b.failure? deliveries i.2 i.1).map (Wording.text (jobId n)) := by
    refine List.ext_getElem? fun i => ?_
    rw [List.getElem?_map, List.getElem?_map, List.getElem?_zipIdx]
    cases hitem : items[i]? with
    | none =>
      have hnone : ds[i]? = none := by
        rw [List.getElem?_eq_none_iff, h.length]
        exact List.getElem?_eq_none_iff.mp hitem
      rw [hnone]
      rfl
    | some item =>
      have hplaced : (items.map (b.placed (jobId n)))[i]? = some (b.placed (jobId n) item) := by
        rw [List.getElem?_map, hitem, Option.map_some]
      obtain ⟨name, hname, -⟩ := (into_assets _ h.listed).name hplaced
      obtain ⟨phase, hstage, hheld⟩ := hfaring i _ name hplaced hname
      have hphase : phase.isOver = true :=
        List.all_eq_true.mp ended _ (List.mem_of_getElem? hstage)
      simp only [hstage, Option.map_some, Nat.zero_add]
      rw [failure?_eq h.listed hitem hheld hphase]
  have hfind := congrArg (List.findSome? fun failure => failure) hlists
  rw [List.findSome?_map, List.findSome?_map] at hfind
  rw [fault?, List.map_findSome?, List.map_findSome?]
  exact hfind

/-- When all downloads are over the brief has been told all of them. -/
theorem Fetching.complete (h : b.Fetching id s deliveries items ds) (ended : ds.areOver = true)
    (notices : List Notice) : b.Complete deliveries notices := by
  refine Or.inr fun items' hitems' i item hitem hfault => ?_
  obtain rfl : items = items' := Except.ok.inj (h.listed.symm.trans hitems')
  obtain ⟨start, hfaring⟩ := h.faring
  have hplaced : (items.map (b.placed id))[i]? = some (b.placed id item) := by
    rw [List.getElem?_map, hitem, Option.map_some]
  obtain ⟨name, hname, -⟩ := (into_assets _ h.listed).name hplaced
  obtain ⟨phase, hstage, hheld⟩ := hfaring i _ name hplaced hname
  have hphase : phase.isOver = true :=
    List.all_eq_true.mp ended _ (List.mem_of_getElem? hstage)
  obtain ⟨file, -, hfile, hitemName⟩ := exists_path id h.listed hitem
  have hover := hheld.isOver_eq.trans hphase
  rw [hitemName] at hfault
  rwa [fareOf, obstacle, hfile, hfault] at hover

/-- The downloads bring the items. -/
theorem Fetching.items_eq (h : b.Fetching id s deliveries items ds) :
    (ds.map fun d => (d.source, d.target)) = items.map (b.placed id) := by
  obtain ⟨start, hfaring⟩ := h.faring
  refine List.ext_getElem? fun i => ?_
  cases hitem : (items.map (b.placed id))[i]? with
  | none =>
    rw [List.getElem?_eq_none_iff, List.length_map] at hitem ⊢
    rwa [h.length]
  | some item =>
    obtain ⟨name, hname, -⟩ := (into_assets _ h.listed).name hitem
    obtain ⟨phase, hstage, -⟩ := hfaring i _ name hitem hname
    rw [List.getElem?_map, hstage]
    rfl

/-! ### The way -/

/-- **A job is where its brief says**, told from what it has heard. -/
inductive Tracks (b : Brief) (id : JobId) (s : Service) : List Delivery → List Notice → Prop where
  | early (phase : TaskPhase) (early : phase = .created ∨ phase = .waiting)
      (seen : s.view id = b.working id .queued phase none none none)
      (bare : s.store.files.node? (b.assets id) = none) : Tracks b id s [] []
  | fetching {deliveries : List Delivery} {items : List (MediaSource × Path)} {ds : Downloads}
      (fetches : b.Fetching id s deliveries items ds) : Tracks b id s deliveries []
  | arrived {deliveries : List Delivery} {notices : List Notice}
      (complete : b.Complete deliveries notices)
      (seen : (b.station deliveries notices).Seen b id (s.view id)) : Tracks b id s deliveries notices

namespace Tracks

/-- A job that gets its slot begins to fetch. -/
theorem beginWork (hosted : b.Hosted id s) {phase phase' : TaskPhase}
    (seen : s.view id = b.working id .queued phase none none none)
    (bare : s.store.files.node? (b.assets id) = none) :
    b.Tracks id (s.beginWork ⟨id, b.timeline, phase', false⟩) [] [] := by
  obtain ⟨j, store, htransition, hdirectory, hroot, hfiles, hview⟩ :=
    transition_ok seen rfl .downloading rfl hosted.date none (some "Fetching assets")
  have hseen : (s.setStore store).view id = b.working id .downloading phase none none none := hview
  obtain ⟨taken, hestate⟩ := hosted.estate
  have hassets : j.assets = b.assets id := by
    rw [Job.assets, hdirectory]
    rfl
  have hmade : store.files.ensureChild (b.assets id) =
      .ok (s.store.files.put (b.assets id) .directory) := by
    rw [hfiles]
    exact hestate.ensureChild_assets hosted.plain bare
  -- the new directory is not seen
  have hkept (name : String) (other : name ≠ Job.assetsName) :
      (s.store.files.put (b.assets id) .directory).shown? (b.home id ++ [name]) =
        s.store.files.shown? (b.home id ++ [name]) :=
    ((Spares.put_directory (entry_ne_entry other)).keeps
      (hestate.sane (List.prefix_append _ _))).shown?_eq
  have hhosted : b.Hosted id
      ((s.setStore store).setFiles (s.store.files.put (b.assets id) .directory)) :=
    hosted.congr rfl rfl hroot ⟨taken, hestate.put_assets⟩
  have hfetch : ((s.setStore store).setFiles (s.store.files.put (b.assets id) .directory)).view id =
      b.working id .downloading phase none none none := by
    refine view_setFiles hseen _ ?_ ?_
    · rw [store_setStore, Store.directory, hroot, hosted.root, ← Brief.home, hkept _ (by decide),
        ← hosted.directory]
      exact congrArg View.plan seen
    · rw [store_setStore, Store.directory, hroot, hosted.root, ← Brief.home, hkept _ (by decide),
        ← hosted.directory]
      exact congrArg View.output seen
  rw [Service.beginWork, htransition]
  dsimp only
  rw [hassets, store_setStore, hmade]
  dsimp only
  rw [fetchItems_eq]
  cases hitems : b.items with
  | error f =>
    refine .arrived (Or.inr fun items h => ?_) ?_
    · rw [hitems] at h
      cases h
    · rw [station, List.foldl_nil, gathered, hitems]
      exact seen_leave hhosted hfetch rfl (.plain _)
  | ok items =>
    refine .fetching ⟨hitems, view_setPhase hfetch rfl _, ?_, ?_, ?_⟩
    · exact (node?_put _ _ _ _).trans (if_pos rfl)
    · rw [Downloads.begin, List.length_map, List.length_map]
    · exact ⟨_, faring_begin _ fun _ _ => rfl⟩

/-- **A job whose downloads are over goes on**, or fails. -/
theorem takeFetched {n : Nat} (hosted : b.Hosted (jobId n) s)
    (h : b.Fetching (jobId n) s deliveries items ds) :
    b.Tracks (jobId n) (s.takeFetched ⟨jobId n, b.timeline, .fetching ds, false⟩ ds) deliveries [] := by
  rw [Service.takeFetched, result?]
  by_cases hover : ds.areOver = true
  · rw [if_pos hover]
    refine .arrived (h.complete hover []) ?_
    have hfault := h.fault?_eq hover
    rw [station, List.foldl_nil, gathered, h.listed]
    cases hfound : ds.fault? with
    | some f =>
      rw [hfound, Option.map_some] at hfault
      obtain ⟨failure, hfailure, htext⟩ := Option.map_eq_some_iff.mp hfault.symm
      dsimp only
      rw [hfailure, ← htext]
      exact seen_leave hosted h.seen rfl failure
    | none =>
      rw [hfound, Option.map_none] at hfault
      dsimp only
      rw [Option.map_eq_none_iff.mp hfault.symm, h.items_eq]
      exact seen_continueProbing (s := s.note (jobId n) "Probing assets")
        (hosted.congr rfl rfl rfl hosted.estate) (view_note h.seen _) [] items
  · rw [if_neg hover]
    exact .fetching h

variable {n : Nat} {notices : List Notice} {e : Event}

/-- A job that has given up fetching hears nothing more. -/
theorem complete_append (complete : b.Complete deliveries notices)
    (seen : (b.station deliveries notices).Seen b id (s.view id)) :
    b.Complete deliveries (notices ++ s.noticesTo id e) := by
  rcases complete with ⟨m, rfl⟩ | complete
  · have hover : b.station deliveries [.broken m] = .fail (.plain (unforeseen m)) none := rfl
    have hgone : s.task? id = none := by
      change (s.view id).task = none
      rw [hover] at seen
      generalize s.view id = v at seen
      cases seen
      rfl
    rw [noticesTo_of_no_task hgone, List.append_nil]
    exact Or.inl ⟨m, rfl⟩
  · exact Or.inr complete

/-- A job that waits takes notice of nothing but its slot. -/
theorem step_early (hosted : b.Hosted id s) {phase : TaskPhase}
    (early : phase = .created ∨ phase = .waiting)
    (seen : s.view id = b.working id .queued phase none none none)
    (bare : s.store.files.node? (b.assets id) = none) (own : e.job? = some id)
    (calm : ∀ name c, e ≠ .strayed id name c) :
    b.Tracks id (s.step e) (s.deliveriesTo id e) (s.noticesTo id e) := by
  have task : s.task? id = some ⟨id, b.timeline, phase, false⟩ := congrArg View.task seen
  have idle : s.process? id = none := congrArg View.process seen
  have unheard : phase.notices e = [] := by rcases early with rfl | rfl <;> rfl
  have hdownloads : s.downloads id = [] := downloads_of_not_fetching task fun ds phase => by
    rcases early with rfl | rfl <;> cases phase
  rw [noticesTo_of_task own task, deliveriesTo_of_no_downloads hdownloads, unheard]
  by_cases moved : e = .moved id
  · subst moved
    have hslots (slots : Slots) : b.Tracks id
        ((s.setSlots slots).beginWork ⟨id, b.timeline, phase, false⟩) [] [] :=
      beginWork (s := s.setSlots slots) (hosted.congr rfl rfl rfl hosted.estate) seen bare
    simp only [Service.step, task, moveTask, Bool.false_eq_true, if_false]
    rcases early with rfl | rfl
    · dsimp only
      cases s.slots.take? with
      | some slots => exact hslots slots
      | none =>
        exact .early .waiting (Or.inr rfl)
          (view_setPhase (s := s.setSlots (s.slots.enqueue id)) seen rfl .waiting) bare
    · dsimp only
      split
      · exact hslots _
      · exact .early .waiting (Or.inr rfl) seen bare
  · rw [step_of_unheard own task rfl unheard moved
      (fun _ _ _ ds phase => by rcases early with rfl | rfl <;> cases phase) calm fun running => by
        rw [idle] at running
        cases running]
    exact .early phase early seen bare

/-- A job that fetches goes on with its downloads, and when they are over. -/
theorem step_fetching {n : Nat} (hosted : b.Hosted (jobId n) s)
    (h : b.Fetching (jobId n) s deliveries items ds) (own : e.job? = some (jobId n))
    (calm : ∀ name c, e ≠ .strayed (jobId n) name c) :
    b.Tracks (jobId n) (s.step e) (deliveries ++ s.deliveriesTo (jobId n) e)
      (s.noticesTo (jobId n) e) := by
  have idle : s.process? (jobId n) = none := congrArg View.process h.seen
  rw [noticesTo_of_task own h.task]
  by_cases moved : e = .moved (jobId n)
  · subst moved
    simp only [Service.step, h.task, moveTask, Bool.false_eq_true, if_false]
    rw [show s.deliveriesTo (jobId n) (.moved (jobId n)) = [] from rfl, List.append_nil]
    exact takeFetched hosted h
  by_cases downloaded : ∃ index d, e = .download (jobId n) index d
  · obtain ⟨index, d, rfl⟩ := downloaded
    obtain ⟨ds', hfetching⟩ := h.step_download hosted index d
    exact .fetching hfetching
  have hdeliveries : s.deliveriesTo (jobId n) e = [] := by
    cases e with
    | download job index d =>
      cases own
      exact absurd ⟨index, d, rfl⟩ downloaded
    | _ => rfl
  rw [hdeliveries, List.append_nil]
  by_cases unheard : TaskPhase.notices (.fetching ds) e = []
  · rw [unheard, step_of_unheard own h.task rfl unheard moved
      (fun index d heq => absurd ⟨index, d, heq⟩ downloaded) calm fun running => by
        rw [idle] at running
        cases running]
    exact .fetching h
  cases e with
  | raised job message =>
    cases own
    refine .arrived (Or.inl ⟨message, rfl⟩) ?_
    rw [Service.step, listening?_eq_some.mpr ⟨h.task, rfl⟩]
    exact seen_leave hosted h.seen rfl (.plain _)
  | _ => exact absurd rfl unheard

/-- **With its own events a job goes on**, if no copy strays while it has a task. -/
theorem step_own {n : Nat} (hosted : b.Hosted (jobId n) s)
    (h : b.Tracks (jobId n) s deliveries notices) (own : e.job? = some (jobId n))
    (calm : s.task? (jobId n) ≠ none → ∀ name c, e ≠ .strayed (jobId n) name c) :
    b.Tracks (jobId n) (s.step e) (deliveries ++ s.deliveriesTo (jobId n) e)
      (notices ++ s.noticesTo (jobId n) e) := by
  cases h with
  | early phase early seen bare =>
    have task : s.task? (jobId n) = some _ := congrArg View.task seen
    exact step_early hosted early seen bare own (calm (by rw [task]; exact Option.some_ne_none _))
  | fetching fetches =>
    exact step_fetching hosted fetches own
      (calm (by rw [fetches.task]; exact Option.some_ne_none _))
  | arrived complete seen =>
    rw [seen.deliveriesTo_eq, List.append_nil]
    refine .arrived (complete_append complete seen) ?_
    rw [station, List.foldl_append]
    exact Station.Seen.step hosted own calm seen

/-- **With the events of others it stays where it is.** -/
theorem step_of_other {n : Nat} (h : b.Tracks (jobId n) s deliveries notices)
    (root : s.store.root = b.root) (seen : (s.step e).view (jobId n) = s.view (jobId n))
    (untouched : AtHome.Untouched (jobId n) s (s.step e)) (other : e.job? ≠ some (jobId n)) :
    b.Tracks (jobId n) (s.step e) (deliveries ++ s.deliveriesTo (jobId n) e)
      (notices ++ s.noticesTo (jobId n) e) := by
  have hnotices : s.noticesTo (jobId n) e = [] := by rw [noticesTo, if_neg other]
  have hdeliveries : s.deliveriesTo (jobId n) e = [] := by
    cases e with
    | download job index d =>
      rw [deliveriesTo, if_neg]
      rintro rfl
      exact other rfl
    | _ => rfl
  rw [hnotices, hdeliveries, List.append_nil, List.append_nil]
  have hkeeps (path : Path) : Keeps (b.assets (jobId n) ++ path) s.store.files
      (s.step e).store.files := by
    refine untouched _ ?_
    rw [Store.Below, Store.directory, root, assets, home, List.append_assoc, List.append_assoc]
    exact List.prefix_append_right_inj _ |>.mpr (List.prefix_append _ _)
  have hassets := (hkeeps []).node
  rw [List.append_nil] at hassets
  cases h with
  | early phase early old bare => exact .early phase early (seen.trans old) (hassets.trans bare)
  | arrived complete old => exact .arrived complete (seen ▸ old)
  | fetching fetches =>
    obtain ⟨start, hfaring⟩ := fetches.faring
    refine .fetching ⟨fetches.listed, seen.trans fetches.seen, hassets.trans fetches.stands,
      fetches.length, start, fun i item name hitem hname => ?_⟩
    obtain ⟨phase, hstage, hheld⟩ := hfaring i item name hitem hname
    exact ⟨phase, hstage, hheld.mono (hkeeps [name]) (hkeeps [partName name])⟩

end Tracks

end Brief
end Montage
