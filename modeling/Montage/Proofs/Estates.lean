import Montage.Proofs.Deliveries
import Montage.Proofs.RemovedPlaces
import Montage.Proofs.Supplies

/-! # What a job has to itself

The directory of a job is its own.  Below it there are plain files and one directory, that of the
assets; each of these files has one name, and none of them is open for another job (`Estate`).

Whatever the task of the job does there keeps it so, and whatever others do is done elsewhere
(`AtHome.moves`, `AtHome.step_of_other`).
-/
namespace Montage

open FileTree Path Service

/-! ### A directory of its own -/

namespace FileTree
variable {t u : FileTree} {p q base : Path} {taken : Handle → Prop}

theorem Reaches.mono (h : t.Reaches p)
    (keeps : ∀ q, q <+: p → t.node? q = some .directory → u.node? q = some .directory) :
    u.Reaches p :=
  ⟨h.unended, h.short, fun q hq hgiven hne => keeps q hq (h.way q hq hgiven hne)⟩

/-- Below a directory there are only files but for the assets; each of them has one name, and none of
them has a number that is taken. -/
structure Estate (base : Path) (taken : Handle → Prop) (t : FileTree) : Prop where
  reaches : t.Reaches base
  stands : t.node? base = some .directory
  flat : ∀ p, Inside base p → p ≠ base ++ [Job.assetsName] → t.node? p ≠ some .directory
  known : ∀ q k, (q, FileNode.file k) ∈ t.entries → k < t.contents.length
  alone : ∀ p, base <+: p → ∀ q k, t.node? p = some (.file k) →
    (q, FileNode.file k) ∈ t.entries → q = p
  apart : ∀ k, taken k → k < t.contents.length ∧ ∀ p, base <+: p → t.node? p ≠ some (.file k)

namespace Estate

theorem sane (h : t.Estate base taken) (hp : base <+: p) : t.Sane p := ⟨h.known, h.alone p hp⟩

/-- A way through directories is not lost, and that is all that counts above. -/
theorem of_below (h : t.Estate base taken)
    (keeps : ∀ q, q <+: base → t.node? q = some .directory → u.node? q = some .directory)
    (flat : ∀ p, Inside base p → p ≠ base ++ [Job.assetsName] → u.node? p ≠ some .directory)
    (known : ∀ q k, (q, FileNode.file k) ∈ u.entries → k < u.contents.length)
    (alone : ∀ p, base <+: p → ∀ q k, u.node? p = some (.file k) →
      (q, FileNode.file k) ∈ u.entries → q = p)
    (apart : ∀ k, taken k → k < u.contents.length ∧
      ∀ p, base <+: p → u.node? p ≠ some (.file k)) : u.Estate base taken where
  reaches := h.reaches.mono keeps
  stands := keeps base (List.prefix_refl _) h.stands
  flat := flat
  known := known
  alone := alone
  apart := apart

/-- The assets get their directory. -/
theorem put_assets (h : t.Estate base taken) :
    (t.put (base ++ [Job.assetsName]) .directory).Estate base taken := by
  have hfile {q : Path} {k : Handle}
      (hq : (t.put (base ++ [Job.assetsName]) .directory).node? q = some (.file k)) :
      t.node? q = some (.file k) := by
    rw [node?_put] at hq
    split at hq
    · cases hq
    · exact hq
  have hentry {q : Path} {k : Handle}
      (hq : (q, FileNode.file k) ∈ (t.put (base ++ [Job.assetsName]) .directory).entries) :
      (q, FileNode.file k) ∈ t.entries := by
    rcases List.mem_append.mp hq with hq | hq
    · exact (List.mem_filter.mp hq).1
    · cases List.mem_singleton.mp hq
  refine h.of_below (fun q _ hd => ?_) (fun p hp hne => ?_) (fun q k hq => h.known q k (hentry hq))
    (fun p hp q k hk hq => h.alone p hp q k (hfile hk) (hentry hq))
    fun k hk => ⟨(h.apart k hk).1, fun p hp hnode => (h.apart k hk).2 p hp (hfile hnode)⟩
  · rw [node?_put]
    split
    · rfl
    · exact hd
  · rw [node?_put, if_neg hne]
    exact h.flat p hp hne

theorem fill (h : t.Estate base taken) (k : Handle) (c : Content) :
    (t.fill k c).Estate base taken :=
  h.of_below (fun _ _ hd => hd) h.flat
    (fun q j hq => by simpa [FileTree.fill] using h.known q j hq) h.alone
    fun j hj => ⟨by simpa [FileTree.fill] using (h.apart j hj).1, (h.apart j hj).2⟩

/-- A file is opened for writing, wherever it is. -/
theorem openNew {k : Handle} (h : t.Estate base taken) (opened : t.openNew q = .ok (k, u)) :
    u.Estate base taken := by
  obtain ⟨r, -, ⟨-, rfl⟩ | ⟨hnone, rfl, rfl⟩⟩ := openNew_eq_ok opened
  · exact h.fill k (.raw [])
  have hnode (p : Path) : ({ (t.put r (.file t.contents.length)) with
      contents := t.contents ++ [Content.raw []] } : FileTree).node? p =
        if p = r then some (.file t.contents.length) else t.node? p := node?_put t r _ p
  have hlength : t.contents.length < (t.contents ++ [Content.raw []]).length := by simp
  refine h.of_below (fun q _ hd => ?_) (fun p hp hne => ?_) (fun q k hq => ?_)
    (fun p hp q k hk hq => ?_) fun k hk => ⟨?_, fun p hp hpk => ?_⟩
  · rw [hnode, if_neg]
    · exact hd
    · rintro rfl
      cases hnone.symm.trans hd
  · rw [hnode]
    split
    · simp
    · exact h.flat p hp hne
  · rcases List.mem_append.mp hq with hq | hq
    · exact Nat.lt_trans (h.known q k (List.mem_filter.mp hq).1) hlength
    · cases List.mem_singleton.mp hq
      exact hlength
  · -- the new file has a number that no other has
    rw [hnode] at hk
    rcases List.mem_append.mp hq with hq | hq
    · have hmem := (List.mem_filter.mp hq).1
      split at hk
      · cases hk
        exact absurd (h.known q _ hmem) (Nat.lt_irrefl _)
      · exact h.alone p hp q k hk hmem
    · cases List.mem_singleton.mp hq
      split at hk
      · rename_i heq
        exact heq.symm
      · exact absurd (h.known p _ (mem_of_node? hk)) (Nat.lt_irrefl _)
  · exact Nat.lt_trans (h.apart k hk).1 hlength
  · rw [hnode] at hpk
    split at hpk
    · cases hpk
      exact absurd (h.apart _ hk).1 (Nat.lt_irrefl _)
    · exact (h.apart k hk).2 p hp hpk

theorem write {c : Content} (h : t.Estate base taken) (written : t.write q c = .ok u) :
    u.Estate base taken := by
  rw [FileTree.write] at written
  split at written
  · cases written
  · rename_i k v opened
    cases written
    exact (h.openNew opened).fill k c

theorem unlink (h : t.Estate base taken) (removed : t.unlink q = .ok u) : u.Estate base taken := by
  rw [FileTree.unlink] at removed
  split at removed
  · cases removed
    exact h
  · cases removed
  · rename_i place located
    split at removed
    · cases removed
    · rename_i other
      cases removed
      have hnode {p : Path} {n : FileNode} (hp : (t.drop place).node? p = some n) :
          t.node? p = some n := by
        rw [node?_drop] at hp
        split at hp
        · cases hp
        · exact hp
      refine h.of_below (fun q _ hd => ?_) (fun p hp hne hd => h.flat p hp hne (hnode hd))
        (fun q k hq => h.known q k (List.mem_filter.mp hq).1)
        (fun p hp q k hk hq => h.alone p hp q k (hnode hk) (List.mem_filter.mp hq).1)
        fun k hk => ⟨(h.apart k hk).1, fun p hp hpk => (h.apart k hk).2 p hp (hnode hpk)⟩
      rw [node?_drop, if_neg]
      · exact hd
      · rintro rfl
        exact other hd

/-- A file among the assets takes another name there. -/
theorem rename {old new : String} (h : t.Estate base taken) (plain : ".." ∉ base)
    (different : old ≠ new)
    (renamed : t.rename (base ++ [Job.assetsName] ++ [old]) (base ++ [Job.assetsName] ++ [new]) =
      .ok u) : u.Estate base taken := by
  obtain ⟨hold, hnew⟩ := name_of_rename renamed
  rw [Path.name_concat] at hold hnew
  have hassets : ".." ∉ base ++ [Job.assetsName] :=
    Path.plain_concat plain (by decide)
  obtain ⟨a, b, n, ha, hb, hn, ⟨-, rfl⟩ | ⟨-, hfree, rfl⟩⟩ := rename_eq_ok renamed
  · exact h
  obtain ⟨rfl, -⟩ := (locate_eq_ok_iff (Path.plain_concat hassets hold) Path.concat_ne_nil).mp ha
  obtain ⟨rfl, -⟩ := (locate_eq_ok_iff (Path.plain_concat hassets hnew) Path.concat_ne_nil).mp hb
  have hbelow (name : String) : base <+: base ++ [Job.assetsName] ++ [name] := by
    rw [List.append_assoc]
    exact List.prefix_append _ _
  have hinside (name : String) (rest : Path) :
      Inside base (base ++ [Job.assetsName] ++ [name] ++ rest) ∧
        base ++ [Job.assetsName] ++ [name] ++ rest ≠ base ++ [Job.assetsName] := by
    refine ⟨⟨(hbelow name).trans (List.prefix_append _ _), fun heq => ?_⟩, fun heq => ?_⟩
    · simpa using congrArg List.length heq
    · have := congrArg List.length heq
      simp at this
  have hapart {p : Path} (hp : base ++ [Job.assetsName] ++ [old] <+: p) :
      ¬ base ++ [Job.assetsName] ++ [new] <+: p := fun hp' => different (entry_unique hp hp')
  -- what stands somewhere afterwards stood there, away from the old name, or came from below it
  have hcases {p : Path} {n : FileNode}
      (hp : (t.move (base ++ [Job.assetsName] ++ [old]) (base ++ [Job.assetsName] ++ [new])).node? p =
        some n) :
      t.node? p = some n ∧ ¬ base ++ [Job.assetsName] ++ [old] <+: p ∨
        ∃ rest, p = base ++ [Job.assetsName] ++ [new] ++ rest ∧
          t.node? (base ++ [Job.assetsName] ++ [old] ++ rest) = some n := by
    rcases node?_move_cases hp with hstood | hcame
    · by_cases hsource : base ++ [Job.assetsName] ++ [old] <+: p
      · cases (node?_move_source hsource (hapart hsource)).symm.trans hp
      · exact Or.inl ⟨hstood, hsource⟩
    · exact Or.inr hcame
  refine h.of_below (fun q hq hd => ?_) (fun p hp hne hd => ?_) (fun q k hq => ?_)
    (fun p hp q k hk hq => ?_) fun k hk => ⟨(h.apart k hk).1, fun p hp hpk => ?_⟩
  · have hnot (name : String) : ¬ base ++ [Job.assetsName] ++ [name] <+: q := fun hpre => by
      have := (hpre.trans hq).length_le
      simp only [List.length_append, List.length_singleton] at this
      omega
    rw [node?_move (hnot old) (hnot new)]
    exact hd
  · rcases hcases hd with ⟨hstood, -⟩ | ⟨rest, -, hcame⟩
    · exact h.flat p hp hne hstood
    · exact h.flat _ (hinside old rest).1 (hinside old rest).2 hcame
  · obtain ⟨r, hr, -⟩ := mem_move hq
    exact h.known r k hr
  · obtain ⟨r, hr, heq⟩ := mem_move hq
    rcases hcases hk with ⟨hstood, hout⟩ | ⟨rest, rfl, hcame⟩
    · obtain rfl := h.alone p hp r k hstood hr
      rw [relocate_of_outside hout] at heq
      exact (congrArg Prod.fst heq).symm
    · obtain rfl := h.alone _ (hinside old rest).1.1 r k hcame hr
      have hmoved : relocate (base ++ [Job.assetsName] ++ [old]) (base ++ [Job.assetsName] ++ [new])
          (base ++ [Job.assetsName] ++ [old] ++ rest, .file k) =
            (base ++ [Job.assetsName] ++ [new] ++ rest, .file k) := by
        simp [relocate, Path.below?]
      rw [hmoved] at heq
      exact (congrArg Prod.fst heq).symm
  · rcases hcases hpk with ⟨hstood, -⟩ | ⟨rest, -, hcame⟩
    · exact (h.apart k hk).2 p hp hstood
    · exact (h.apart k hk).2 _ (hinside old rest).1.1 hcame

end Estate
end FileTree

/-! ### Downloads -/

/-- **What is kept by all that a download can do to its files is kept by the download.** -/
theorem Download.step_preserves {P : FileTree → Prop} {d : Download} {t : FileTree}
    (unlink : ∀ t u, P t → t.unlink d.part = .ok u → P u)
    (openNew : ∀ t k u, P t → t.openNew d.part = .ok (k, u) → P u)
    (fill : ∀ t k c, P t → P (t.fill k c))
    (rename : ∀ t u, P t → t.rename d.part d.target = .ok u → P u) (h : P t) (f : Fetcher)
    (e : DownloadEvent) : P (d.step f t e).2 := by
  have hfail {t : FileTree} (h : P t) (fault : FetchFault) : P (d.fail t fault).2 := by
    unfold Download.fail
    split
    · rename_i u removed
      exact unlink t u h removed
    · exact h
  have hsettle {t : FileTree} (h : P t) (size : Nat) : P (d.settle t size).2 := by
    unfold Download.settle
    split
    · exact hfail h _
    · split
      · rename_i u renamed
        exact rename t u h renamed
      · exact hfail h _
  have hcopy : P (d.copy f t).2 := by
    unfold Download.copy
    split
    · exact hfail h _
    · split
      · exact hfail h _
      · split
        · exact hfail h _
        · rename_i u written
          rw [write] at written
          split at written
          · cases written
          · rename_i k v opened
            cases written
            exact hsettle (fill v k _ (openNew t k v h opened)) _
  have hbegin (status : Nat) (url : String) : P (d.begin t status url).2 := by
    unfold Download.begin Download.receive
    split
    · exact h
    · split
      · split
        · exact h
        · rename_i k u opened
          exact openNew t k u h opened
      · exact h
  unfold Download.step
  split
  · exact h
  · split
    · dsimp only
      rw [FileTree.discard]
      cases removed : t.unlink d.part with
      | error f => exact h
      | ok u => exact unlink t u h removed
    · exact h
    · split
      · exact hsettle h _
      · exact hfail h _
      · exact h
    · split
      · exact hcopy
      · exact h
    · split
      · exact hbegin _ _
      · exact h
    · split
      · dsimp only [Download.append]
        split
        · exact fill t _ _ h
        · exact h
      · exact h
    all_goals
      split
      · exact h
      · exact h

/-- What a download among the assets does keeps the estate. -/
theorem FileTree.Estate.download {t : FileTree} {base : Path} {taken : Handle → Prop} {d : Download}
    {name : String} (h : t.Estate base taken) (plain : ".." ∉ base)
    (target : d.target = base ++ [Job.assetsName] ++ [name]) (f : Fetcher) (e : DownloadEvent) :
    (d.step f t e).2.Estate base taken := by
  refine Download.step_preserves (fun _ _ h => h.unlink) (fun _ _ _ h => h.openNew)
    (fun _ k c h => h.fill k c) (fun t u h renamed => ?_) h f e
  rw [Download.part_eq target, target] at renamed
  exact h.rename plain (partName_ne name) renamed

/-! ### Jobs -/

namespace Service
variable {s s' : Service} {id : JobId}

/-- Another job has a file open. -/
def OpenElsewhere (s : Service) (id : JobId) (k : Handle) : Prop :=
  ∃ other, other ≠ id ∧ ∃ t ds, s.task? other = some t ∧ t.phase = .fetching ds ∧
    ∃ d ∈ ds, ∃ n, d.phase = .receiving k n

/-- A job has its directory to itself. -/
structure AtHome (id : JobId) (s : Service) : Prop where
  watched : ∀ p, s.store.Below id p → WatchedFor (fun other => other ≠ id) p s
  reaches : s.store.files.Reaches (s.store.directory id)
  stands : s.store.files.node? (s.store.directory id) = some .directory
  flat : ∀ p, Inside (s.store.directory id) p → p ≠ s.store.directory id ++ [Job.assetsName] →
    s.store.files.node? p ≠ some .directory

namespace AtHome

theorem estate (h : AtHome id s) :
    s.store.files.Estate (s.store.directory id) (s.OpenElsewhere id) where
  reaches := h.reaches
  stands := h.stands
  flat := h.flat
  known := (h.watched _ (List.prefix_refl _)).sane.known
  alone := fun p hp => (h.watched p hp).sane.alone
  apart := fun k ⟨other, hother, t, ds, task, phase, d, hd, n, receiving⟩ =>
    ⟨((((h.watched _ (List.prefix_refl _)).within other hother t ds task phase) d hd).2 k n
      receiving).1, fun p hp =>
        ((((h.watched p hp).within other hother t ds task phase) d hd).2 k n receiving).2⟩

/-- Who has an estate is at home, if the downloads of others go elsewhere. -/
theorem of_targets (targets : ∀ other ≠ id, ∀ t ds, s.task? other = some t → t.phase = .fetching ds →
      ∀ d ∈ ds, ∃ name, d.target = s.store.directory other ++ [Job.assetsName] ++ [name])
    (root : s'.store.root = s.store.root)
    (estate : s'.store.files.Estate (s.store.directory id) (s.OpenElsewhere id))
    (tasks : ∀ other ≠ id, s'.task? other = s.task? other) : AtHome id s' := by
  have hdirectory (name : JobId) : s'.store.directory name = s.store.directory name := by
    rw [Store.directory, root, Store.directory]
  refine ⟨fun p hp => ⟨?_, fun other hother t ds task phase d hd => ?_⟩, ?_, ?_, ?_⟩
  · rw [Store.Below, hdirectory] at hp
    exact estate.sane hp
  · rw [Store.Below, hdirectory] at hp
    rw [hdirectory]
    rw [tasks other hother] at task
    refine ⟨targets other hother t ds task phase d hd, fun k n receiving => ?_⟩
    obtain ⟨hlt, hnode⟩ := estate.apart k ⟨other, hother, t, ds, task, phase, d, hd, n, receiving⟩
    exact ⟨hlt, hnode p hp⟩
  · rw [hdirectory]
    exact estate.reaches
  · rw [hdirectory]
    exact estate.stands
  · rw [hdirectory]
    exact estate.flat

/-- Nobody else notices what a job does at home. -/
theorem of_estate (h : AtHome id s) (root : s'.store.root = s.store.root)
    (estate : s'.store.files.Estate (s.store.directory id) (s.OpenElsewhere id))
    (tasks : ∀ other ≠ id, s'.task? other = s.task? other) : AtHome id s' :=
  of_targets (fun other hother t ds task phase d hd =>
    ((h.watched _ (List.prefix_refl _)).within other hother t ds task phase d hd).1) root estate tasks

section Own
variable (plain : ".." ∉ s.store.root) (placed : Placed s) (supplied : Supplied s) (h : AtHome id s)
include plain placed supplied h

/-- What a job writes on its way it writes at home. -/
theorem writing {u : FileTree} (written : Writing id s u) :
    u.Estate (s.store.directory id) (s.OpenElsewhere id) := by
  have hestate := h.estate
  cases written with
  | assets j u found made =>
    rw [Job.assets, placed.directories id j found] at made
    rcases settleMade_eq_ok made with hmade | ⟨rfl, -, -⟩
    · have hplain := Path.plain_concat (Store.plain_directory plain
        (placed.issued_of_find? found).ne_dots) (by decide : Job.assetsName ≠ "..")
      obtain ⟨-, rfl⟩ := make_eq_ok hplain Path.concat_ne_nil hmade
      exact hestate.put_assets
    · exact hestate
  | plan t j c u task found made => exact hestate.write made
  | output size u running made => exact hestate.write made
  | stray name c u issued made => exact hestate.write made
  | abandoned t ds task phase =>
    have hplain := Store.plain_directory plain (placed.issued_of_task? task).ne_dots
    have htargets (d : Download) (hd : d ∈ ds) := supplied.targets task phase hd
    generalize s.store.files = files at hestate ⊢
    clear phase
    induction ds generalizing files with
    | nil => exact hestate
    | cons d rest ih =>
      obtain ⟨name, target⟩ := htargets d List.mem_cons_self
      exact ih (fun d' hd' => htargets d' (List.mem_cons_of_mem d hd')) _
        (hestate.download hplain target s.setup.fetcher .abandoned)

theorem quiet (move : Quiet id s s') : AtHome id s' := by
  have htasks (other : JobId) (hother : other ≠ id) : s'.task? other = s.task? other :=
    (move.follows.others other hother).2.1
  have hroot := move.sameFrame.root
  have hsame (files : s'.store.files = s.store.files) : AtHome id s' :=
    h.of_estate hroot (files ▸ h.estate) htasks
  cases move with
  | write u written => exact h.of_estate hroot (writing plain placed supplied h written) htasks
  | download t ds index e task phase =>
    refine h.of_estate hroot ?_ htasks
    change (ds.step s.setup.fetcher s.store.files index e).2.Estate _ _
    unfold Downloads.step
    split
    · exact h.estate
    · rename_i d hd
      obtain ⟨name, target⟩ := supplied.targets task phase (List.mem_of_getElem? hd)
      exact h.estate.download (Store.plain_directory plain (placed.issued_of_task? task).ne_dots)
        target _ e
  | resign t task phase told => exact hsame Store.transition_frame.2.2
  | leave t failure task holds gone killed =>
    refine hsame ?_
    rw [leave_eq]
    exact files_leftStore
  | _ => exact hsame rfl

omit plain placed supplied in
theorem advance (move : Advance id s s') : AtHome id s' := by
  have htasks (other : JobId) (hother : other ≠ id) : s'.task? other = s.task? other :=
    (move.follows.others other hother).2.1
  have hfiles : s'.store.files = s.store.files := by
    cases move with
    | begin | render => exact Store.transition_frame.2.2
    | complete t plan watch failure task phase exited size =>
      rw [leave_eq]
      exact files_leftStore.trans Store.transition_frame.2.2
  exact h.of_estate move.sameFrame.root (hfiles ▸ h.estate) htasks

/-- **Whatever the task of a job does, the job keeps its directory to itself.** -/
theorem moves {b : Bool} (moves : Moves id s b s') : AtHome id s' := by
  have hchain : (SameFrame s s' ∧ Placed s' ∧ Supplied s') ∧ AtHome id s' := by
    refine moves.preserves (P := fun t => (SameFrame s t ∧ Placed t ∧ Supplied t) ∧ AtHome id t)
      ?_ ?_ ⟨⟨⟨rfl, rfl, rfl, rfl, rfl, rfl⟩, placed, supplied⟩, h⟩
    · rintro t u ⟨⟨hframe, hplaced, hsupplied⟩, hhome⟩ move
      exact ⟨⟨hframe.trans move.sameFrame, hplaced.quiet move, hsupplied.quiet hplaced move⟩,
        hhome.quiet (hframe.root ▸ plain) hplaced hsupplied move⟩
    · rintro t u ⟨⟨hframe, hplaced, hsupplied⟩, hhome⟩ move
      exact ⟨⟨hframe.trans move.sameFrame, hplaced.advance move, hsupplied.advance move⟩,
        hhome.advance move⟩
  exact hchain.2

end Own

/-- Nothing that stands below the directory of a job is changed. -/
def Untouched (id : JobId) (s s' : Service) : Prop :=
  ∀ p, s.store.Below id p → Keeps p s.store.files s'.store.files

/-- **What others do is done elsewhere**, as long as the job is there. -/
theorem step_of_other {n : Nat} (plain : ".." ∉ s.store.root) (placed : Placed s)
    (h : AtHome (jobId n) s) {e : Event} (other : e.job? ≠ some (jobId n))
    (avoids : ∀ p, s.store.Below (jobId n) p → Avoids p s e) (issued : s.store.Issued (jobId n))
    (stays : (s.step e).store.find? (jobId n) ≠ none) :
    AtHome (jobId n) (s.step e) ∧ Untouched (jobId n) s (s.step e) := by
  have hnew (submission : Submission) (disk : Option DiskRefusal)
      (_ : e = .submitted submission disk) : n ≠ s.store.issued + 1 := by
    rintro rfl
    exact Store.not_issued_jobId (Nat.lt_succ_self _) issued
  have hspares (p : Path) (hp : s.store.Below (jobId n) p) :=
    (h.watched p hp).step_of_other plain placed hp (fun _ h => h) other (avoids p hp) hnew
      fun _ => stays
  have hdirectory : (s.step e).store.directory (jobId n) = s.store.directory (jobId n) := by
    rw [Store.directory, root_step placed.tabled.numbered, Store.directory]
  have hhome := hspares _ (List.prefix_refl _)
  refine ⟨⟨fun p hp => ?_, ?_, ?_, fun p hp hne => ?_⟩, fun p hp => ?_⟩
  · rw [Store.Below, hdirectory] at hp
    exact (hspares p hp).1
  · rw [hdirectory]
    exact hhome.2.reaches (List.prefix_refl _) h.reaches
  · rw [hdirectory]
    exact hhome.2.node.trans h.stands
  · rw [hdirectory] at hp hne
    rw [(hspares p hp.1).2.node]
    exact h.flat p hp hne
  · exact (hspares p hp).2.keeps (h.watched p hp).sane

end AtHome
end Service
end Montage
