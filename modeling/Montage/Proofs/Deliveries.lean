import Montage.Proofs.AssetPlaces
import Montage.Proofs.Fates
import Montage.Proofs.PlainFiles

/-! # Downloads into one directory

The downloads of one call take their events in any order.  If their targets are different names in a
directory of plain files, and none of them is the part file of another, then each download works at its
own two names (`WorksAt`), so it fares as its own events say: its phase, its part file and its target
follow its `Fate` (`Download.Held`, `Downloads.fares`).
-/
namespace Montage

open FileTree Path

/-! ### The part file -/

/-- What stands against a path. -/
def FileTree.obstacleAt? (t : FileTree) (p : Path) : Option FileFault :=
  match t.locate p with
  | .error c => some (.at c p)
  | .ok _ => none

/-- The name of the part file. -/
abbrev partName (name : String) : String := name ++ ".part"

theorem partName_ne (name : String) : partName name ≠ name := by
  intro h
  have hlength := congrArg String.length h
  have hpart : ".part".length = 5 := by decide
  rw [String.length_append, hpart] at hlength
  omega

/-- Where a part file can stand its target can. -/
theorem Path.CanStand.of_part {name : String} (other : name ≠ "..") (stand : CanStand (partName name)) :
    CanStand name where
  unended := by
    have hunended := stand.unended
    simp only [Path.holdsEnd, List.any_cons, List.any_nil, Bool.or_false, String.toList_append] at hunended ⊢
    rw [List.contains_eq_mem] at hunended ⊢
    simp only [List.mem_append, decide_eq_false_iff_not, not_or] at hunended ⊢
    exact hunended.1
  other := other
  short := by
    have hshort := stand.short
    rw [String.utf8ByteSize_append] at hshort
    omega

section Part
variable {t u : FileTree} {directory place : Path} {name : String}

/-- A part file can stand in its directory, or no path to it leads anywhere. -/
theorem FileTree.Stands.part_cases (stands : t.Stands directory place) (name : String) :
    CanStand (partName name) ∧
        t.locate (directory ++ [partName name]) = .ok (place ++ [partName name]) ∧
        t.obstacleAt? (directory ++ [partName name]) = none ∨
      ¬ CanStand (partName name) ∧ ∃ c, c ≠ .missing ∧
        t.locate (directory ++ [partName name]) = .error c ∧
        t.obstacleAt? (directory ++ [partName name]) =
          some (.at c (directory ++ [partName name])) := by
  have hobstacle {c : FileCause} (h : t.locate (directory ++ [partName name]) = .error c) :
      t.obstacleAt? (directory ++ [partName name]) =
        some (.at c (directory ++ [partName name])) := by rw [obstacleAt?, h]
  have hlocate := stands.locate_entry (partName name)
  by_cases hended : Path.holdsEnd [partName name] = true
  · rw [if_pos hended] at hlocate
    refine Or.inr ⟨fun stand => ?_, .endedName, by decide, hlocate, hobstacle hlocate⟩
    rw [stand.unended] at hended
    cases hended
  rw [if_neg hended, if_neg (ne_dots_of_part name)] at hlocate
  by_cases hlong : longestName < (partName name).utf8ByteSize
  · rw [if_pos hlong] at hlocate
    refine Or.inr ⟨fun stand => ?_, .longName, by decide, hlocate, hobstacle hlocate⟩
    exact absurd stand.short (by omega)
  · rw [if_neg hlong] at hlocate
    exact Or.inl ⟨⟨by simpa using hended, ne_dots_of_part name, by omega⟩, hlocate,
      by rw [obstacleAt?, hlocate]⟩

theorem FileTree.Stands.obstacleAt?_eq (stands : t.Stands directory place)
    (stands' : u.Stands directory place) (name : String) :
    t.obstacleAt? (directory ++ [name]) = u.obstacleAt? (directory ++ [name]) := by
  rw [obstacleAt?, obstacleAt?, stands.locate_entry, stands'.locate_entry]

/-- A part file is moved to its target, unless a directory is there. -/
theorem FileTree.Stands.rename_part (stands : t.Stands directory place) (other : name ≠ "..")
    (stand : CanStand (partName name)) {k : Handle}
    (node : t.node? (place ++ [partName name]) = some (.file k))
    (flat : t.node? (place ++ [name]) ≠ some .directory) :
    t.rename (directory ++ [partName name]) (directory ++ [name]) =
      .ok (t.move (place ++ [partName name]) (place ++ [name])) := by
  have hpart := stands.locate_of_canStand stand
  have htarget := stands.locate_of_canStand (stand.of_part other)
  have hfree : t.obstacle? (.file k) (place ++ [partName name]) (place ++ [name]) = none := by
    cases hnode : t.node? (place ++ [name]) with
    | none => simp only [obstacle?, hnode]
    | some n =>
      cases n with
      | directory => exact absurd hnode flat
      | file j => simp only [obstacle?, hnode]
  have hnames : ¬ (Path.name (directory ++ [partName name]) = ".." ∨
      Path.name (directory ++ [name]) = "..") := by
    simp [Path.name_concat, other, ne_dots_of_part name]
  have hne : place ++ [partName name] ≠ place ++ [name] := entry_ne_entry (partName_ne name)
  simp only [rename, hpart, htarget, node, if_neg hnames, if_neg hne, hfree]

variable (files : t.HoldsFiles directory place)
include files

/-- A name leads to a file, or nothing stands there. -/
theorem FileTree.HoldsFiles.node_cases (name : String) :
    t.node? (place ++ [name]) = none ∨ ∃ k, t.node? (place ++ [name]) = some (.file k) := by
  have hflat := files.flat _ (inside_concat place name)
  cases hnode : t.node? (place ++ [name]) with
  | none => exact Or.inl rfl
  | some n =>
    cases n with
    | directory => exact absurd hnode hflat
    | file k => exact Or.inr ⟨k, rfl⟩

/-- A part file is removed, whether it is there or not. -/
theorem FileTree.HoldsFiles.unlink_part (stand : CanStand (partName name)) :
    t.unlink (directory ++ [partName name]) = .ok (t.drop (place ++ [partName name])) := by
  have hlocate := files.stands.locate_of_canStand stand
  rcases files.node_cases (partName name) with hnode | ⟨k, hnode⟩
  · simp only [unlink, hlocate, hnode]
  · simp only [unlink, hlocate, hnode]

/-- A part file can be opened. -/
theorem FileTree.HoldsFiles.openNew_part (stand : CanStand (partName name)) :
    ∃ k u, t.openNew (directory ++ [partName name]) = .ok (k, u) := by
  have hlocate := files.stands.locate_of_canStand stand
  rcases files.node_cases (partName name) with hnode | ⟨k, hnode⟩
  · simp only [openNew, hlocate, hnode]
    exact ⟨_, _, rfl⟩
  · simp only [openNew, hlocate, hnode]
    exact ⟨_, _, rfl⟩

/-- A part file is moved to its target. -/
theorem FileTree.HoldsFiles.rename_part (other : name ≠ "..") (stand : CanStand (partName name))
    {k : Handle} (node : t.node? (place ++ [partName name]) = some (.file k)) :
    t.rename (directory ++ [partName name]) (directory ++ [name]) =
      .ok (t.move (place ++ [partName name]) (place ++ [name])) :=
  files.stands.rename_part other stand node (files.flat _ (inside_concat place name))

end Part

/-! ### One download -/

namespace Download

/-- What a download finds when it copies its upload. -/
def found (d : Download) (f : Fetcher) (t : FileTree) : Except FetchFault Content :=
  match f.upload t (d.source.uploadId.getD "") d.source with
  | .error e => .error e
  | .ok (path, c) =>
    if t.isSame path d.part then .error (.storing (.sameFile path d.part) d.source) else .ok c

theorem copy_of_error {d : Download} {f : Fetcher} {t : FileTree} {e : FetchFault}
    (h : d.found f t = .error e) : d.copy f t = d.fail t e := by
  rw [found] at h
  rw [copy]
  cases hupload : f.upload t (d.source.uploadId.getD "") d.source with
  | error e' =>
    simp only [hupload] at h ⊢
    cases h
    rfl
  | ok r =>
    obtain ⟨path, c⟩ := r
    simp only [hupload] at h ⊢
    by_cases hsame : t.isSame path d.part = true
    · rw [if_pos hsame] at h ⊢
      cases h
      rfl
    · rw [if_neg hsame] at h
      cases h

theorem copy_of_ok {d : Download} {f : Fetcher} {t : FileTree} {c : Content}
    (h : d.found f t = .ok c) :
    (∀ g, t.write d.part c = .error g → d.copy f t = d.fail t (.storing g d.source)) ∧
      ∀ u, t.write d.part c = .ok u → d.copy f t = d.settle u c.size := by
  rw [found] at h
  rw [copy]
  cases hupload : f.upload t (d.source.uploadId.getD "") d.source with
  | error e =>
    rw [hupload] at h
    cases h
  | ok r =>
    obtain ⟨path, c'⟩ := r
    simp only [hupload] at h ⊢
    by_cases hsame : t.isSame path d.part = true
    · rw [if_pos hsame] at h
      cases h
    · rw [if_neg hsame] at h ⊢
      cases h
      exact ⟨fun g hwrite => by simp only [hwrite], fun u hwrite => by simp only [hwrite]⟩

/-- What a download meets if it copies its upload now. -/
def prospect (d : Download) (f : Fetcher) (t : FileTree) : Prospect where
  source := d.source
  limit := f.limit
  obstacle := t.obstacleAt? d.part
  found := d.found f t

/-- **A download and its two files follow a fate.**  Until something is stored the target is as it was in
the beginning, and when the download is over the part file is gone. -/
inductive Held (t₀ t : FileTree) (place : Path) (name : String) : Fate → DownloadPhase → Prop where
  | waiting (kept : Keeps (place ++ [name]) t₀ t) : Held t₀ t place name .waiting .waiting
  | arriving (kept : Keeps (place ++ [name]) t₀ t) (stand : CanStand (partName name)) (k : Handle)
      (body : List UInt8) (node : t.node? (place ++ [partName name]) = some (.file k))
      (content : t.content? k = some (.raw body)) :
      Held t₀ t place name (.arriving body) (.receiving k body.length)
  | arrived (kept : Keeps (place ++ [name]) t₀ t) (stand : CanStand (partName name)) (k : Handle)
      (body : List UInt8) (node : t.node? (place ++ [partName name]) = some (.file k))
      (content : t.content? k = some (.raw body)) :
      Held t₀ t place name (.arrived body) (.received body.length)
  | doomed (kept : Keeps (place ++ [name]) t₀ t) (fault : FetchFault) :
      Held t₀ t place name (.doomed fault) (.doomed fault)
  | stored (stand : CanStand (partName name)) (gone : t.node? (place ++ [partName name]) = none)
      (k : Handle) (c : Content) (node : t.node? (place ++ [name]) = some (.file k))
      (content : t.content? k = some c) (size : 0 < c.size) :
      Held t₀ t place name (.stored c) .stored
  | failed (kept : Keeps (place ++ [name]) t₀ t)
      (gone : CanStand (partName name) → t.node? (place ++ [partName name]) = none)
      (fault : FetchFault) : Held t₀ t place name (.failed fault) (.failed fault)

/-- Nothing changes for a download when its two files are kept. -/
theorem Held.mono {t₀ t u : FileTree} {place : Path} {name : String} {fate : Fate}
    {phase : DownloadPhase} (held : Held t₀ t place name fate phase)
    (target : Keeps (place ++ [name]) t u) (part : Keeps (place ++ [partName name]) t u) :
    Held t₀ u place name fate phase := by
  cases held with
  | waiting kept => exact .waiting (kept.trans target)
  | arriving kept stand k body node content =>
    exact .arriving (kept.trans target) stand k body (part.node.trans node)
      ((part.content k node).trans content)
  | arrived kept stand k body node content =>
    exact .arrived (kept.trans target) stand k body (part.node.trans node)
      ((part.content k node).trans content)
  | doomed kept fault => exact .doomed (kept.trans target) fault
  | stored stand gone k c node content size =>
    exact .stored stand (part.node.trans gone) k c (target.node.trans node)
      ((target.content k node).trans content) size
  | failed kept gone fault =>
    exact .failed (kept.trans target) (fun stand => part.node.trans (gone stand)) fault

/-- What an event comes to for a download whose target has a name in a directory. -/
structure Fares (t₀ : FileTree) (directory place : Path) (name : String) (d : Download) (t : FileTree)
    (r : Download × FileTree) (fate : Fate) : Prop where
  source : r.1.source = d.source
  target : r.1.target = d.target
  files : r.2.HoldsFiles directory place
  works : WorksAt place [name, partName name] t r.2
  held : Held t₀ r.2 place name fate r.1.phase

section Steps
variable {t₀ t u : FileTree} {directory place : Path} {name : String} {d : Download}

/-- Only the phase changes. -/
theorem fares_of_held (files : t.HoldsFiles directory place) {fate : Fate} {phase : DownloadPhase}
    (held : Held t₀ t place name fate phase) :
    Fares t₀ directory place name d t ({ d with phase }, t) fate where
  source := rfl
  target := rfl
  files := files
  works := .refl place _ t
  held := held

theorem Fares.after {r : Download × FileTree} {fate : Fate}
    (h : Fares t₀ directory place name d u r fate) (works : WorksAt place [name, partName name] t u) :
    Fares t₀ directory place name d t r fate :=
  { h with works := works.trans h.works }

theorem works_part (works : WorksAt place [partName name] t u) :
    WorksAt place [name, partName name] t u ∧ Keeps (place ++ [name]) t u :=
  ⟨works.mono (by simp), works.others name (by simpa using (partName_ne name).symm)⟩

variable (f : Fetcher) (files : t.HoldsFiles directory place) (target : d.target = directory ++ [name])
include files target

theorem fares_fail (kept : Keeps (place ++ [name]) t₀ t) (fault : FetchFault) :
    Fares t₀ directory place name d t (d.fail t fault) (.fail (d.prospect f t) fault) := by
  have hpart : d.part = directory ++ [partName name] := part_eq target
  rcases files.stands.part_cases name with ⟨stand, -, hnone⟩ | ⟨hnot, c, hmissing, hlocate, hsome⟩
  · have hfate : Fate.fail (d.prospect f t) fault = .failed fault := by
      simp [Fate.fail, prospect, hpart, hnone]
    have hfail : d.fail t fault =
        ({ d with phase := .failed fault }, t.drop (place ++ [partName name])) := by
      rw [fail, hpart, files.unlink_part stand]
    obtain ⟨hworks, hkeeps⟩ := works_part (works_drop t place (partName name))
    rw [hfail, hfate]
    refine (fares_of_held (files.drop _) (.failed (kept.trans hkeeps) (fun _ => ?_) fault)).after
      hworks
    rw [node?_drop, if_pos rfl]
  · -- what cannot be reached is not there
    have hfate : Fate.fail (d.prospect f t) fault = .failed (.cleaning (.at c d.part)) := by
      simp [Fate.fail, prospect, hpart, hsome]
    have hunlink : t.unlink d.part = .error (.at c d.part) := by
      rw [unlink, hpart, hlocate]
      cases c with
      | missing => exact absurd rfl hmissing
      | _ => rfl
    have hfail : d.fail t fault = ({ d with phase := .failed (.cleaning (.at c d.part)) }, t) := by
      rw [fail, hunlink]
    rw [hfail, hfate]
    exact fares_of_held files (.failed kept (fun stand => absurd stand hnot) _)

variable (other : name ≠ "..")
include other

theorem fares_settle (kept : Keeps (place ++ [name]) t₀ t) (stand : CanStand (partName name))
    {k : Handle} {c : Content} (node : t.node? (place ++ [partName name]) = some (.file k))
    (content : t.content? k = some c) :
    Fares t₀ directory place name d t (d.settle t c.size) (.settle (d.prospect f t) c) := by
  rw [Download.settle, Fate.settle]
  by_cases hempty : c.size = 0
  · rw [if_pos hempty, if_pos hempty]
    exact fares_fail f files target kept _
  · have hrename := files.rename_part other stand node
    rw [← part_eq target, ← target] at hrename
    rw [if_neg hempty, if_neg hempty, hrename]
    obtain ⟨hfiles, hworks, hgone, hnode⟩ := works_move files (partName_ne name) node
    have hboth : WorksAt place [name, partName name] t
        (t.move (place ++ [partName name]) (place ++ [name])) := hworks.mono (by simp)
    exact (fares_of_held hfiles (.stored stand hgone k c hnode content
      (Nat.pos_of_ne_zero hempty))).after hboth

omit other in
theorem fares_begin (kept : Keeps (place ++ [name]) t₀ t) (status : Nat) (url : String) :
    Fares t₀ directory place name d t (d.begin t status url)
      (.answer (d.prospect f t) status url) := by
  have hpart : d.part = directory ++ [partName name] := part_eq target
  have hdoom (fault : FetchFault) :
      Fares t₀ directory place name d t (d.doom fault, t) (.doomed fault) :=
    fares_of_held files (.doomed kept fault)
  unfold Download.begin Fate.answer
  split
  · exact hdoom _
  · split
    · rcases files.stands.part_cases name with ⟨stand, -, hnone⟩ | ⟨-, c, -, hlocate, hsome⟩
      · obtain ⟨k, u, hopen⟩ := files.openNew_part stand
        obtain ⟨hfiles, hworks, hopened⟩ := works_openNew files (ne_dots_of_part name) hopen
        obtain ⟨hworks, hkeeps⟩ := works_part hworks
        have hobstacle : (d.prospect f t).obstacle = none := by rw [prospect, hpart, hnone]
        rw [receive, hpart, hopen, hobstacle]
        exact (fares_of_held hfiles (.arriving (kept.trans hkeeps) stand k [] hopened.node
          hopened.empty)).after hworks
      · have hopen : t.openNew (directory ++ [partName name]) =
            .error (.at c (directory ++ [partName name])) := by rw [openNew, hlocate]
        have hobstacle : (d.prospect f t).obstacle =
            some (.at c (directory ++ [partName name])) := by rw [prospect, hpart, hsome]
        rw [receive, hpart, hopen, hobstacle]
        exact hdoom _
    · exact hdoom _

omit target other in
theorem fares_append (kept : Keeps (place ++ [name]) t₀ t) (stand : CanStand (partName name))
    {k : Handle} {body : List UInt8} (node : t.node? (place ++ [partName name]) = some (.file k))
    (content : t.content? k = some (.raw body)) (piece : List UInt8) :
    Fares t₀ directory place name d t (d.append t k body.length piece) (.arriving (body ++ piece)) := by
  obtain ⟨hworks, hkeeps⟩ := works_part (works_fill files node (.raw (body ++ piece)))
  have hlt : k < t.contents.length := files.lt_length node
  have hheld : Held t₀ (t.fill k (.raw (body ++ piece))) place name (.arriving (body ++ piece))
      (.receiving k (body ++ piece).length) :=
    .arriving (kept.trans hkeeps) stand k _ node (content?_fill hlt _)
  rw [List.length_append] at hheld
  simp only [append, content, Content.extended]
  exact (fares_of_held (files.fill k _) hheld).after hworks

theorem fares_copy (kept : Keeps (place ++ [name]) t₀ t) :
    Fares t₀ directory place name d t (d.copy f t) (.copy (d.prospect f t)) := by
  have hpart : d.part = directory ++ [partName name] := part_eq target
  rw [Fate.copy]
  cases hfound : d.found f t with
  | error e =>
    have hfate : (d.prospect f t).found = .error e := hfound
    rw [copy_of_error hfound, hfate]
    exact fares_fail f files target kept e
  | ok c =>
    have hfate : (d.prospect f t).found = .ok c := hfound
    rcases files.stands.part_cases name with ⟨stand, -, hnone⟩ | ⟨-, cause, -, hlocate, hsome⟩
    · obtain ⟨k, u, hopen⟩ := files.openNew_part stand
      obtain ⟨hfiles, hopening, hopened⟩ := works_openNew files (ne_dots_of_part name) hopen
      have hfilling := works_fill hfiles hopened.node c
      obtain ⟨hworks, hkeeps⟩ := works_part (hopening.trans hfilling)
      have hwritten : (u.fill k c).HoldsFiles directory place := hfiles.fill k c
      have hwrite : t.write d.part c = .ok (u.fill k c) := by rw [write, hpart, hopen]
      have hobstacle : (d.prospect f t).obstacle = (d.prospect f (u.fill k c)).obstacle := by
        rw [prospect, prospect, hpart]
        exact files.stands.obstacleAt?_eq hwritten.stands _
      have hsettle : Fate.settle (d.prospect f t) c = .settle (d.prospect f (u.fill k c)) c := by
        rw [Fate.settle, Fate.settle, Fate.fail, Fate.fail, hobstacle]
        rfl
      have hclear : (d.prospect f t).obstacle = none := by rw [prospect, hpart, hnone]
      rw [(copy_of_ok hfound).2 _ hwrite, hfate, hclear]
      have hfares := fares_settle f hwritten target other (kept.trans hkeeps) stand hopened.node
        (content?_fill (hfiles.lt_length hopened.node) c)
      rw [← hsettle] at hfares
      exact hfares.after hworks
    · have hwrite : t.write d.part c = .error (.at cause (directory ++ [partName name])) := by
        rw [write, hpart, openNew, hlocate]
      have hobstacle : (d.prospect f t).obstacle =
          some (.at cause (directory ++ [partName name])) := by rw [prospect, hpart, hsome]
      rw [(copy_of_ok hfound).1 _ hwrite, hfate, hobstacle]
      exact fares_fail f files target kept _

omit files target other in
theorem Held.isOver_eq {fate : Fate} {phase : DownloadPhase} (held : Held t₀ t place name fate phase) :
    fate.isOver = phase.isOver := by
  cases held <;> rfl

/-- **A download fares as its fate says.** -/
theorem fares_step {fate : Fate} (held : Held t₀ t place name fate d.phase) {e : DownloadEvent}
    (steady : e ≠ .abandoned) :
    Fares t₀ directory place name d t (d.step f t e) (.step (d.prospect f t) fate e) := by
  have hstay : Fares t₀ directory place name d t (d, t) fate := fares_of_held files held
  have hdoom (kept : Keeps (place ++ [name]) t₀ t) (fault : FetchFault) :
      Fares t₀ directory place name d t (d.doom fault, t) (.doomed fault) :=
    fares_of_held files (.doomed kept fault)
  have hsource : (d.prospect f t).source = d.source := rfl
  unfold Download.step Fate.step
  rw [held.isOver_eq]
  split
  · exact hstay
  rename_i hlive
  generalize d.phase = phase at held hlive
  cases e with
  | abandoned => exact absurd rfl steady
  | refused g =>
    cases held with
    | stored _ _ _ _ _ _ _ | failed _ _ _ => exact absurd rfl hlive
    | waiting kept | arriving kept _ _ _ _ _ | arrived kept _ _ _ _ _ | doomed kept _ =>
      exact hdoom kept _
  | settled =>
    cases held with
    | arrived kept stand k body node content =>
      exact fares_settle f files target other kept stand node content
    | doomed kept fault => exact fares_fail f files target kept fault
    | _ => exact hstay
  | copied =>
    cases held with
    | waiting kept =>
      cases hremote : d.source.remote? with
      | none =>
        simp only [hsource, hremote]
        exact fares_copy f files target other kept
      | some url =>
        simp only [hsource, hremote]
        exact hstay
    | _ => exact hstay
  | answered status =>
    cases held with
    | waiting kept =>
      cases hremote : d.source.remote? with
      | none =>
        simp only [hsource, hremote]
        exact hstay
      | some url =>
        simp only [hsource, hremote]
        exact fares_begin f files target kept status url
    | _ => exact hstay
  | data piece =>
    cases held with
    | arriving kept stand k body node content =>
      exact fares_append files kept stand node content piece
    | _ => exact hstay
  | ended =>
    cases held with
    | arriving kept stand k body node content =>
      exact fares_of_held files (.arrived kept stand k body node content)
    | _ => exact hstay
  | timedOut | broken _ | unasked _ =>
    cases hremote : d.source.remote? with
    | none =>
      simp only [hsource, hremote]
      cases held <;> exact hstay
    | some url =>
      cases held with
      | waiting kept | arriving kept _ _ _ _ _ =>
        simp only [hsource, hremote, DownloadPhase.isOpen, Fate.isOpen]
        exact hdoom kept _
      | _ =>
        simp only [hsource, hremote, DownloadPhase.isOpen, Fate.isOpen]
        exact hstay

end Steps
end Download
end Montage
