import Montage.Proofs.DownloadAnswers
import Montage.Proofs.FixedForms
import Montage.Proofs.JobViews
import Montage.Proofs.Submissions

/-! # Uploads are kept whole or not at all

An upload is taken piece by piece, and it is given up with the piece that exceeds the limit.  What that
comes to depends on the pieces together only: on whether they have any bytes, and on whether they have too
many (`UploadArea.body_eq`).

An upload that is kept is one new file, under an id that no upload had before; otherwise all files are
as they were, and no part file is left in either case (`UploadArea.Ready.outcome`).  The id is a name in
the directory of uploads, whatever the client calls its file (`UploadArea.uploadPath_nextId`), so a
fetcher that is given the id finds the file, and it stores what the file holds
(`Downloads.stored_of_found`).
-/
namespace Montage

open FileTree Path Text

/-! ### Pieces -/

namespace UploadArea
variable {a : UploadArea}

/-- **How a body is cut does not matter.**  What has arrived is the front of the body, so the first piece
that exceeds the limit shows that the body does. -/
theorem collect_eq (arrived : List UInt8) (pieces : List (List UInt8)) :
    a.collect arrived pieces =
      if a.bytes < (arrived ++ pieces.flatten).length then .error (.tooLarge a.limit)
      else .ok (arrived ++ pieces.flatten) := by
  induction pieces generalizing arrived with
  | nil => rw [collect, List.flatten_nil, List.append_nil]
  | cons piece rest ih =>
    rw [collect, List.flatten_cons, ← List.append_assoc]
    by_cases htoo : a.bytes < (arrived ++ piece).length
    · have hall : a.bytes < ((arrived ++ piece) ++ rest.flatten).length := by
        rw [List.length_append]
        omega
      simp only [if_pos htoo, if_pos hall]
    · simp only [if_neg htoo]
      exact ih (arrived ++ piece)

theorem body_eq (pieces : List (List UInt8)) :
    a.body pieces =
      if a.bytes < pieces.flatten.length then .error (.tooLarge a.limit)
      else if pieces.flatten = [] then .error .empty else .ok pieces.flatten := by
  have hcollect := collect_eq (a := a) [] pieces
  rw [List.nil_append] at hcollect
  rw [body, hcollect]
  by_cases htoo : a.bytes < pieces.flatten.length
  · rw [if_pos htoo, if_pos htoo]
    rfl
  · rw [if_neg htoo, if_neg htoo]
    show (if pieces.flatten.isEmpty = true then _ else _) = _
    simp only [List.isEmpty_iff]

/-! ### Ids -/

/-- The id of the next upload. -/
def nextId (a : UploadArea) (name : String) : String := jobId (a.issued + 1) ++ uploadSuffix name

/-- The characters of a suffix are no others than those of its form, and perhaps a line feed. -/
theorem char_uploadSuffix {name : String} {c : Char} (hc : c ∈ (uploadSuffix name).toList) :
    isBareChar c = true ∨ c = '\n' := by
  rcases holds_uploadSuffix name with hnone | ⟨body, hform, hs⟩
  · rw [hnone] at hc
    cases hc
  · have hcases : c ∈ body ∨ c = '\n' := by
      rcases hs with hs | hs <;> rw [hs] at hc
      · exact Or.inl hc
      · exact (List.mem_append.mp hc).imp_right List.mem_singleton.mp
    refine hcases.imp_left fun hbody => (Form.bare_or_figure hform hbody).resolve_right ?_
    exact fun h => Form.noConfusion h.1

theorem length_uploadSuffix (name : String) : (uploadSuffix name).length ≤ 7 := by
  rw [← String.length_toList]
  rcases holds_uploadSuffix name with hnone | ⟨body, hform, hs⟩
  · rw [hnone]
    decide
  · have hbody : body.length ≤ 6 := by
      cases hform with
      | mk hsome length chars =>
        rw [List.length_cons]
        omega
    rcases hs with hs | hs <;> rw [hs]
    · omega
    · rw [List.length_append, List.length_singleton]
      omega

theorem char_nextId {name : String} {c : Char} (hc : c ∈ (a.nextId name).toList) :
    isBareChar c = true ∨ c = '\n' := by
  rw [nextId, String.toList_append] at hc
  rcases List.mem_append.mp hc with hc | hc
  · left
    refine isBareChar_of_isHexDigit ?_
    by_contra hnot
    exact not_mem_jobId (Option.not_isSome_iff_eq_none.mp hnot) _ hc
  · exact char_uploadSuffix hc

end UploadArea

/-- Characters of ASCII take a byte each. -/
theorem Text.utf8ByteSize_of_ascii {s : String} :
    (∀ c ∈ s.toList, isAscii c = true) → s.utf8ByteSize = s.length := by
  induction s using String.push_induction with
  | empty => exact fun _ => rfl
  | push s c ih =>
    intro h
    rw [String.toList_push, List.forall_mem_append] at h
    have hc : c.val ≤ 127 := by
      have hascii := List.forall_mem_singleton.mp h.2
      rw [isAscii, decide_eq_true_eq] at hascii
      exact Nat.le_of_lt_succ hascii
    rw [String.utf8ByteSize_push, String.length_push, ih h.1, Char.utf8Size_eq_one_iff.mpr hc]

/-- A short text of ASCII is a name. -/
theorem Path.CanStand.of_ascii {s : String} (ascii : ∀ c ∈ s.toList, isAscii c = true)
    (unended : '\x00' ∉ s.toList) (given : 3 ≤ s.length) (short : s.length ≤ longestName) :
    CanStand s where
  unended := by simpa [holdsEnd] using unended
  other := by
    rintro rfl
    exact absurd given (by decide)
  short := by rwa [utf8ByteSize_of_ascii ascii]

/-- A text without a slash names one file in a directory, unless it stands for a directory. -/
theorem uploadPath?_of_single {directory : Path} {id : String} (single : '/' ∉ id.toList)
    (given : 3 ≤ id.length) : uploadPath? directory id = some (directory ++ [id]) := by
  have hnot {word : String} (hword : word.length < 3) : id ≠ word := by
    rintro rfl
    omega
  have hwalk : walk directory [id] = directory ++ [id] := by
    rw [walk, if_neg (not_or.mpr ⟨hnot (by decide), hnot (by decide)⟩), if_neg (hnot (by decide)), walk]
  have hresolve : resolve directory id = directory ++ [id] := by
    unfold resolve
    rw [List.splitOn_eq_singleton single, List.map_singleton, String.ofList_toList]
    split
    · rename_i rest heq
      exact absurd (heq ▸ List.mem_cons_self) single
    · exact hwalk
  rw [uploadPath?, hresolve, List.dropLast_concat]
  exact if_pos rfl

namespace UploadArea
variable {a : UploadArea} {name : String}

section Named
variable (digits : (jobId (a.issued + 1)).length = 32)
include digits

theorem length_nextId (name : String) : 32 ≤ (a.nextId name).length ∧ (a.nextId name).length ≤ 39 := by
  have hsuffix := length_uploadSuffix name
  rw [nextId, String.length_append, digits]
  omega

/-- **An id and its part file are names**, whatever the client calls the file. -/
theorem canStand_nextId (name : String) :
    CanStand (a.nextId name) ∧ CanStand (partName (a.nextId name)) := by
  obtain ⟨hgiven, hshort⟩ := length_nextId digits name
  have hascii : ∀ c ∈ (a.nextId name).toList, isAscii c = true := by
    intro c hc
    rcases char_nextId hc with hbare | rfl
    · exact isAscii_of_isBareChar hbare
    · decide
  have hended : '\x00' ∉ (a.nextId name).toList := by
    intro hc
    rcases char_nextId hc with hbare | hfeed
    · exact absurd hbare (by decide)
    · exact absurd hfeed (by decide)
  have hpart : ".part".length = 5 := by decide
  have hlongest : longestName = 255 := rfl
  -- 39 characters and those of the part file are far below what a name may have
  refine ⟨.of_ascii hascii hended (by omega) (by omega), .of_ascii ?_ ?_ ?_ ?_⟩
  · rw [String.toList_append, List.forall_mem_append]
    exact ⟨hascii, List.all_eq_true.mp (by decide : ".part".toList.all isAscii = true)⟩
  · rw [String.toList_append, List.mem_append]
    exact fun h => h.elim hended (by decide)
  · rw [String.length_append]
    omega
  · rw [String.length_append]
    omega

/-- **A fetcher that is given the id looks for the file of that name.** -/
theorem uploadPath_nextId {f : Fetcher} (uploads : f.uploads = a.directory) :
    f.uploadPath (a.nextId name) = .ok (a.directory ++ [a.nextId name]) := by
  have hsingle : '/' ∉ (a.nextId name).toList := by
    intro hc
    rcases char_nextId hc with hbare | hfeed
    · exact absurd hbare (by decide)
    · exact absurd hfeed (by decide)
  have hgiven : 3 ≤ (a.nextId name).length := by
    have hlength := (length_nextId digits name).1
    omega
  rw [Fetcher.uploadPath, (canStand_nextId digits name).1.unended, uploads,
    uploadPath?_of_single hsingle hgiven]
  rfl

end Named

end UploadArea

/-! ### One new file -/

namespace FileTree
variable {t u : FileTree} {directory place p q : Path} {name : String} {c d : Content}

theorem shown?_of_none (h : t.node? q = none) : t.shown? q = none := by rw [shown?, h]

/-- What is made leaves what files hold alone. -/
theorem shown?_makeFrom {mayExist : Bool} {names : List String}
    (h : t.makeFrom mayExist names = .ok u) (q : Path) : u.shown? q = t.shown? q := by
  refine makeFrom_preserves (P := fun v => v.shown? q = t.shown? q) (fun v r hfree hv => ?_) h rfl
  rw [← hv, shown?, shown?, node?_put]
  by_cases hq : q = r
  · subst hq
    rw [if_pos rfl, hfree]
  · rw [if_neg hq]
    rfl

/-- A new file changes nothing that others hold. -/
theorem Filled.shown?_eq (filled : t.Filled) (contents : u.contents = t.contents ++ [c])
    (node : u.node? q = t.node? q) : u.shown? q = t.shown? q := by
  rw [shown?, shown?, node]
  split
  · rename_i k hk
    have hlt : k < t.contents.length := filled q k (mem_of_node? hk)
    rw [content?, content?, contents, List.getElem?_append_left hlt]
  · rfl

/-- A file that has just been made is written again. -/
theorem write_withFile (located : (t.withFile q c).locate p = .ok q) (d : Content) :
    (t.withFile q c).write p d = .ok (t.withFile q d) := by
  have hnode : (t.withFile q c).node? q = some (.file t.contents.length) := by
    rw [node?_withFile, if_pos rfl]
  rw [FileTree.write, openNew, located]
  simp only [hnode]
  simp [fill, withFile, put]

/-- **A file that has just been made is taken away again**, and all is as before. -/
theorem shown?_discard_withFile (filled : t.Filled) (located : (t.withFile p c).locate q = .ok p)
    (free : t.node? p = none) (r : Path) :
    ((t.withFile p c).discard q).node? p = none ∧
      ((t.withFile p c).discard q).shown? r = t.shown? r := by
  have hnode : (t.withFile p c).node? p = some (.file t.contents.length) := by
    rw [node?_withFile, if_pos rfl]
  have hdiscard : (t.withFile p c).discard q = (t.withFile p c).drop p := by
    rw [discard, unlink, located]
    simp only [hnode]
    rfl
  have hgone : ((t.withFile p c).drop p).node? p = none := by rw [node?_drop, if_pos rfl]
  rw [hdiscard]
  refine ⟨hgone, ?_⟩
  -- the content stays behind, but no file leads to it any more
  by_cases hr : r = p
  · rw [hr, shown?_of_none hgone, shown?_of_none free]
  · refine filled.shown?_eq rfl ?_
    rw [node?_drop, if_neg hr, node?_withFile, if_neg hr]

/-- Two places, neither in the other, where nothing stands, nor below. -/
structure Spare (t : FileTree) (p q : Path) : Prop where
  apart : ∀ r, p <+: r → ¬ q <+: r
  free : ∀ r, p <+: r ∨ q <+: r → t.node? r = none

/-- **A file that has just been made is moved**, and nothing else is changed. -/
theorem node?_move_withFile (spare : t.Spare p q) (r : Path) :
    ((t.withFile p c).move p q).node? r =
      if r = q then some (.file t.contents.length) else t.node? r := by
  have hne : p ≠ q := fun h => spare.apart p (List.prefix_refl p) (h ▸ List.prefix_refl p)
  have hother {r : Path} (hr : r ≠ p) : (t.withFile p c).node? r = t.node? r := by
    rw [node?_withFile, if_neg hr]
  by_cases htarget : r = q
  · rw [if_pos htarget, htarget, node?_move_target hne, node?_withFile, if_pos rfl]
  rw [if_neg htarget]
  by_cases hsource : p <+: r
  · rw [spare.free r (Or.inl hsource)]
    exact node?_move_source hsource (spare.apart r hsource)
  have hr : r ≠ p := fun h => hsource (h ▸ List.prefix_refl r)
  by_cases hbelow : q <+: r
  · -- nothing stood there, and nothing stood in the file that came
    rw [spare.free r (Or.inr hbelow)]
    by_contra hsome
    obtain ⟨n, hn⟩ := Option.ne_none_iff_exists'.mp hsome
    rcases node?_move_cases hn with hstood | ⟨rest, rfl, hcame⟩
    · rw [hother hr, spare.free r (Or.inr hbelow)] at hstood
      cases hstood
    · have hrest : p ++ rest ≠ p := by
        intro h
        exact htarget (by rw [List.append_right_eq_self.mp h, List.append_nil])
      rw [hother hrest, spare.free _ (Or.inl (List.prefix_append p rest))] at hcame
      cases hcame
  · rw [node?_move hsource hbelow, hother hr]

/-- A path leads on from a directory. -/
theorem exists_stands_of_locate (h : t.locate (directory ++ [name]) = .ok p) :
    ∃ place, t.Stands directory place := by
  rw [locate, Path.parent_concat] at h
  split at h
  · cases h
  · rename_i hended
    have hunended : Path.holdsEnd directory = false := by
      have hall := Bool.not_eq_true _ ▸ hended
      rw [Path.holdsEnd, List.any_append, Bool.or_eq_false_iff] at hall
      exact hall.1
    split at h
    · cases h
    · rename_i place hleads
      exact ⟨place, hunended, hleads⟩

/-- What leads to a directory leads on from there. -/
theorem exists_stands (h : t.isDirectory (directory ++ [name]) = true) :
    ∃ place, t.Stands (directory ++ [name]) place := by
  have hnode : t.nodeAt? (directory ++ [name]) = some .directory := beq_iff_eq.mp h
  rw [nodeAt?] at hnode
  split at hnode
  · cases hnode
  · rename_i p hlocate
    obtain ⟨place, hstands⟩ := exists_stands_of_locate hlocate
    by_cases hup : name = ".."
    · subst hup
      refine ⟨place.dropLast, ?_, ?_⟩
      · rw [Path.holdsEnd, List.any_append]
        exact Bool.or_eq_false_iff.mpr ⟨hstands.unended, by decide⟩
      · rw [descend_append hstands.leads]
        rfl
    · obtain ⟨rfl, hstand⟩ := hstands.locate_eq_ok hup hlocate
      exact ⟨place ++ [name], hstands.entry hstand hnode⟩

/-- A directory that has been made sure of is one. -/
theorem isDirectory_of_settleMade {mayExist : Bool}
    (h : t.settleMade mayExist p (t.make p) = .ok u) : u.isDirectory p = true := by
  rcases settleMade_eq_ok h with hmade | ⟨rfl, -, hthere⟩
  · obtain ⟨r, hlocate, hfree, rfl⟩ := make_eq_ok' hmade
    have hkeeps : ∀ q, t.node? q = some .directory → (t.put r .directory).node? q = some .directory := by
      intro q hq
      rw [node?_put]
      split
      · rfl
      · exact hq
    rw [isDirectory, nodeAt?, locate_mono hkeeps hlocate, beq_iff_eq]
    exact (node?_put t r _ r).trans (if_pos rfl)
  · exact hthere

/-- **What is made sure of stands.** -/
theorem exists_stands_of_ensureDirectory (h : t.ensureDirectory directory = .ok u) :
    ∃ place, u.Stands directory place := by
  rcases List.eq_nil_or_concat' directory with rfl | ⟨around, name, rfl⟩
  · cases h
  · refine exists_stands ?_
    rw [ensureDirectory, List.reverse_append, List.reverse_singleton, List.singleton_append,
      makeFrom] at h
    have hpath : (name :: around.reverse).reverse = around ++ [name] := by simp
    simp only [hpath] at h
    split at h
    · split at h
      · cases h
      · exact isDirectory_of_settleMade h
    · exact isDirectory_of_settleMade h
end FileTree

/-! ### What an upload leaves -/

namespace UploadArea
variable {a : UploadArea} {t made : FileTree} {name : String}

/-- An upload can be taken: its directory can be made sure of, and its id is new. -/
structure Ready (a : UploadArea) (t : FileTree) (name : String) (made : FileTree) : Prop where
  filled : t.Filled
  ensured : t.ensureDirectory a.directory = .ok made
  /-- An id has 32 digits. -/
  digits : (jobId (a.issued + 1)).length = 32
  fresh : ∀ e ∈ made.entries, a.nextId name ∉ e.1 ∧ partName (a.nextId name) ∉ e.1

/-- **What an upload comes to.**  It is kept whole as one new file, or all files are as they were; in
either case there is no part file. -/
inductive Outcome (a : UploadArea) (t : FileTree) (name : String) (place : Path)
    (body : List UInt8) : Except UploadFault (String × Nat) → FileTree → Prop where
  | kept (u : FileTree) (given : 0 < body.length) (within : body.length ≤ a.bytes)
      (files : ∀ q, u.shown? q =
        if q = place ++ [a.nextId name] then some (.raw body) else t.shown? q)
      (gone : u.node? (place ++ [partName (a.nextId name)]) = none)
      (read : u.read? (a.directory ++ [a.nextId name]) = some (.raw body)) :
      Outcome a t name place body (.ok (a.nextId name, body.length)) u
  | tooLarge (u : FileTree) (beyond : a.bytes < body.length) (files : ∀ q, u.shown? q = t.shown? q)
      (gone : u.node? (place ++ [partName (a.nextId name)]) = none) :
      Outcome a t name place body (.error (.tooLarge a.limit)) u
  | empty (u : FileTree) (bare : body.length = 0) (within : body.length ≤ a.bytes)
      (files : ∀ q, u.shown? q = t.shown? q)
      (gone : u.node? (place ++ [partName (a.nextId name)]) = none) :
      Outcome a t name place body (.error .empty) u

section Ready
variable (ready : a.Ready t name made)
include ready

theorem Ready.spare (place : Path) :
    made.Spare (place ++ [partName (a.nextId name)]) (place ++ [a.nextId name]) where
  apart r hpart hid := (partName_ne (a.nextId name)) (Path.entry_unique hpart hid)
  free r hr := by
    by_contra hsome
    obtain ⟨n, hn⟩ := Option.ne_none_iff_exists'.mp hsome
    have hfresh := ready.fresh _ (mem_of_node? hn)
    rcases hr with hr | hr
    · exact hfresh.2 (hr.subset (by simp))
    · exact hfresh.1 (hr.subset (by simp))

/-- **A body is kept**: the part file gets all of it, and is moved to the id. -/
theorem Ready.keep_eq (stands : made.Stands a.directory place) (body : List UInt8) :
    keep (made.withFile (place ++ [partName (a.nextId name)]) (.raw []))
        (a.directory ++ [partName (a.nextId name)]) (a.directory ++ [a.nextId name]) body =
      .ok ((made.withFile (place ++ [partName (a.nextId name)]) (.raw body)).move
        (place ++ [partName (a.nextId name)]) (place ++ [a.nextId name])) := by
  obtain ⟨hid, hpart⟩ := canStand_nextId ready.digits name
  have hspare := ready.spare place
  have hfree := hspare.free _ (Or.inl (List.prefix_refl _))
  have hlocate := (stands.mono (withFile_keeps (c := .raw []) hfree)).locate_of_canStand hpart
  have hwrite := write_withFile hlocate (.raw body)
  have hnode (q : Path) := node?_withFile made (place ++ [partName (a.nextId name)]) (.raw body) q
  have hrename := (stands.mono (withFile_keeps (c := .raw body) hfree)).rename_part hid.other hpart
    ((hnode _).trans (if_pos rfl)) (by
      rw [hnode, if_neg (entry_ne_entry (partName_ne _).symm),
        hspare.free _ (Or.inr (List.prefix_refl _))]
      exact (Option.some_ne_none _).symm)
  simp only [keep, hwrite, Except.bind, hrename]
  rfl

/-- What stands when an upload was kept. -/
theorem Ready.outcome_kept (stands : made.Stands a.directory place) {body : List UInt8}
    (given : 0 < body.length) (within : body.length ≤ a.bytes) :
    Outcome a t name place body (.ok (a.nextId name, body.length))
      ((made.withFile (place ++ [partName (a.nextId name)]) (.raw body)).move
        (place ++ [partName (a.nextId name)]) (place ++ [a.nextId name])) := by
  obtain ⟨hid, -⟩ := canStand_nextId ready.digits name
  have hspare := ready.spare place
  have hmade (q : Path) : made.shown? q = t.shown? q := shown?_makeFrom ready.ensured q
  have hnode := node?_move_withFile (c := .raw body) hspare
  have hcontent : made.contents.length < (made.contents ++ [Content.raw body]).length := by simp
  set u := (made.withFile (place ++ [partName (a.nextId name)]) (.raw body)).move
    (place ++ [partName (a.nextId name)]) (place ++ [a.nextId name]) with hu
  have hcontents : u.contents = made.contents ++ [Content.raw body] := rfl
  have hlast : u.content? made.contents.length = some (.raw body) := by
    rw [content?, hcontents, List.getElem?_concat_length]
  refine .kept u given within (fun q => ?_) ?_ ?_
  · split
    · rename_i hq
      rw [hq, shown?, hnode, if_pos rfl]
      exact hlast
    · rename_i hq
      rw [← hmade]
      exact (ready.filled.makeFrom ready.ensured).shown?_eq hcontents ((hnode q).trans (if_neg hq))
  · rw [hnode, if_neg (entry_ne_entry (partName_ne _))]
    exact hspare.free _ (Or.inl (List.prefix_refl _))
  · have hkeeps : ∀ q, made.node? q = some .directory → u.node? q = some .directory := by
      intro q hq
      rw [hnode, if_neg, hq]
      rintro rfl
      cases (hspare.free _ (Or.inr (List.prefix_refl _))).symm.trans hq
    have hlocate := (stands.mono hkeeps).locate_of_canStand hid
    have hfile := (hnode (place ++ [a.nextId name])).trans (if_pos rfl)
    simp only [read?, handle?, nodeAt?, hlocate, hfile]
    exact hlast

/-- **An upload is kept whole or not at all.** -/
theorem Ready.outcome (stands : made.Stands a.directory place) (pieces : List (List UInt8)) :
    Outcome a t name place pieces.flatten (a.receive t name pieces).1
      (a.receive t name pieces).2.2 := by
  obtain ⟨hid, hpart⟩ := canStand_nextId ready.digits name
  have hspare := ready.spare place
  have hfree := hspare.free _ (Or.inl (List.prefix_refl _))
  have hmade (q : Path) : made.shown? q = t.shown? q := shown?_makeFrom ready.ensured q
  have hopen : openPart made (a.directory ++ [partName (a.nextId name)]) =
      .ok (made.withFile (place ++ [partName (a.nextId name)]) (.raw [])) := by
    rw [openPart, stands.write hpart hfree]
    rfl
  have hlocate := (stands.mono (withFile_keeps (c := .raw []) hfree)).locate_of_canStand hpart
  have hdiscard := shown?_discard_withFile (ready.filled.makeFrom ready.ensured) hlocate hfree
  have hname : jobId (a.issued + 1) ++ uploadSuffix name = a.nextId name := rfl
  have hbody : ({ a with issued := a.issued + 1 } : UploadArea).body pieces =
      if a.bytes < pieces.flatten.length then .error (.tooLarge a.limit)
      else if pieces.flatten = [] then .error .empty else .ok pieces.flatten := body_eq pieces
  rw [receive, ready.ensured]
  simp only [hname, hopen]
  by_cases htoo : a.bytes < pieces.flatten.length
  · rw [if_pos htoo] at hbody
    simp only [hbody]
    exact .tooLarge _ htoo (fun q => ((hdiscard q).2).trans (hmade q)) (hdiscard []).1
  rw [if_neg htoo] at hbody
  by_cases hempty : pieces.flatten = []
  · rw [if_pos hempty] at hbody
    simp only [hbody]
    exact .empty _ (by rw [hempty, List.length_nil]) (by omega)
      (fun q => ((hdiscard q).2).trans (hmade q)) (hdiscard []).1
  · rw [if_neg hempty] at hbody
    simp only [hbody, ready.keep_eq stands]
    exact ready.outcome_kept stands (List.length_pos_iff.mpr hempty) (by omega)

end Ready
end UploadArea

/-! ### Fetching an upload -/

namespace Downloads
variable {items : List (MediaSource × Path)} {directory place path : Path} {names : List String}
  {t u : FileTree} {f : Fetcher} {schedule : Schedule} {ds : Downloads} {i : Nat}
  {item : MediaSource × Path} {name : String} {c : Content}

/-- **A copy is stored**, unless the disk refuses. -/
theorem stored_of_found (into : Into items directory names) (files : t.HoldsFiles directory place)
    (elsewhere : Elsewhere items f t place) (completes : Completes items f t schedule ds u)
    (hitem : items[i]? = some item) (hname : names[i]? = some name) (stand : CanStand (partName name))
    (upload : item.1.remote? = none) (found : (fresh item).found f t = .ok c) (given : 0 < c.size)
    (taken : ∀ fault, (i, .refused fault) ∉ schedule) :
    ds[i]? = some { fresh item with phase := .stored } ∧ u.read? item.2 = some c := by
  obtain ⟨name', hname', htarget, -⟩ := into.name hitem
  obtain rfl : name = name' := Option.some.inj (hname.symm.trans hname')
  have hobstacle : ((fresh item).prospect f t).obstacle = none := by
    have hpart : (fresh item).part = directory ++ [partName name] := Download.part_eq htarget
    show t.obstacleAt? (fresh item).part = none
    rw [hpart]
    rcases files.stands.part_cases name with ⟨-, -, hnone⟩ | ⟨hnot, -⟩
    · exact hnone
    · exact absurd stand hnot
  have hfate : fateIn items f t schedule i item = .waiting ∨
      fateIn items f t schedule i item = .stored c := by
    rw [fateIn, foundIn_eq into files elsewhere completes.steady hitem upload, found]
    refine (Fate.fateOf_copy upload fun fault h => taken fault (Schedule.mem_eventsOf.mp h)).imp_right ?_
    intro h
    rw [h, Fate.copy]
    simp only [hobstacle, Fate.settle]
    rw [if_neg (Nat.ne_of_gt given)]
  -- a download that is over is over as its fate says, and that is to be stored with the content
  obtain ⟨phase, hstage, -, hended⟩ := (settled_of_completes into files completes).each i item hitem
  rcases hended with ⟨rfl, c', hstored, -, hread⟩ | ⟨fault, rfl, hfailed, -⟩
  · rcases hfate with hwaiting | hcopied
    · cases hwaiting.symm.trans hstored
    · cases hcopied.symm.trans hstored
      exact ⟨hstage, hread⟩
  · rcases hfate with hwaiting | hcopied
    · cases hwaiting.symm.trans hfailed
    · cases hcopied.symm.trans hfailed

theorem found_of_read? (files : t.HoldsFiles directory place) (target : item.2 = directory ++ [name])
    (leads : f.uploadPath (item.1.uploadId.getD "") = .ok path)
    (short : path.name.utf8ByteSize ≤ longestName) (read : t.read? path = some c)
    (outside : ∀ q, t.locate path = .ok q → ¬ Inside place q) :
    (fresh item).found f t = .ok c := by
  have hupload : f.upload t (item.1.uploadId.getD "") item.1 = .ok (path, c) := by
    rw [Fetcher.upload, leads]
    simp only [if_neg (Nat.not_lt.mpr short), read]
  have hsource : (fresh item).source = item.1 := rfl
  rw [Download.found, hsource, hupload]
  simp only [isSame_part files target outside]
  rfl

/-- An item is stored with a content, in whatever order the downloads go on, and in every network. -/
def Copies (items : List (MediaSource × Path)) (f : Fetcher) (t : FileTree) (i : Nat)
    (item : MediaSource × Path) (c : Content) : Prop :=
  (∀ schedule ds u, Completes items f t schedule ds u → (∀ fault, (i, .refused fault) ∉ schedule) →
    ds[i]? = some { fresh item with phase := .stored } ∧ u.read? item.2 = some c) ∧
  ∀ network, ((begin items).run network f t).1[i]? = some { fresh item with phase := .stored } ∧
    ((begin items).run network f t).2.read? item.2 = some c

/-- An item of a fetch asks for the upload with an id. -/
structure Asks (items : List (MediaSource × Path)) (f : Fetcher) (t : FileTree) (i : Nat)
    (item : MediaSource × Path) (id : String) : Prop where
  /-- The targets are names in a directory of files, and no upload is kept there. -/
  apart : ∃ directory place names, Into items directory names ∧ t.HoldsFiles directory place ∧
    Elsewhere items f t place ∧ ∃ name, names[i]? = some name ∧ CanStand (partName name)
  listed : items[i]? = some item
  upload : item.1.remote? = none
  id : item.1.uploadId = some id

theorem Asks.copies {id : String} (asks : Asks items f t i item id)
    (leads : f.uploadPath id = .ok path) (short : path.name.utf8ByteSize ≤ longestName)
    (read : t.read? path = some c) (given : 0 < c.size) : Copies items f t i item c := by
  obtain ⟨directory, place, names, into, files, elsewhere, name, hname, stand⟩ := asks.apart
  have hleads : f.uploadPath (item.1.uploadId.getD "") = .ok path := by
    rw [asks.id]
    exact leads
  have hfound : (fresh item).found f t = .ok c := by
    obtain ⟨name', -, htarget, -⟩ := into.name asks.listed
    exact found_of_read? files htarget hleads short read
      fun q => elsewhere item (List.mem_of_getElem? asks.listed) asks.upload path q hleads
  have hstored {schedule ds u} (completes : Completes items f t schedule ds u) :=
    stored_of_found into files elsewhere completes asks.listed hname stand asks.upload hfound given
  refine ⟨fun schedule ds u completes => hstored completes, fun network => ?_⟩
  -- a run in a network is a schedule in which the disk refuses nothing
  obtain ⟨schedule, hundisturbed, hrun⟩ := run_undisturbed network f (begin items) t
  have hcompletes : Completes items f t schedule ((begin items).run network f t).1
      ((begin items).run network f t).2 :=
    ⟨fun e he => (hundisturbed e he).1, hrun.symm, run_areOver network f items t⟩
  exact hstored hcompletes fun fault he => (hundisturbed _ he).2 fault rfl

end Downloads

/-- **Uploads settle.**  An upload is taken if it has bytes and no more than the limit, however it is
cut.  Then there is one new file, under the id that is answered, which holds the body; and whoever asks
for that id afterwards stores the body at the target, in every schedule and in every network.  Otherwise the
problem says what was wrong, and all files are as they were.  No part file is left. -/
theorem uploads_settle {a : UploadArea} {t made : FileTree} {name : String}
    (ready : a.Ready t name made) (pieces : List (List UInt8)) :
    ∃ place, made.Stands a.directory place ∧
      ((a.receive t name pieces).1.isOk = true ↔
        0 < pieces.flatten.length ∧ pieces.flatten.length ≤ a.bytes) ∧
      (∀ id size, (a.receive t name pieces).1 = .ok (id, size) →
        id = a.nextId name ∧ size = pieces.flatten.length ∧ t.shown? (place ++ [id]) = none ∧
        (∀ q, (a.receive t name pieces).2.2.shown? q =
          if q = place ++ [id] then some (.raw pieces.flatten) else t.shown? q) ∧
        (a.receive t name pieces).2.2.read? (a.directory ++ [id]) = some (.raw pieces.flatten) ∧
        ∀ v : FileTree, v.read? (a.directory ++ [id]) = some (.raw pieces.flatten) →
          ∀ items f i item, f.uploads = a.directory → Downloads.Asks items f v i item id →
            Downloads.Copies items f v i item (.raw pieces.flatten)) ∧
      (∀ fault, (a.receive t name pieces).1 = .error fault →
        (∃ p, fault.problem? = some p ∧ (p.kind = .payloadTooLarge ∧ a.bytes < pieces.flatten.length ∨
          p.kind = .validation ∧ pieces.flatten.length = 0)) ∧
        ∀ q, (a.receive t name pieces).2.2.shown? q = t.shown? q) ∧
      (a.receive t name pieces).2.2.node? (place ++ [partName (a.nextId name)]) = none := by
  obtain ⟨place, hstands⟩ := exists_stands_of_ensureDirectory ready.ensured
  have hnew : t.shown? (place ++ [a.nextId name]) = none := by
    rw [← shown?_makeFrom ready.ensured]
    exact shown?_of_none ((ready.spare place).free _ (Or.inr (List.prefix_refl _)))
  refine ⟨place, hstands, ?_⟩
  have houtcome := ready.outcome hstands pieces
  revert houtcome
  generalize (a.receive t name pieces).1 = answer
  generalize (a.receive t name pieces).2.2 = u
  intro houtcome
  cases houtcome with
  | kept _ given within files gone read =>
    refine ⟨iff_of_true rfl ⟨given, within⟩, ?_, (fun _ h => by cases h), gone⟩
    intro id size h
    cases h
    refine ⟨rfl, rfl, hnew, files, read, fun v hv items f i item uploads asks => ?_⟩
    refine asks.copies (UploadArea.uploadPath_nextId ready.digits uploads) ?_ hv given
    rw [Path.name_concat]
    exact (UploadArea.canStand_nextId ready.digits _).1.short
  | tooLarge _ beyond files gone =>
    refine ⟨iff_of_false Bool.false_ne_true (by omega), (fun _ _ h => by cases h), ?_, gone⟩
    intro fault h
    cases h
    exact ⟨⟨_, rfl, Or.inl ⟨rfl, beyond⟩⟩, files⟩
  | empty _ bare within files gone =>
    refine ⟨iff_of_false Bool.false_ne_true (by omega), (fun _ _ h => by cases h), ?_, gone⟩
    intro fault h
    cases h
    exact ⟨⟨_, rfl, Or.inr ⟨rfl, bare⟩⟩, files⟩

namespace Sample

/-- Where uploads are kept, with at most a megabyte. -/
def area : UploadArea := ⟨["uploads"], 0, 1⟩

/-- An upload in two pieces. -/
def received : Except UploadFault (String × Nat) × UploadArea × FileTree :=
  area.receive workRoot "Clip.MP4" [[1, 2], [3]]

def uploadId : String := "00000000000000000000000000000001.mp4"

/-- The upload, and where it is wanted. -/
def wanted : MediaSource × Path := (⟨none, some uploadId, by decide⟩, ["work", "a.mp4"])

theorem area_ready : area.Ready workRoot "Clip.MP4" (workRoot.put ["uploads"] .directory) where
  filled q k hq := by simp [workRoot] at hq
  ensured := by decide
  digits := by decide +kernel
  fresh := by decide +kernel

theorem received_files : received.2.2 =
    ⟨[([], .directory), (["work"], .directory), (["uploads"], .directory),
      (["uploads", uploadId], .file 0)], [.raw [1, 2, 3]]⟩ := by decide +kernel

/-- There is nothing in the directory where the upload is wanted. -/
theorem received_bare {q : Path} (hq : Inside ["work"] q) : received.2.2.node? q = none := by
  by_contra hsome
  obtain ⟨n, hn⟩ := Option.ne_none_iff_exists'.mp hsome
  have hmem := mem_of_node? hn
  simp only [received_files, List.mem_cons, List.not_mem_nil, or_false, Prod.mk.injEq] at hmem
  rcases hmem with ⟨rfl, -⟩ | ⟨rfl, -⟩ | ⟨rfl, -⟩ | ⟨rfl, -⟩
  · exact absurd hq.1 (by decide)
  · exact hq.2 rfl
  · exact absurd hq.1 (by decide)
  · exact absurd hq.1 (by decide)

theorem wanted_asks :
    Downloads.Asks [wanted] Downloads.Sample.courier received.2.2 0 wanted uploadId where
  apart := by
    have hfiles : received.2.2.HoldsFiles ["work"] ["work"] := by
      refine ⟨⟨by decide, by decide +kernel⟩, fun q hq => ?_, fun name => ?_⟩
      · rw [received_bare hq]
        exact (Option.some_ne_none _).symm
      · refine ⟨fun q k hq => ?_, fun q k hk => ?_⟩
        · simp only [received_files] at hq ⊢
          simp at hq
          simp [hq.2]
        · rw [received_bare (inside_concat ["work"] name)] at hk
          cases hk
    refine ⟨["work"], ["work"], ["a.mp4"], ⟨rfl, by decide, by decide, by decide⟩, hfiles, ?_,
      "a.mp4", rfl, by decide, by decide, by decide⟩
    intro item hitem _ path q hpath hlocate
    obtain rfl := List.mem_singleton.mp hitem
    have hin : Downloads.Sample.courier.uploadPath uploadId = .ok ["uploads", uploadId] := by
      decide +kernel
    obtain rfl : ["uploads", uploadId] = path := Except.ok.inj (hin.symm.trans hpath)
    have hat : received.2.2.locate ["uploads", uploadId] = .ok ["uploads", uploadId] := by
      decide +kernel
    obtain rfl : ["uploads", uploadId] = q := Except.ok.inj (hat.symm.trans hlocate)
    exact fun hinside => absurd hinside.1 (by decide)
  listed := rfl
  upload := rfl
  id := rfl

end Sample

/-- A file is uploaded in two pieces and fetched, and an empty one is refused. -/
theorem uploads_settle_sample :
    Sample.received.1 = .ok (Sample.uploadId, 3) ∧
      Sample.received.2.2.shown? ["uploads", Sample.uploadId] = some (.raw [1, 2, 3]) ∧
      Downloads.Copies [Sample.wanted] Downloads.Sample.courier Sample.received.2.2 0 Sample.wanted
        (.raw [1, 2, 3]) ∧
      ∀ q, (Sample.area.receive Sample.workRoot "Clip.MP4" [[], []]).2.2.shown? q =
        Sample.workRoot.shown? q := by
  have hgiven : Sample.received.1 = .ok (Sample.uploadId, 3) := by decide +kernel
  obtain ⟨place, hstands, -, htaken, -⟩ := uploads_settle Sample.area_ready [[1, 2], [3]]
  obtain ⟨-, -, -, hfiles, hread, hlater⟩ := htaken _ _ hgiven
  obtain rfl : ["uploads"] = place := by
    have hleads : (Sample.workRoot.put ["uploads"] .directory).descend [] ["uploads"] =
        .ok ["uploads"] := by decide
    exact Except.ok.inj (hleads.symm.trans hstands.leads)
  have hempty : (Sample.area.receive Sample.workRoot "Clip.MP4" [[], []]).1 = .error .empty := by
    decide +kernel
  obtain ⟨-, -, -, -, hrefused, -⟩ := uploads_settle Sample.area_ready [[], []]
  exact ⟨hgiven, (hfiles _).trans (if_pos rfl),
    hlater _ hread _ _ _ _ rfl Sample.wanted_asks, (hrefused _ hempty).2⟩

end Montage
