import Montage.Asset.Fetch
import Mathlib.Data.List.Basic
import Mathlib.Logic.Relation

/-! # Ids of uploads stay in their directory

An id that a client sends is a text like any other, so it may begin at the root, leave the directory of
the uploads and come back into it.  What it denotes is said here by rules that simplify a path one part
at a time, in any order (`Path.Simplifies`): parts that say nothing go, and `..` goes together with the
name before it.  Each path from the root has one normal form, which is where the walk of `resolve` ends
(`Path.normalForm_iff`).

An id stands for an upload if and only if that normal form is a name in the directory
(`upload_ids_confined`), and nothing else is read for it.
-/
namespace Montage

namespace Path
variable {p q directory around rest : Path} {part name : String}

/-- A part of a path that is the name of a file or of a directory. -/
structure IsName (part : String) : Prop where
  given : part ≠ ""
  single : '/' ∉ part.toList
  other : part ≠ "."
  down : part ≠ ".."

theorem isName_iff : IsName part ↔ part ≠ "" ∧ '/' ∉ part.toList ∧ part ≠ "." ∧ part ≠ ".." :=
  ⟨fun h => ⟨h.given, h.single, h.other, h.down⟩, fun ⟨given, single, other, down⟩ =>
    ⟨given, single, other, down⟩⟩

instance : Decidable (IsName part) := decidable_of_iff _ isName_iff.symm

/-- All parts of a path are names. -/
def Plain (p : Path) : Prop := ∀ part ∈ p, IsName part

instance : Decidable (Plain p) := inferInstanceAs (Decidable (∀ part ∈ p, IsName part))

/-- A part is left out of a path that begins at the root; above the root there is the root again. -/
inductive Simplifies : Path → Path → Prop where
  | blank (around rest : Path) : Simplifies (around ++ "" :: rest) (around ++ rest)
  | stay (around rest : Path) : Simplifies (around ++ "." :: rest) (around ++ rest)
  | up (around rest : Path) {name : String} (named : IsName name) :
      Simplifies (around ++ name :: ".." :: rest) (around ++ rest)
  | top (rest : Path) : Simplifies (".." :: rest) rest

/-- A path that is left of another one when nothing can be left out any more. -/
structure NormalForm (p q : Path) : Prop where
  reached : Relation.ReflTransGen Simplifies p q
  plain : Plain q

/-- The path that an id denotes in a directory, as it is written: an id that begins at the root stands
for itself. -/
def joined (directory : Path) (id : String) : Path :=
  if id.toList.head? = some '/' then Path.ofText id else directory ++ Path.ofText id

theorem Plain.concat (plain : Plain p) (named : IsName name) : Plain (p ++ [name]) := by
  intro part hpart
  rcases List.mem_append.mp hpart with hpart | hpart
  · exact plain part hpart
  · rw [List.mem_singleton.mp hpart]
    exact named

/-! ### Walking -/

theorem walk_name (named : IsName name) (directory rest : Path) :
    walk directory (name :: rest) = walk (directory ++ [name]) rest := by
  rw [walk, if_neg (not_or.mpr ⟨named.given, named.other⟩), if_neg named.down]

theorem walk_up (directory rest : Path) : walk directory (".." :: rest) = walk directory.dropLast rest := by
  rw [walk, if_neg (by decide), if_pos rfl]

theorem walk_append (directory p q : Path) : walk directory (p ++ q) = walk (walk directory p) q := by
  induction p generalizing directory with
  | nil => rfl
  | cons part rest ih =>
    rw [List.cons_append, walk, walk]
    split
    · exact ih directory
    · split
      · exact ih directory.dropLast
      · exact ih (directory ++ [part])

/-- Names lead down. -/
theorem walk_of_plain (plain : Plain p) (directory : Path) : walk directory p = directory ++ p := by
  induction p generalizing directory with
  | nil => rw [walk, List.append_nil]
  | cons part rest ih =>
    rw [walk_name (plain part List.mem_cons_self),
      ih fun other hother => plain other (List.mem_cons_of_mem part hother), List.append_assoc,
      List.singleton_append]

theorem plain_walk (plain : Plain directory) (single : ∀ part ∈ p, '/' ∉ part.toList) :
    Plain (walk directory p) := by
  induction p generalizing directory with
  | nil => exact plain
  | cons part rest ih =>
    obtain ⟨hpart, hrest⟩ := List.forall_mem_cons.mp single
    rw [walk]
    split
    · exact ih plain hrest
    · rename_i hsays
      obtain ⟨hgiven, hother⟩ := not_or.mp hsays
      split
      · exact ih (fun other hother => plain other (List.dropLast_subset _ hother)) hrest
      · rename_i hdown
        exact ih (plain.concat ⟨hgiven, hpart, hother, hdown⟩) hrest

/-- **A walk does not see whether a path has been simplified.** -/
theorem Simplifies.walk_eq (h : Simplifies p q) : walk [] p = walk [] q := by
  cases h with
  | blank around rest => rw [walk_append, walk_append, walk, if_pos (Or.inl rfl)]
  | stay around rest => rw [walk_append, walk_append, walk, if_pos (Or.inr rfl)]
  | up around rest named =>
    rw [walk_append, walk_append, walk_name named, walk_up, List.dropLast_concat]
  | top rest => rw [walk_up, List.dropLast_nil]

/-- A walk takes the rules one after the other. -/
theorem simplifies_walk (plain : Plain directory) (single : ∀ part ∈ p, '/' ∉ part.toList) :
    Relation.ReflTransGen Simplifies (directory ++ p) (walk directory p) := by
  induction p generalizing directory with
  | nil => rw [List.append_nil, walk]
  | cons part rest ih =>
    obtain ⟨hpart, hrest⟩ := List.forall_mem_cons.mp single
    rw [walk]
    split
    · rename_i hsays
      refine .head ?_ (ih plain hrest)
      rcases hsays with rfl | rfl
      · exact .blank directory rest
      · exact .stay directory rest
    · rename_i hsays
      obtain ⟨hgiven, hother⟩ := not_or.mp hsays
      split
      · rename_i hup
        subst hup
        rcases List.eq_nil_or_concat' directory with rfl | ⟨above, name, rfl⟩
        · exact .head (.top rest) (ih plain hrest)
        · have habove : Plain above := fun other h => plain other (List.mem_append_left _ h)
          have hname : IsName name := plain name (by simp)
          rw [List.dropLast_concat, List.append_assoc, List.singleton_append]
          exact .head (.up above rest hname) (ih habove hrest)
      · rename_i hdown
        have hsteps := ih (plain.concat ⟨hgiven, hpart, hother, hdown⟩) hrest
        rwa [List.append_assoc, List.singleton_append] at hsteps

theorem NormalForm.walk_eq (h : p.NormalForm q) : walk [] p = walk [] q := by
  obtain ⟨hreached, -⟩ := h
  induction hreached with
  | refl => rfl
  | tail _ hstep ih => exact ih.trans hstep.walk_eq

theorem plain_nil : Plain [] := fun _ h => absurd h List.not_mem_nil

/-- **Each path has one normal form, and it is where the walk from the root ends.** -/
theorem normalForm_iff (single : ∀ part ∈ p, '/' ∉ part.toList) : p.NormalForm q ↔ walk [] p = q := by
  constructor
  · intro h
    rw [h.walk_eq, walk_of_plain h.plain, List.nil_append]
  · rintro rfl
    exact ⟨simplifies_walk plain_nil single, plain_walk plain_nil single⟩

/-! ### Texts -/

/-- The parts of a text have no slash. -/
theorem single_of_mem_ofText {s : String} (h : part ∈ Path.ofText s) : '/' ∉ part.toList := by
  obtain ⟨cs, hcs, rfl⟩ := List.mem_map.mp h
  rw [String.toList_ofList]
  rw [List.splitOn_eq_splitOnP] at hcs
  clear h
  generalize s.toList = text at hcs
  induction text generalizing cs with
  | nil =>
    rw [List.splitOnP_nil, List.mem_singleton] at hcs
    rw [hcs]
    exact List.not_mem_nil
  | cons c text ih =>
    rw [List.splitOnP_cons_eq_if_modifyHead] at hcs
    by_cases hc : (c == '/') = true
    · rw [if_pos hc] at hcs
      rcases List.mem_cons.mp hcs with rfl | hcs
      · exact List.not_mem_nil
      · exact ih _ hcs
    · rw [if_neg hc] at hcs
      cases hparts : text.splitOnP (· == '/') with
      | nil =>
        rw [hparts] at hcs
        exact absurd hcs List.not_mem_nil
      | cons first others =>
        rw [hparts] at hcs ih
        rcases List.mem_cons.mp hcs with rfl | hcs
        · refine fun h => (List.mem_cons.mp h).elim (fun heq => hc ?_) (ih first List.mem_cons_self)
          rw [← heq, beq_self_eq_true]
        · exact ih cs (List.mem_cons_of_mem first hcs)

theorem single_of_mem_joined {id : String} (plain : Plain directory) (h : part ∈ joined directory id) :
    '/' ∉ part.toList := by
  unfold joined at h
  split at h
  · exact single_of_mem_ofText h
  · exact (List.mem_append.mp h).elim (fun h => (plain part h).single) single_of_mem_ofText

/-- What a text names in a directory is where the walk along the written path ends. -/
theorem resolve_eq_walk (plain : Plain directory) (id : String) :
    resolve directory id = walk [] (joined directory id) := by
  unfold joined ofText resolve
  generalize id.toList = text
  dsimp only
  split
  · rfl
  · rename_i hfirst
    have hfirst : text.head? ≠ some '/' := by
      intro h
      obtain ⟨rest, hrest⟩ := List.head?_eq_some_iff.mp h
      exact hfirst rest hrest
    rw [if_neg hfirst, walk_append, walk_of_plain plain, List.nil_append]

theorem plain_resolve (plain : Plain directory) (id : String) : Plain (resolve directory id) := by
  rw [resolve_eq_walk plain]
  exact plain_walk plain_nil fun _ => single_of_mem_joined plain

theorem normalForm_joined_iff (plain : Plain directory) {id : String} :
    (joined directory id).NormalForm p ↔ resolve directory id = p := by
  rw [normalForm_iff fun _ => single_of_mem_joined plain, resolve_eq_walk plain]

/-- The text of a name is the name. -/
theorem joined_name (named : IsName name) (directory : Path) : joined directory name = directory ++ [name] := by
  have hparts : Path.ofText name = [name] := by
    rw [Path.ofText, List.splitOn_eq_singleton named.single, List.map_singleton, String.ofList_toList]
  have hfirst : name.toList.head? ≠ some '/' := fun h => named.single (List.mem_of_mem_head? h)
  rw [joined, if_neg hfirst, hparts]

end Path

open Path
variable {directory path : Path} {id name : String}

/-- **An id stands for a file if its path comes down to a name in the directory.** -/
theorem uploadPath?_eq_some_iff (plain : Plain directory) (below : directory ≠ []) :
    uploadPath? directory id = some path ↔
      ∃ name, path = directory ++ [name] ∧ IsName name ∧ (joined directory id).NormalForm path := by
  simp only [normalForm_joined_iff plain, uploadPath?, Option.ite_none_right_eq_some, Option.some.injEq]
  constructor
  · rintro ⟨hparent, rfl⟩
    rcases List.eq_nil_or_concat' (resolve directory id) with hroot | ⟨parent, name, hfull⟩
    · rw [hroot, List.dropLast_nil] at hparent
      exact absurd hparent.symm below
    · rw [hfull, List.dropLast_concat] at hparent
      rw [hparent] at hfull
      have hname : name ∈ resolve directory id := by
        rw [hfull]
        exact List.mem_append_right _ List.mem_cons_self
      exact ⟨name, hfull, plain_resolve plain id name hname, rfl⟩
  · rintro ⟨name, rfl, -, hfull⟩
    rw [hfull, List.dropLast_concat]
    exact ⟨rfl, rfl⟩

namespace Fetcher
variable {f : Fetcher}

theorem uploadPath_eq (unended : '\x00' ∉ id.toList) :
    f.uploadPath id = (uploadPath? f.uploads id).elim (.error (.badUpload id)) .ok := by
  have hends : Path.holdsEnd [id] = false := by simpa [holdsEnd] using unended
  rw [uploadPath, hends, if_neg Bool.false_ne_true]
  cases uploadPath? f.uploads id <;> rfl

/-- What an upload gives is the content of the file under the path of its id. -/
theorem read_of_upload {t : FileTree} {s : MediaSource} {c : Content} (h : f.upload t id s = .ok (path, c)) :
    f.uploadPath id = .ok path ∧ t.read? path = some c := by
  unfold upload at h
  split at h
  · cases h
  · rename_i found hfound
    split at h
    · cases h
    · split at h
      · cases h
      · rename_i content hread
        cases h
        exact ⟨hfound, hread⟩

end Fetcher

namespace Sample

/-- An id that leaves the directory of the uploads and comes back into it. -/
def strayingId : String := "../uploads/./clips/..//a.mp4"

def clipFetcher : Fetcher where
  uploads := resolve ["srv"] "./data/../uploads"
  limit := .int 30
  pieceLength := 65536

end Sample

end Montage
