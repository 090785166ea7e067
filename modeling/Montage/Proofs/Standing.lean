import Montage.Proofs.FilePlaces
import Mathlib.Data.List.Find

/-! # Where a directory stands

A path may lead down and up again before it comes to a directory, so it need not be the place of that
directory.  `FileTree.Stands` says where the directory stands.  From there on nothing has to be walked
any more: each name in the directory leads to its own place, or can stand nowhere
(`Stands.locate_entry`).

What happens strictly inside of a directory (`Inside`) can disturb the way to it only if the way leads
through the inside.  `FileTree.outside` is the tree without the inside, so a way that is there does not
(`Stands.of_outside`), and it is not disturbed.
-/
namespace Montage

/-- Strictly below a place. -/
def Path.Inside (place q : Path) : Prop := place <+: q ∧ q ≠ place

namespace Path
variable {place q r : Path} {name other : String}

theorem inside_concat (place : Path) (name : String) : Inside place (place ++ [name]) :=
  ⟨List.prefix_append _ _, by simp⟩

theorem Inside.extend (h : Inside place q) (below : q <+: r) : Inside place r := by
  refine ⟨h.1.trans below, ?_⟩
  rintro rfl
  exact h.2 (below.eq_of_length (Nat.le_antisymm below.length_le h.1.length_le))

theorem not_prefix_of_inside (h : Inside place r) (outside : ¬ Inside place q) : ¬ r <+: q :=
  fun below => outside (h.extend below)

/-- Names of one directory do not stand below one another. -/
theorem prefix_entry_iff : place ++ [name] <+: place ++ [other] ↔ name = other := by
  simp [List.prefix_append_right_inj, List.cons_prefix_cons]

/-- A path that goes on below two names of one directory goes on below one name. -/
theorem entry_unique (h : place ++ [name] <+: q) (h' : place ++ [other] <+: q) : name = other := by
  obtain ⟨rest, rfl⟩ := h
  rw [List.append_assoc, List.prefix_append_right_inj, List.singleton_append,
    List.cons_prefix_cons] at h'
  exact h'.1.symm

/-- A name that can stand in a directory. -/
structure CanStand (name : String) : Prop where
  unended : Path.holdsEnd [name] = false
  other : name ≠ ".."
  short : name.utf8ByteSize ≤ longestName

end Path

namespace FileTree

open Path

variable {t u v : FileTree} {directory place p q : Path} {name : String}

/-! ### Walking again -/

/-- Where all directories are still there each walk ends where it ended. -/
theorem descend_mono (keeps : ∀ q, t.node? q = some .directory → u.node? q = some .directory)
    {names : List String} {from' : Path} (h : t.descend from' names = .ok p) :
    u.descend from' names = .ok p := by
  induction names generalizing from' with
  | nil => exact h
  | cons name rest ih =>
    rw [descend] at h ⊢
    by_cases hup : name = ".."
    · rw [if_pos hup] at h ⊢
      exact ih h
    · rw [if_neg hup] at h ⊢
      split at h
      · cases h
      · rename_i hshort
        rw [if_neg hshort]
        split at h
        · cases h
        · cases h
        · rename_i hdirectory
          rw [keeps _ hdirectory]
          exact ih h

theorem locate_mono (keeps : ∀ q, t.node? q = some .directory → u.node? q = some .directory)
    (h : t.locate p = .ok place) : u.locate p = .ok place := by
  rw [locate] at h ⊢
  split at h
  · cases h
  · rename_i hended
    rw [if_neg hended]
    split at h
    · cases h
    · rename_i around haround
      rw [descend_mono keeps haround]
      exact h

/-! ### Standing -/

/-- A path leads to a directory at a place. -/
structure Stands (t : FileTree) (directory place : Path) : Prop where
  unended : directory.holdsEnd = false
  leads : t.descend [] directory = .ok place

theorem Stands.mono (h : t.Stands directory place)
    (keeps : ∀ q, t.node? q = some .directory → u.node? q = some .directory) :
    u.Stands directory place :=
  ⟨h.unended, descend_mono keeps h.leads⟩

/-- A path without `..` leads to a directory as soon as it leads on to something in it. -/
theorem Stands.of_reaches (plain : ".." ∉ directory) (h : t.Reaches (directory ++ [name])) :
    t.Stands directory directory where
  unended := by
    have := h.unended
    rw [Path.holdsEnd, List.any_append, Bool.or_eq_false_iff] at this
    exact this.1
  leads := by
    refine (descend_eq_ok_iff plain).mpr ⟨rfl, fun n hn => h.short n (List.mem_append_left _ hn),
      fun q hq hgiven => h.way q (hq.trans (List.prefix_append _ _)) hgiven fun heq => ?_⟩
    exact absurd hq.length_le (by simp [heq])

/-- **In a directory each name leads to its own place, or can stand nowhere.** -/
theorem Stands.locate_entry (h : t.Stands directory place) (name : String) :
    t.locate (directory ++ [name]) =
      if Path.holdsEnd [name] then .error .endedName
      else if name = ".." then .ok place.dropLast
      else if longestName < name.utf8ByteSize then .error .longName
      else .ok (place ++ [name]) := by
  have hended : Path.holdsEnd (directory ++ [name]) = Path.holdsEnd [name] := by
    have := h.unended
    rw [Path.holdsEnd] at this ⊢
    rw [List.any_append, this, Bool.false_or, Path.holdsEnd]
  rw [locate, hended, Path.parent_concat, Path.name_concat, h.leads]

theorem Stands.locate_of_canStand (h : t.Stands directory place) (stand : CanStand name) :
    t.locate (directory ++ [name]) = .ok (place ++ [name]) := by
  rw [h.locate_entry, stand.unended]
  simp [stand.other, stand.short]

theorem Stands.locate_eq_ok (h : t.Stands directory place) (other : name ≠ "..")
    (located : t.locate (directory ++ [name]) = .ok p) : p = place ++ [name] ∧ CanStand name := by
  rw [h.locate_entry] at located
  split at located
  · cases located
  · rename_i hended
    split at located
    · cases located
    · rename_i hshort
      cases located
      exact ⟨rfl, by simpa using hended, other, by omega⟩

theorem descend_append {from' : Path} {names : List String} (h : t.descend from' names = .ok place)
    (more : List String) : t.descend from' (names ++ more) = t.descend place more := by
  induction names generalizing from' with
  | nil =>
    cases h
    rfl
  | cons first rest ih =>
    rw [descend] at h
    rw [List.cons_append, descend]
    split at h
    · rename_i hup
      rw [if_pos hup]
      exact ih h
    · rename_i hup
      rw [if_neg hup]
      split at h
      · cases h
      · rename_i hshort
        rw [if_neg hshort]
        split at h
        · cases h
        · cases h
        · rename_i hdirectory
          exact ih h

theorem descend_concat {from' : Path} {names : List String} (h : t.descend from' names = .ok place)
    (stand : CanStand name) (node : t.node? (place ++ [name]) = some .directory) :
    t.descend from' (names ++ [name]) = .ok (place ++ [name]) := by
  rw [descend_append h]
  simp [descend, stand.other, stand.short, node]

/-- A directory that stands in a directory. -/
theorem Stands.entry (h : t.Stands directory place) (stand : CanStand name)
    (node : t.node? (place ++ [name]) = some .directory) :
    t.Stands (directory ++ [name]) (place ++ [name]) where
  unended := by
    have hname := stand.unended
    have haround := h.unended
    rw [holdsEnd] at hname haround ⊢
    rw [List.any_append, haround, hname, Bool.or_false]
  leads := descend_concat h.leads stand node

/-! ### The tree without the inside of a directory -/

/-- The tree without what stands strictly below a place. -/
def outside (t : FileTree) (place : Path) : FileTree :=
  { t with entries := t.entries.filter fun e => !(place.isPrefixOf e.1 && e.1 != place) }

theorem node?_outside_of_inside (h : Inside place q) : (t.outside place).node? q = none := by
  rw [node?, Option.map_eq_none_iff, List.find?_eq_none]
  intro e he heq
  obtain ⟨-, hout⟩ := List.mem_filter.mp he
  obtain rfl : e.1 = q := by simpa using heq
  simp [List.isPrefixOf_iff_prefix.mpr h.1, h.2] at hout

theorem node?_outside (h : ¬ Inside place q) : (t.outside place).node? q = t.node? q := by
  simp only [node?, outside, List.find?_filter]
  congr 2
  funext e
  by_cases he : e.1 = q
  · have hout : (place.isPrefixOf q && q != place) = false := by
      rw [← Bool.not_eq_true, Bool.and_eq_true, List.isPrefixOf_iff_prefix]
      simpa [Inside] using h
    simp [he, hout]
  · simp [he]

/-- A way outside is a way. -/
theorem Stands.of_outside (h : (t.outside place).Stands directory p) : t.Stands directory p := by
  refine h.mono fun q hq => ?_
  by_cases hin : Inside place q
  · rw [node?_outside_of_inside hin] at hq
    cases hq
  · rwa [node?_outside hin] at hq

/-- If no directories are inside each way is outside. -/
theorem Stands.to_outside (h : t.Stands directory p)
    (clean : ∀ q, Inside place q → t.node? q ≠ some .directory) :
    (t.outside place).Stands directory p := by
  refine h.mono fun q hq => ?_
  rwa [node?_outside fun hin => clean q hin hq]

/-- What happens inside does not disturb a way outside. -/
theorem Stands.outside_mono (h : (t.outside place).Stands directory p)
    (keeps : ∀ q, ¬ Inside place q → t.node? q = some .directory → u.node? q = some .directory) :
    (u.outside place).Stands directory p := by
  refine h.mono fun q hq => ?_
  by_cases hin : Inside place q
  · rw [node?_outside_of_inside hin] at hq
    cases hq
  · rw [node?_outside hin] at hq ⊢
    exact keeps q hin hq

/-- A path without `..` does not lead through the inside of the directory to which it leads. -/
theorem Stands.outside_self (plain : ".." ∉ directory) (h : t.Stands directory directory) :
    (t.outside directory).Stands directory directory := by
  obtain ⟨-, hshort, hway⟩ := (descend_eq_ok_iff plain).mp h.leads
  refine ⟨h.unended, (descend_eq_ok_iff plain).mpr ⟨rfl, hshort, fun q hq hgiven => ?_⟩⟩
  rw [List.nil_append, node?_outside fun hin => hin.2 (hq.eq_of_length
    (Nat.le_antisymm hq.length_le hin.1.length_le))]
  exact hway q hq hgiven

/-- A path has a place, as far as its way has been made: the way to it does not lead through the inside
of the directory, or it is a path that will be its own place. -/
def HasPlace (t : FileTree) (directory place : Path) : Prop :=
  (t.outside place).Stands directory place ∨ ".." ∉ directory ∧ place = directory

/-- Whoever comes to a name in a directory has passed the directory. -/
theorem HasPlace.stands (h : t.HasPlace directory place) (other : name ≠ "..")
    (located : t.locate (directory ++ [name]) = .ok p) :
    (t.outside place).Stands directory place ∧ p = place ++ [name] ∧ CanStand name := by
  rcases h with h | ⟨plain, rfl⟩
  · exact ⟨h, h.of_outside.locate_eq_ok other located⟩
  · have hplain : ".." ∉ place ++ [name] := by simpa [plain] using other.symm
    obtain ⟨rfl, hreaches⟩ := (locate_eq_ok_iff hplain (by simp)).mp located
    have hstands := Stands.of_reaches plain hreaches
    exact ⟨hstands.outside_self plain, hstands.locate_eq_ok other located⟩

theorem HasPlace.mono (h : t.HasPlace directory place)
    (keeps : ∀ q, ¬ Inside place q → t.node? q = some .directory → u.node? q = some .directory) :
    u.HasPlace directory place :=
  h.imp_left fun h => h.outside_mono keeps

/-! ### Making a directory -/

theorem make_eq_ok' (h : t.make q = .ok u) :
    ∃ p, t.locate q = .ok p ∧ t.node? p = none ∧ u = t.put p .directory := by
  rw [make] at h
  split at h
  · cases h
  · rename_i p hp
    split at h
    · cases h
    · rename_i hfree
      cases h
      refine ⟨p, hp, ?_, rfl⟩
      simpa using (not_or.mp hfree).2

theorem settleMade_false {made : Except FileCause FileTree}
    (h : t.settleMade false q made = .ok u) : made = .ok u := by
  rcases settleMade_eq_ok h with h | ⟨-, h, -⟩
  · exact h
  · cases h

/-- A directory is made in one that stands, or those around it are made first. -/
theorem makeDirectory_cases (h : t.makeDirectory (directory ++ [name]) = .ok u) :
    t.make (directory ++ [name]) = .ok u ∨
      t.locate (directory ++ [name]) = .error .missing ∧
        ∃ v, t.makeFrom true directory.reverse = .ok v ∧ v.make (directory ++ [name]) = .ok u := by
  have hreverse : (name :: directory.reverse).reverse = directory ++ [name] := by simp
  rw [makeDirectory, List.reverse_append, List.reverse_singleton, List.singleton_append, makeFrom,
    hreverse] at h
  split at h
  · rename_i hmissing
    split at h
    · cases h
    · rename_i v hv
      refine Or.inr ⟨?_, v, hv, settleMade_false h⟩
      rw [make] at hmissing
      split at hmissing
      · rename_i c hc
        cases hmissing
        exact hc
      · split at hmissing <;> cases hmissing
  · exact Or.inl (settleMade_false h)

/-- **A new directory in a directory.**  It stands at its place, and nothing else has changed inside. -/
theorem HasPlace.makeDirectory (h : t.HasPlace directory place) (other : name ≠ "..")
    (made : t.makeDirectory (directory ++ [name]) = .ok u) :
    (u.outside place).Stands directory place ∧ CanStand name ∧
      t.node? (place ++ [name]) = none ∧ u.node? (place ++ [name]) = some .directory ∧
      (∀ q, Inside place q → q ≠ place ++ [name] → u.node? q = t.node? q) ∧
      ∀ q, ¬ Inside place q → t.node? q = some .directory → u.node? q = some .directory := by
  -- in a tree in which the directory stands one name is added
  have hadded {v : FileTree} (hv : v.HasPlace directory place)
      (hmake : v.make (directory ++ [name]) = .ok u) :
      (v.outside place).Stands directory place ∧ CanStand name ∧
        v.node? (place ++ [name]) = none ∧ u = v.put (place ++ [name]) .directory := by
    obtain ⟨p, hp, hnone, hu⟩ := make_eq_ok' hmake
    obtain ⟨hstands, rfl, hname⟩ := hv.stands other hp
    exact ⟨hstands, hname, hnone, hu⟩
  have hput (v : FileTree) (q : Path) (hq : q ≠ place ++ [name]) :
      (v.put (place ++ [name]) .directory).node? q = v.node? q := by rw [node?_put, if_neg hq]
  have hnew (v : FileTree) :
      (v.put (place ++ [name]) .directory).node? (place ++ [name]) = some .directory := by
    rw [node?_put, if_pos rfl]
  have hne {q : Path} (hq : ¬ Inside place q) : q ≠ place ++ [name] := fun heq =>
    hq (heq ▸ inside_concat place name)
  rcases makeDirectory_cases made with hmake | ⟨hmissing, v, hv, hmake⟩
  · obtain ⟨hstands, hname, hnone, rfl⟩ := hadded h hmake
    refine ⟨hstands.outside_mono fun q hq hd => ?_, hname, hnone, hnew t, fun q _ => hput t q,
      fun q hq hd => ?_⟩
    · rwa [hput t q (hne hq)]
    · rwa [hput t q (hne hq)]
  · rcases h with h | ⟨plain, rfl⟩
    · -- where the directory stands no name is missed for want of a way
      rw [h.of_outside.locate_entry] at hmissing
      split at hmissing
      · cases hmissing
      · split at hmissing <;> cases hmissing
    · obtain ⟨hstands, hname, hnone, rfl⟩ := hadded (Or.inr ⟨plain, rfl⟩) hmake
      have hplain : ".." ∉ place.reverse := by simpa using plain
      have hspares (q : Path) (hq : ¬ q <+: place) : Spares q t v :=
        (Spares.makeFrom hplain (by simpa using hq) hv).1
      have hinside {q : Path} (hq : Inside place q) : ¬ q <+: place := fun hpre =>
        hq.2 (hpre.eq_of_length (Nat.le_antisymm hpre.length_le hq.1.length_le))
      have hkeeps (q : Path) (hd : t.node? q = some .directory) :
          v.node? q = some .directory := by
        by_cases hq : q <+: place
        · exact (hspares _ (hinside (inside_concat place name))).way q
            (hq.trans (List.prefix_append _ _)) hd
        · exact (hspares q hq).node.trans hd
      refine ⟨hstands.outside_mono fun q hq hd => ?_, hname,
        ((hspares _ (hinside (inside_concat place name))).node.symm.trans hnone), hnew v,
        fun q hq hother => ?_, fun q hq hd => ?_⟩
      · rwa [hput v q (hne hq)]
      · rw [hput v q hother, (hspares q (hinside hq)).node]
      · rw [hput v q (hne hq)]
        exact hkeeps q hd

/-- Making directories adds directories where nothing stands. -/
theorem makeFrom_preserves {P : FileTree → Prop}
    (put : ∀ v r, v.node? r = none → P v → P (v.put r .directory)) {mayExist : Bool}
    {names : List String} (h : t.makeFrom mayExist names = .ok u) (ht : P t) : P u := by
  have hmake {v w : FileTree} {b : Bool} {p : Path} (h : v.settleMade b p (v.make p) = .ok w)
      (hv : P v) : P w := by
    rcases settleMade_eq_ok h with hmade | ⟨rfl, -⟩
    · obtain ⟨r, -, hfree, rfl⟩ := make_eq_ok' hmade
      exact put v r hfree hv
    · exact hv
  induction names generalizing mayExist u with
  | nil => cases h
  | cons name around ih =>
    rw [makeFrom] at h
    split at h
    · split at h
      · cases h
      · rename_i v haround
        exact hmake h (ih haround)
    · exact hmake h ht

/-! ### Nothing is written -/

/-- Nothing is written: names may go and come, and lead to files that were there. -/
structure Shuffles (t u : FileTree) : Prop where
  contents : u.contents = t.contents
  entries : ∀ q k, (q, FileNode.file k) ∈ u.entries → ∃ r, (r, FileNode.file k) ∈ t.entries

theorem Shuffles.refl (t : FileTree) : Shuffles t t := ⟨rfl, fun q _ h => ⟨q, h⟩⟩

theorem Shuffles.trans (h : Shuffles t u) (h' : Shuffles u v) : Shuffles t v where
  contents := h'.contents.trans h.contents
  entries := fun q k hq => by
    obtain ⟨r, hr⟩ := h'.entries q k hq
    exact h.entries r k hr

theorem Shuffles.rename {source target : Path} (h : t.rename source target = .ok u) :
    Shuffles t u := by
  refine ⟨contents_rename h, fun q k hq => ?_⟩
  simp only [FileTree.rename] at h
  repeat' split at h
  all_goals first | cases h; done | cases h
  · exact ⟨q, hq⟩
  · obtain ⟨e, he, heq⟩ := List.mem_map.mp hq
    refine ⟨e.1, ?_⟩
    have hnode : e.2 = .file k := by
      rcases relocate_eq _ _ e with ⟨-, h⟩ | ⟨rest, -, h⟩ <;> rw [h] at heq
      · rw [heq]
      · exact (Prod.mk.inj heq).2
    exact hnode ▸ (List.mem_filter.mp he).1

theorem Shuffles.remove (t : FileTree) (place : Path) : Shuffles t (t.remove place) := by
  refine ⟨contents_remove t place, fun q k hq => ⟨q, ?_⟩⟩
  unfold FileTree.remove at hq
  repeat' split at hq
  · exact hq
  · exact (List.mem_filter.mp hq).1
  · exact hq

/-- Making directories writes nothing. -/
theorem Shuffles.makeFrom {mayExist : Bool} {names : List String}
    (h : t.makeFrom mayExist names = .ok u) : Shuffles t u := by
  refine makeFrom_preserves (fun v r _ hv => hv.trans ⟨rfl, fun q k hq => ⟨q, ?_⟩⟩) h (.refl t)
  rcases List.mem_append.mp hq with hq | hq
  · exact (List.mem_filter.mp hq).1
  · cases List.mem_singleton.mp hq

theorem contents_makeFrom {mayExist : Bool} {names : List String}
    (h : t.makeFrom mayExist names = .ok u) : u.contents = t.contents :=
  (Shuffles.makeFrom h).contents

/-! ### Writing a file -/

/-- Each file has contents. -/
def Filled (t : FileTree) : Prop :=
  ∀ q k, (q, FileNode.file k) ∈ t.entries → k < t.contents.length

theorem Filled.shuffles (filled : t.Filled) (h : Shuffles t u) : u.Filled := by
  intro q k hq
  obtain ⟨r, hr⟩ := h.entries q k hq
  rw [h.contents]
  exact filled r k hr

theorem Filled.makeFrom {mayExist : Bool} {names : List String} (filled : t.Filled)
    (h : t.makeFrom mayExist names = .ok u) : u.Filled := filled.shuffles (.makeFrom h)

/-- What opening a file for writing does, wherever the path leads. -/
theorem openNew_eq_ok {k : Handle} (h : t.openNew p = .ok (k, u)) :
    ∃ q, t.locate p = .ok q ∧
      (t.node? q = some (.file k) ∧ u = { t with contents := t.contents.set k (.raw []) } ∨
        t.node? q = none ∧ k = t.contents.length ∧
          u = { (t.put q (.file k)) with contents := t.contents ++ [.raw []] }) := by
  rw [openNew] at h
  split at h
  · cases h
  · rename_i q hq
    refine ⟨q, hq, ?_⟩
    split at h
    · cases h
    · rename_i k' hfile
      cases h
      exact Or.inl ⟨hfile, rfl⟩
    · rename_i hnone
      cases h
      exact Or.inr ⟨hnone, rfl, rfl⟩

/-- What was written to a file is what stands there. -/
theorem read?_write {c : Content} (filled : t.Filled) (h : t.write p c = .ok u) : u.read? p = some c := by
  rw [write] at h
  split at h
  · cases h
  · rename_i k v hopen
    cases h
    obtain ⟨q, hq, hcases⟩ := openNew_eq_ok hopen
    have hopened : v.node? q = some (.file k) ∧ k < v.contents.length ∧
        ∀ r, t.node? r = some .directory → v.node? r = some .directory := by
      rcases hcases with ⟨hfile, rfl⟩ | ⟨hnone, rfl, rfl⟩
      · exact ⟨hfile, by simpa using filled q k (mem_of_node? hfile), fun _ hd => hd⟩
      · refine ⟨(node?_put t q _ q).trans (if_pos rfl), by simp, fun r hd => ?_⟩
        have hne : r ≠ q := by
          rintro rfl
          rw [hnone] at hd
          cases hd
        exact (node?_put t q _ r).trans ((if_neg hne).trans hd)
    obtain ⟨hnode, hlt, hkeeps⟩ := hopened
    have hlocated : (v.fill k c).locate p = .ok q := locate_mono hkeeps hq
    have hfilled : (v.fill k c).node? q = some (.file k) := hnode
    simp only [read?, handle?, nodeAt?, hlocated, hfilled]
    simp [content?, fill, hlt]

/-! ### Moving and removing names -/

/-- What a move that succeeds does, wherever the paths lead. -/
theorem rename_eq_ok {source target : Path} (h : t.rename source target = .ok u) :
    ∃ p q n, t.locate source = .ok p ∧ t.locate target = .ok q ∧ t.node? p = some n ∧
      (p = q ∧ u = t ∨ p ≠ q ∧ t.obstacle? n p q = none ∧ u = t.move p q) := by
  simp only [rename] at h
  split at h
  · cases h
  · rename_i hsource
    split at h
    · cases h
    · split at h
      · cases h
      · cases h
      · rename_i n q hnode htarget
        refine ⟨_, q, n, hsource, htarget, hnode, ?_⟩
        split at h
        · rename_i heq
          cases h
          exact Or.inl ⟨heq, rfl⟩
        · rename_i hne
          split at h
          · cases h
          · rename_i hfree
            cases h
            exact Or.inr ⟨hne, hfree, rfl⟩

/-- Nothing is left where something was moved away. -/
theorem node?_move_source {source target : Path} (hsource : source <+: q)
    (htarget : ¬ target <+: q) : (t.move source target).node? q = none := by
  rw [node?, Option.map_eq_none_iff, List.find?_eq_none]
  intro e he heq
  obtain ⟨e', -, rfl⟩ := List.mem_map.mp he
  have heq : (relocate source target e').1 = q := by simpa using heq
  rcases relocate_eq source target e' with ⟨houtside, h⟩ | ⟨rest, -, h⟩ <;> rw [h] at heq
  · exact houtside (heq ▸ hsource)
  · exact htarget (heq ▸ List.prefix_append target rest)

/-- What was moved stands where it was moved to, as it stood before. -/
theorem node?_move_below {source target rest : Path} (apart : ¬ source <+: target)
    (free : t.hasEntries target = false) :
    (t.move source target).node? (target ++ rest) = t.node? (source ++ rest) := by
  have hfree (e : Path × FileNode) (he : e ∈ t.entries) (hbelow : target <+: e.1) :
      e.1 = target := by
    have := List.any_eq_false.mp free e he
    simpa [List.isPrefixOf_iff_prefix.mpr hbelow] using this
  -- where the rest is, nothing was before
  have hsame : ∀ e ∈ t.entries, decide ((e.1 != target) = true ∧
      ((fun e => e.1 == target ++ rest) ∘ relocate source target) e = true) =
        (e.1 == source ++ rest) := by
    intro e he
    rcases relocate_eq source target e with ⟨hout, h⟩ | ⟨more, hmore, h⟩
    · have hne : e.1 ≠ source ++ rest := fun heq => hout (heq ▸ List.prefix_append _ _)
      have hno : e.1 ≠ target → e.1 ≠ target ++ rest := fun hother heq =>
        hother (hfree e he (heq ▸ List.prefix_append _ _))
      rw [beq_eq_false_iff_ne.mpr hne, decide_eq_false_iff_not]
      simpa [h] using hno
    · have hne : source ++ more ≠ target := fun heq => apart ⟨more, heq⟩
      simp [h, hmore, hne, beq_eq_decide]
  have hsecond : Prod.snd ∘ relocate source target = Prod.snd := by
    funext e
    rcases relocate_eq source target e with ⟨-, h⟩ | ⟨more, -, h⟩ <;>
      simp [h]
  simp only [node?, move, drop, List.find?_map, List.find?_filter, Option.map_map, hsecond]
  rw [List.find?_congr hsame]

theorem hasEntries_of_obstacle? {source target : Path}
    (h : t.obstacle? .directory source target = none) : t.hasEntries target = false := by
  by_contra hentries
  rw [Bool.not_eq_false] at hentries
  simp only [obstacle?, hentries, if_true] at h
  split at h
  · cases h
  · cases h
  · split at h <;> cases h
  · cases ‹FileNode.directory = .file _›

/-- A directory is removed with all that is below it. -/
theorem node?_remove (located : t.locate p = .ok place) (h : t.node? place = some .directory)
    (q : Path) : (t.remove p).node? q = if place <+: q then none else t.node? q := by
  rw [remove, located]
  simp only [h, if_true]
  exact node?_filter_below t place q

end FileTree
end Montage
