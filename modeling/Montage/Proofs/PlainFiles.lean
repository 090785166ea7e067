import Montage.Proofs.Standing

/-! # A directory of plain files

In a directory that holds plain files only (`HoldsFiles`) a name leads to a file that has no other name.
So what is done under one name is not seen under another, nor anywhere outside of the directory
(`WorksAt`): not in what stands there and not in what it holds.

Four things are done in such a directory: a file is opened for writing (`works_openNew`), it is
filled (`works_fill`), it is taken away (`works_drop`), or it is given another name (`works_move`).
-/
namespace Montage

namespace FileTree

open Path

variable {t u v : FileTree} {directory place p q : Path} {name : String}

/-- The same stands at a place, and it holds the same. -/
structure Keeps (q : Path) (t u : FileTree) : Prop where
  node : u.node? q = t.node? q
  content : ∀ k, t.node? q = some (.file k) → u.content? k = t.content? k

theorem Keeps.refl (q : Path) (t : FileTree) : t.Keeps q t := ⟨rfl, fun _ _ => rfl⟩

theorem Keeps.trans (h : Keeps q t u) (h' : Keeps q u v) : Keeps q t v where
  node := h'.node.trans h.node
  content := fun k hk => (h'.content k (h.node.trans hk)).trans (h.content k hk)

/-- What is spared is kept. -/
theorem Spares.keeps (h : Spares p t u) (sane : t.Sane p) : Keeps p t u := ⟨h.node, h.content sane⟩

/-- A path leads to a directory in which there are only files, each with one name. -/
structure HoldsFiles (directory place : Path) (t : FileTree) : Prop where
  stands : t.Stands directory place
  flat : ∀ q, Inside place q → t.node? q ≠ some .directory
  sane : ∀ name, t.Sane (place ++ [name])

/-- Nothing is changed but what stands under some names in a directory. -/
structure WorksAt (place : Path) (names : List String) (t u : FileTree) : Prop where
  outside : ∀ q, ¬ Inside place q → Keeps q t u
  others : ∀ name, name ∉ names → Keeps (place ++ [name]) t u

theorem WorksAt.refl (place : Path) (names : List String) (t : FileTree) : t.WorksAt place names t :=
  ⟨fun q _ => .refl q t, fun name _ => .refl (place ++ [name]) t⟩

theorem WorksAt.trans {names : List String} (h : WorksAt place names t u)
    (h' : WorksAt place names u v) : WorksAt place names t v where
  outside := fun q hq => (h.outside q hq).trans (h'.outside q hq)
  others := fun name hname => (h.others name hname).trans (h'.others name hname)

theorem WorksAt.mono {names more : List String} (h : WorksAt place names t u)
    (hmore : ∀ name ∈ names, name ∈ more) : WorksAt place more t u where
  outside := h.outside
  others := fun name hname => h.others name fun hmem => hname (hmore name hmem)

/-- The path to a directory does not notice what is done in it. -/
theorem HoldsFiles.stands_of_works {names : List String} (h : t.HoldsFiles directory place)
    (works : WorksAt place names t u) : u.Stands directory place :=
  ((h.stands.to_outside h.flat).outside_mono fun q hq hd =>
    (works.outside q hq).node.trans hd).of_outside

/-- A file in the directory is found under no other path. -/
theorem HoldsFiles.alone (h : t.HoldsFiles directory place) {k : Handle}
    (node : t.node? (place ++ [name]) = some (.file k)) (hq : t.node? q = some (.file k)) :
    q = place ++ [name] :=
  (h.sane name).alone q k node (mem_of_node? hq)

theorem HoldsFiles.lt_length (h : t.HoldsFiles directory place) {k : Handle}
    (hq : t.node? q = some (.file k)) : k < t.contents.length :=
  (h.sane "").known q k (mem_of_node? hq)

theorem ne_entry_of_outside (h : ¬ Inside place q) (name : String) : q ≠ place ++ [name] := fun heq =>
  h (heq ▸ inside_concat place name)

theorem entry_ne_entry {other : String} (h : other ≠ name) : place ++ [other] ≠ place ++ [name] :=
  fun heq => h (by simpa using heq)

/-! ### Taking a file away -/

theorem works_drop (t : FileTree) (place : Path) (name : String) :
    WorksAt place [name] t (t.drop (place ++ [name])) where
  outside := fun q hq =>
    ⟨by rw [node?_drop, if_neg (ne_entry_of_outside hq name)], fun _ _ => rfl⟩
  others := fun other hother =>
    ⟨by rw [node?_drop, if_neg (entry_ne_entry (by simpa using hother))], fun _ _ => rfl⟩

theorem HoldsFiles.drop (h : t.HoldsFiles directory place) (name : String) :
    (t.drop (place ++ [name])).HoldsFiles directory place where
  stands := h.stands_of_works (works_drop t place name)
  flat := fun q hq hd => by
    rw [node?_drop] at hd
    split at hd
    · cases hd
    · exact h.flat q hq hd
  sane := fun other =>
    { known := fun q k hq => (h.sane other).known q k (List.mem_filter.mp hq).1
      alone := fun q k hk hq => by
        rw [node?_drop] at hk
        split at hk
        · cases hk
        · exact (h.sane other).alone q k hk (List.mem_filter.mp hq).1 }

/-! ### Filling a file -/

theorem works_fill (h : t.HoldsFiles directory place) {k : Handle}
    (node : t.node? (place ++ [name]) = some (.file k)) (c : Content) :
    WorksAt place [name] t (t.fill k c) := by
  have hkeeps (q : Path) (hq : q ≠ place ++ [name]) : Keeps q t (t.fill k c) := by
    refine ⟨rfl, fun k' hk' => ?_⟩
    have hne : k ≠ k' := by
      rintro rfl
      exact hq (h.alone node hk')
    simp [content?, fill, List.getElem?_set_ne hne]
  exact ⟨fun q hq => hkeeps q (ne_entry_of_outside hq name), fun other hother =>
    hkeeps _ (entry_ne_entry (by simpa using hother))⟩

theorem HoldsFiles.fill (h : t.HoldsFiles directory place) (k : Handle) (c : Content) :
    (t.fill k c).HoldsFiles directory place where
  stands := h.stands.mono fun _ hd => hd
  flat := h.flat
  sane := fun other =>
    { known := fun q k' hq => by simpa [FileTree.fill] using (h.sane other).known q k' hq
      alone := (h.sane other).alone }

theorem content?_fill {k : Handle} (h : k < t.contents.length) (c : Content) :
    (t.fill k c).content? k = some c := by simp [content?, fill, h]

/-! ### Opening a file for writing -/

/-- A file is opened under a name. -/
structure Opened (place : Path) (name : String) (t : FileTree) (k : Handle) (u : FileTree) : Prop where
  stand : CanStand name
  node : u.node? (place ++ [name]) = some (.file k)
  empty : u.content? k = some (.raw [])

theorem works_openNew (h : t.HoldsFiles directory place) (other : name ≠ "..") {k : Handle}
    (opened : t.openNew (directory ++ [name]) = .ok (k, u)) :
    u.HoldsFiles directory place ∧ WorksAt place [name] t u ∧ Opened place name t k u := by
  obtain ⟨r, hr, hcases⟩ := openNew_eq_ok opened
  obtain ⟨rfl, hstand⟩ := h.stands.locate_eq_ok other hr
  rcases hcases with ⟨hfile, rfl⟩ | ⟨hnone, rfl, rfl⟩
  · -- a file that is there is opened as if it were filled with nothing
    exact ⟨h.fill k (.raw []), works_fill h hfile (.raw []), hstand, hfile,
      content?_fill (h.lt_length hfile) (.raw [])⟩
  · have hnode (q : Path) : ({ (t.put (place ++ [name]) (.file t.contents.length)) with
        contents := t.contents ++ [Content.raw []] } : FileTree).node? q =
          if q = place ++ [name] then some (.file t.contents.length) else t.node? q :=
      node?_put t _ _ q
    have hkeeps (q : Path) (hq : q ≠ place ++ [name]) : Keeps q t
        { (t.put (place ++ [name]) (.file t.contents.length)) with
          contents := t.contents ++ [Content.raw []] } := by
      refine ⟨(hnode q).trans (if_neg hq), fun k hk => ?_⟩
      have hlt := h.lt_length hk
      simp [content?, List.getElem?_append_left hlt]
    have hworks : WorksAt place [name] t
        { (t.put (place ++ [name]) (.file t.contents.length)) with
          contents := t.contents ++ [Content.raw []] } :=
      ⟨fun q hq => hkeeps q (ne_entry_of_outside hq name), fun n hn =>
        hkeeps _ (entry_ne_entry (by simpa using hn))⟩
    refine ⟨⟨h.stands_of_works hworks, fun q hq hd => ?_, fun n => ⟨fun q k hq => ?_,
      fun q k hk hq => ?_⟩⟩, hworks, hstand, (hnode _).trans (if_pos rfl), by simp [content?]⟩
    · rw [hnode] at hd
      split at hd
      · cases hd
      · exact h.flat q hq hd
    · rcases List.mem_append.mp hq with hq | hq
      · exact Nat.lt_of_lt_of_le ((h.sane n).known q k (List.mem_filter.mp hq).1) (by simp)
      · cases List.mem_singleton.mp hq
        simp
    · rw [hnode] at hk
      rcases List.mem_append.mp hq with hq | hq
      · have hmem := (List.mem_filter.mp hq).1
        split at hk
        · -- the new file has a new number
          cases hk
          exact absurd ((h.sane n).known q _ hmem) (Nat.lt_irrefl _)
        · exact (h.sane n).alone q k hk hmem
      · cases List.mem_singleton.mp hq
        split at hk
        · rename_i heq
          exact heq.symm
        · exact absurd (h.lt_length hk) (Nat.lt_irrefl _)

/-! ### Giving a file another name -/

/-- What stands somewhere after a move stood there, or it came from below the source. -/
theorem node?_move_cases {source target : Path} {n : FileNode}
    (h : (t.move source target).node? q = some n) :
    t.node? q = some n ∨ ∃ rest, q = target ++ rest ∧ t.node? (source ++ rest) = some n := by
  rw [node?, move, List.find?_map, Option.map_map, Option.map_eq_some_iff] at h
  obtain ⟨e, he, rfl⟩ := h
  obtain ⟨hkey, before, after, hentries, hfirst⟩ := List.find?_eq_some_iff_append.mp he
  have hkey : (relocate source target e).1 = q := by simpa using hkey
  -- what is found is the first with its path, for the path alone says where it goes
  have hfound : (t.drop target).node? e.1 = some e.2 := by
    have hpath : ∀ e' ∈ before, (relocate source target e').1 ≠ q := fun e' he' => by
      simpa using hfirst e' he'
    rw [node?, hentries, List.find?_append, List.find?_eq_none.mpr]
    · simp
    · intro e' he' heq
      have hsame : e'.1 = e.1 := by simpa using heq
      refine hpath e' he' (Eq.trans ?_ hkey)
      rcases relocate_eq source target e with ⟨hout, h⟩ | ⟨rest, hrest, h⟩
      · rw [h, relocate_of_outside (by rwa [hsame])]
        exact hsame
      · simp [relocate, hsame, hrest, Path.below?]
  rw [node?_drop] at hfound
  split at hfound
  · cases hfound
  · rcases relocate_eq source target e with ⟨-, h⟩ | ⟨rest, hrest, h⟩
    · left
      rw [h] at hkey
      simp only [Function.comp_apply, h, ← hkey, hfound]
    · right
      refine ⟨rest, by rw [← hkey, h], ?_⟩
      simp only [Function.comp_apply, h, ← hrest, hfound]

/-- Whatever has a name after a move had one before. -/
theorem mem_move {source target : Path} {n : FileNode}
    (h : (q, n) ∈ (t.move source target).entries) :
    ∃ r, (r, n) ∈ t.entries ∧ relocate source target (r, n) = (q, n) := by
  obtain ⟨e, he, heq⟩ := List.mem_map.mp h
  have hnode : e.2 = n := by
    rcases relocate_eq source target e with ⟨-, h⟩ | ⟨rest, -, h⟩
    · rw [h] at heq
      exact congrArg Prod.snd heq
    · rw [h] at heq
      exact (Prod.mk.inj heq).2
  subst hnode
  exact ⟨e.1, (List.mem_filter.mp he).1, heq⟩

/-- **A file takes another name in its directory.**  What had that name before goes. -/
theorem works_move (h : t.HoldsFiles directory place) {old new : String} (different : old ≠ new)
    {k : Handle} (node : t.node? (place ++ [old]) = some (.file k)) :
    (t.move (place ++ [old]) (place ++ [new])).HoldsFiles directory place ∧
      WorksAt place [old, new] t (t.move (place ++ [old]) (place ++ [new])) ∧
      (t.move (place ++ [old]) (place ++ [new])).node? (place ++ [old]) = none ∧
      (t.move (place ++ [old]) (place ++ [new])).node? (place ++ [new]) = some (.file k) := by
  have hentry {name other : String} (hne : name ≠ other) : ¬ place ++ [name] <+: place ++ [other] :=
    fun hpre => hne (prefix_entry_iff.mp hpre)
  have hold : (t.move (place ++ [old]) (place ++ [new])).node? (place ++ [old]) = none :=
    node?_move_source (List.prefix_refl _) (hentry different.symm)
  have hnew : (t.move (place ++ [old]) (place ++ [new])).node? (place ++ [new]) = some (.file k) :=
    (node?_move_target (entry_ne_entry different)).trans node
  have hout (q : Path) (hq : ¬ Inside place q) :
      (t.move (place ++ [old]) (place ++ [new])).node? q = t.node? q :=
    node?_move (not_prefix_of_inside (inside_concat place old) hq)
      (not_prefix_of_inside (inside_concat place new) hq)
  have hother (name : String) (hne : name ≠ old ∧ name ≠ new) :
      (t.move (place ++ [old]) (place ++ [new])).node? (place ++ [name]) =
        t.node? (place ++ [name]) :=
    node?_move (hentry hne.1.symm) (hentry hne.2.symm)
  have hworks : WorksAt place [old, new] t (t.move (place ++ [old]) (place ++ [new])) :=
    ⟨fun q hq => ⟨hout q hq, fun _ _ => rfl⟩, fun name hname =>
      ⟨hother name (by simpa using hname), fun _ _ => rfl⟩⟩
  refine ⟨⟨h.stands_of_works hworks, fun q hq hd => ?_, fun name => ⟨fun q j hq => ?_,
    fun q j hj hq => ?_⟩⟩, hworks, hold, hnew⟩
  · rcases node?_move_cases hd with hd | ⟨rest, -, hd⟩
    · exact h.flat q hq hd
    · exact h.flat _ ((inside_concat place old).extend (List.prefix_append _ rest)) hd
  · obtain ⟨r, hr, -⟩ := mem_move hq
    exact (h.sane name).known r j hr
  · obtain ⟨r, hr, heq⟩ := mem_move hq
    by_cases hisOld : name = old
    · rw [hisOld, hold] at hj
      cases hj
    by_cases hisNew : name = new
    · rw [hisNew, hnew] at hj
      cases hj
      -- the file had its old name only, and that is moved
      have hpath := (h.sane old).alone r k node hr
      have hmoved : relocate (place ++ [old]) (place ++ [new]) (place ++ [old], .file k) =
          (place ++ [new], .file k) := by
        simp [relocate, Path.below?]
      rw [hpath, hmoved] at heq
      rw [hisNew]
      exact (congrArg Prod.fst heq).symm
    · rw [hother name ⟨hisOld, hisNew⟩] at hj
      have hpath := (h.sane name).alone r j hj hr
      have hstays : relocate (place ++ [old]) (place ++ [new]) (r, .file j) = (r, .file j) :=
        relocate_of_outside (hpath ▸ hentry (Ne.symm hisOld))
      rw [hstays] at heq
      exact (congrArg Prod.fst heq).symm.trans hpath

end FileTree
end Montage
