import Montage.Files.Tree
import Mathlib.Data.List.Infix

/-! # What stays at a place

A path without `..` leads to itself (`locate_eq_ok_iff`), so for such paths the operations on files
can be said without walking: each of them changes a few places, and `FileTree.Spares` says that a
place is not among them.  What stays is more than the name: the way to the place is still there,
and a file that stands there has the content that it had.

For the content this is not a matter of paths alone.  A content is reached by its number, so a place
keeps its content only if no other place leads to the same number (`FileTree.Sane`), and if a file
that somebody has open is not the one that stands there.
-/
namespace Montage

namespace Path

@[simp] theorem parent_concat (p : Path) (name : String) : Path.parent (p ++ [name]) = p := by
  simp [Path.parent]

@[simp] theorem name_concat (p : Path) (name : String) : Path.name (p ++ [name]) = name := by
  simp [Path.name]

@[simp] theorem withName_concat (p : Path) (name other : String) :
    Path.withName (p ++ [name]) other = p ++ [other] := by
  simp [Path.withName]

theorem eq_concat {p : Path} (h : p ≠ []) : ∃ q name, p = q ++ [name] :=
  ⟨p.dropLast, p.getLast h, (List.dropLast_append_getLast h).symm⟩

end Path

namespace FileTree

variable {t u v : FileTree} {p q place : Path}

/-! ### Walking without `..` -/

/-- The way to a path leads through directories, and its names are such as can stand there. -/
structure Reaches (t : FileTree) (p : Path) : Prop where
  unended : p.holdsEnd = false
  short : ∀ name ∈ p, name.utf8ByteSize ≤ longestName
  way : ∀ q, q <+: p → q ≠ [] → q ≠ p → t.node? q = some .directory

theorem descend_eq_ok_iff {names : List String} (plain : ".." ∉ names) {r : Path} :
    t.descend place names = .ok r ↔ r = place ++ names ∧
      (∀ name ∈ names, name.utf8ByteSize ≤ longestName) ∧
      ∀ q, q <+: names → q ≠ [] → t.node? (place ++ q) = some .directory := by
  induction names generalizing place with
  | nil => simp [descend, eq_comm]
  | cons name rest ih =>
    obtain ⟨hname, hrest⟩ := not_or.mp (List.mem_cons.not.mp plain)
    rw [descend, if_neg (Ne.symm hname)]
    split
    · rename_i hlong
      refine ⟨nofun, fun ⟨_, hshort, _⟩ => ?_⟩
      exact absurd (hshort name List.mem_cons_self) (by omega)
    · rename_i hshort
      have hfirst : [name] <+: name :: rest := ⟨rest, rfl⟩
      split
      · rename_i hnone
        refine ⟨nofun, fun ⟨_, _, hway⟩ => ?_⟩
        exact nomatch hnone.symm.trans (hway [name] hfirst nofun)
      · rename_i h hfile
        refine ⟨nofun, fun ⟨_, _, hway⟩ => ?_⟩
        exact nomatch hfile.symm.trans (hway [name] hfirst nofun)
      · rename_i hdirectory
        rw [ih hrest, List.append_assoc, List.singleton_append]
        refine and_congr_right fun _ => ?_
        constructor
        · rintro ⟨hshorts, hway⟩
          refine ⟨?_, fun q hq hgiven => ?_⟩
          · rintro n (_ | ⟨_, hn⟩)
            · omega
            · exact hshorts n hn
          · obtain rfl | ⟨r, rfl, hr⟩ := List.prefix_cons_iff.mp hq
            · exact absurd rfl hgiven
            · by_cases hempty : r = []
              · rw [hempty]
                exact hdirectory
              · have := hway r hr hempty
                rwa [List.append_assoc] at this
        · rintro ⟨hshorts, hway⟩
          refine ⟨fun n hn => hshorts n (List.mem_cons_of_mem name hn), fun q hq hgiven => ?_⟩
          have := hway (name :: q) (List.prefix_cons_iff.mpr (Or.inr ⟨q, rfl, hq⟩)) nofun
          rwa [List.append_assoc]

/-- **A path without `..` leads to itself.** -/
theorem locate_eq_ok_iff (plain : ".." ∉ p) (given : p ≠ []) :
    t.locate p = .ok place ↔ place = p ∧ t.Reaches p := by
  obtain ⟨around, name, rfl⟩ := Path.eq_concat given
  have haround : ".." ∉ around := fun h => plain (List.mem_append_left _ h)
  have hname : name ≠ ".." := fun h => plain (by simp [h])
  have hwalk (r : Path) : t.descend [] around = .ok r ↔ r = [] ++ around ∧
      (∀ name ∈ around, name.utf8ByteSize ≤ longestName) ∧
      ∀ q, q <+: around → q ≠ [] → t.node? ([] ++ q) = some .directory :=
    descend_eq_ok_iff haround
  rw [locate, Path.parent_concat, Path.name_concat]
  by_cases hended : Path.holdsEnd (around ++ [name]) = true
  · rw [if_pos hended]
    refine ⟨nofun, fun ⟨_, hreaches⟩ => ?_⟩
    exact nomatch hended.symm.trans hreaches.unended
  rw [if_neg hended]
  constructor
  · intro h
    split at h
    · cases h
    · rename_i directory hdirectory
      obtain ⟨rfl, hshort, hway⟩ := (hwalk _).mp hdirectory
      rw [if_neg hname] at h
      split at h
      · cases h
      · rename_i hlast
        cases h
        refine ⟨rfl, by simpa using hended, fun n hn => ?_, fun q hq hgiven hne => ?_⟩
        · rcases List.mem_append.mp hn with hn | hn
          · exact hshort n hn
          · rw [List.mem_singleton.mp hn]
            omega
        · exact hway q ((List.prefix_concat_iff.mp hq).resolve_left hne) hgiven
  · rintro ⟨rfl, hreaches⟩
    have hdirectory : t.descend [] around = .ok around := (hwalk around).mpr
      ⟨rfl, fun n hn => hreaches.short n (List.mem_append_left _ hn), fun q hq hgiven => by
        refine hreaches.way q (hq.trans (List.prefix_append around [name])) hgiven fun h => ?_
        exact absurd hq.length_le (by simp [h])⟩
    have hlast := hreaches.short name (by simp)
    rw [hdirectory]
    dsimp only
    rw [if_neg hname, if_neg (by omega)]

theorem nodeAt?_of_reaches (plain : ".." ∉ p) (given : p ≠ []) (h : t.Reaches p) :
    t.nodeAt? p = t.node? p := by
  rw [nodeAt?, (locate_eq_ok_iff plain given).mpr ⟨rfl, h⟩]

theorem nodeAt?_eq_some (plain : ".." ∉ p) (given : p ≠ []) {n : FileNode} :
    t.nodeAt? p = some n ↔ t.Reaches p ∧ t.node? p = some n := by
  constructor
  · intro h
    rw [nodeAt?] at h
    split at h
    · cases h
    · rename_i place hplace
      obtain ⟨rfl, hreaches⟩ := (locate_eq_ok_iff plain given).mp hplace
      exact ⟨hreaches, h⟩
  · rintro ⟨hreaches, hnode⟩
    rw [nodeAt?_of_reaches plain given hreaches, hnode]

theorem isDirectory_iff (plain : ".." ∉ p) (given : p ≠ []) :
    t.isDirectory p = true ↔ t.Reaches p ∧ t.node? p = some .directory := by
  rw [isDirectory, beq_iff_eq, nodeAt?_eq_some plain given]

/-- Where nothing stands nothing exists. -/
theorem exists?_of_node?_none (plain : ".." ∉ p) (given : p ≠ []) (h : t.node? p = none) :
    t.exists? p = false := by
  rw [exists?]
  cases hnode : t.nodeAt? p with
  | none => rfl
  | some n => exact nomatch h.symm.trans ((nodeAt?_eq_some plain given).mp hnode).2

theorem openFile_of_reaches (plain : ".." ∉ p) (given : p ≠ []) {h : Handle} (reaches : t.Reaches p)
    (node : t.node? p = some (.file h)) : t.openFile p = .ok h := by
  rw [openFile, (locate_eq_ok_iff plain given).mpr ⟨rfl, reaches⟩]
  simp only [node]

/-- The size of what is no directory is that of its content. -/
theorem size?_eq_some (plain : ".." ∉ p) (given : p ≠ []) (file : t.node? p ≠ some .directory)
    {n : Nat} : t.size? p = some n ↔ t.Reaches p ∧
      ∃ h c, t.node? p = some (.file h) ∧ t.content? h = some c ∧ c.size = n := by
  rw [size?]
  constructor
  · intro hsize
    split at hsize
    · cases hsize
    · rename_i hnode
      exact absurd ((nodeAt?_eq_some plain given).mp hnode).2 file
    · rename_i h hnode
      obtain ⟨hreaches, hnode⟩ := (nodeAt?_eq_some plain given).mp hnode
      obtain ⟨c, hcontent, rfl⟩ := Option.map_eq_some_iff.mp hsize
      exact ⟨hreaches, h, c, hnode, hcontent, rfl⟩
  · rintro ⟨hreaches, h, c, hnode, hcontent, rfl⟩
    simp only [nodeAt?_of_reaches plain given hreaches, hnode, hcontent, Option.map_some]

/-- From a directory the way leads on to the names in it. -/
theorem Reaches.child (h : t.Reaches p) (directory : t.node? p = some .directory) {name : String}
    (unended : name.toList.contains '\x00' = false) (short : name.utf8ByteSize ≤ longestName) :
    t.Reaches (p ++ [name]) where
  unended := by
    have := h.unended
    simp only [Path.holdsEnd, List.any_append, Bool.or_eq_false_iff] at this ⊢
    exact ⟨this, by simpa using unended⟩
  short := fun n hn => by
    rcases List.mem_append.mp hn with hn | hn
    · exact h.short n hn
    · rw [List.mem_singleton.mp hn]
      exact short
  way := fun q hq hgiven hne => by
    have hq := (List.prefix_concat_iff.mp hq).resolve_left hne
    by_cases heq : q = p
    · rw [heq, directory]
    · exact h.way q hq hgiven heq

/-! ### A place that is spared -/

/-- Files have contents, and a file that stands at a place stands nowhere else. -/
structure Sane (p : Path) (t : FileTree) : Prop where
  known : ∀ q h, (q, FileNode.file h) ∈ t.entries → h < t.contents.length
  alone : ∀ q h, t.node? p = some (.file h) → (q, FileNode.file h) ∈ t.entries → q = p

/-- What happens between two trees spares a place. -/
structure Spares (p : Path) (t u : FileTree) : Prop where
  node : u.node? p = t.node? p
  way : ∀ q, q <+: p → t.node? q = some .directory → u.node? q = some .directory
  grows : t.contents.length ≤ u.contents.length
  sane : t.Sane p → u.Sane p
  content : t.Sane p → ∀ h, t.node? p = some (.file h) → u.content? h = t.content? h

theorem Spares.refl (p : Path) (t : FileTree) : t.Spares p t :=
  ⟨rfl, fun _ _ h => h, Nat.le_refl _, fun h => h, fun _ _ _ => rfl⟩

theorem Spares.trans (h : Spares p t u) (h' : Spares p u v) : Spares p t v where
  node := h'.node.trans h.node
  way := fun q hq hd => h'.way q hq (h.way q hq hd)
  grows := Nat.le_trans h.grows h'.grows
  sane := fun hs => h'.sane (h.sane hs)
  content := fun hs k hk =>
    (h'.content (h.sane hs) k (h.node.trans hk)).trans (h.content hs k hk)

/-- The way to a path that is spared stays. -/
theorem Spares.reaches (h : Spares p t u) (hq : q <+: p) (hreaches : t.Reaches q) : u.Reaches q :=
  ⟨hreaches.unended, hreaches.short, fun r hr hgiven hne =>
    h.way r (hr.trans hq) (hreaches.way r hr hgiven hne)⟩

theorem Spares.isDirectory (h : Spares p t u) (plain : ".." ∉ q) (given : q ≠ []) (hq : q <+: p)
    (hd : t.isDirectory q = true) : u.isDirectory q = true := by
  rw [isDirectory_iff plain given] at hd ⊢
  exact ⟨h.reaches hq hd.1, h.way q hq hd.2⟩

/-- Names are added, moved or taken away elsewhere. -/
theorem Spares.of_entries (contents : u.contents = t.contents)
    (nodes : ∀ q, q <+: p → u.node? q = t.node? q ∨ q ≠ p ∧ u.node? q = some .directory)
    (entries : ∀ q h, (q, FileNode.file h) ∈ u.entries →
      ∃ r, (r, FileNode.file h) ∈ t.entries ∧ (r = p → q = p)) : Spares p t u where
  node := (nodes p (List.prefix_refl p)).resolve_right fun h => h.1 rfl
  way := fun q hq hd => by
    rcases nodes q hq with h | ⟨-, h⟩
    · exact h.trans hd
    · exact h
  grows := Nat.le_of_eq (congrArg List.length contents).symm
  sane := fun hs => by
    refine ⟨fun q h hq => ?_, fun q h hp hq => ?_⟩
    · obtain ⟨r, hr, -⟩ := entries q h hq
      rw [contents]
      exact hs.known r h hr
    · obtain ⟨r, hr, hback⟩ := entries q h hq
      have hnode := (nodes p (List.prefix_refl p)).resolve_right fun h => h.1 rfl
      exact hback (hs.alone r h (hnode.symm.trans hp) hr)
  content := fun _ h _ => by rw [content?, contents, content?]

/-! ### The operations -/

theorem mem_of_node? {n : FileNode} (h : t.node? p = some n) : (p, n) ∈ t.entries := by
  rw [node?, Option.map_eq_some_iff] at h
  obtain ⟨e, he, rfl⟩ := h
  obtain rfl : e.1 = p := by simpa using List.find?_some he
  exact List.mem_of_find?_eq_some he

theorem node?_drop (t : FileTree) (place q : Path) :
    (t.drop place).node? q = if q = place then none else t.node? q := by
  simp only [node?, drop, List.find?_filter]
  split
  · rename_i hq
    subst hq
    simp
  · rename_i hq
    congr 2
    funext e
    by_cases he : e.1 = q <;> simp [he, hq]

theorem node?_put (t : FileTree) (place : Path) (n : FileNode) (q : Path) :
    (t.put place n).node? q = if q = place then some n else t.node? q := by
  have hdrop := node?_drop t place q
  simp only [node?, drop] at hdrop
  simp only [node?, put, List.find?_append, Option.map_or, hdrop]
  split
  · rename_i hq
    simp [hq]
  · rename_i hq
    simp [Ne.symm hq]

theorem Spares.put_directory (hp : p ≠ place) : Spares p t (t.put place .directory) := by
  refine Spares.of_entries rfl (fun q _ => ?_) fun q h hq => ?_
  · rw [node?_put]
    split
    · rename_i heq
      exact Or.inr ⟨fun h => hp (h.symm.trans heq), rfl⟩
    · exact Or.inl rfl
  · rcases List.mem_append.mp hq with hq | hq
    · exact ⟨q, (List.mem_filter.mp hq).1, fun h => h⟩
    · cases List.mem_singleton.mp hq

theorem Spares.drop (hp : p ≠ place) (notDirectory : t.node? place ≠ some .directory) :
    Spares p t (t.drop place) where
  node := by rw [node?_drop, if_neg hp]
  way := fun q _ hd => by
    have hne : q ≠ place := fun heq => notDirectory (heq ▸ hd)
    rwa [node?_drop, if_neg hne]
  grows := Nat.le_refl _
  sane := fun hs => by
    refine ⟨fun q h hq => hs.known q h (List.mem_filter.mp hq).1, fun q h hnode hq => ?_⟩
    rw [node?_drop, if_neg hp] at hnode
    exact hs.alone q h hnode (List.mem_filter.mp hq).1
  content := fun _ _ _ => rfl

theorem Spares.fill {k : Handle} (other : t.node? p ≠ some (.file k)) (c : Content) :
    Spares p t (t.fill k c) where
  node := rfl
  way := fun _ _ h => h
  grows := Nat.le_of_eq (List.length_set).symm
  sane := fun hs =>
    ⟨fun q h hq => by simpa [FileTree.fill] using hs.known q h hq, fun q h => hs.alone q h⟩
  content := fun _ h hh => by
    have hne : k ≠ h := fun heq => other (heq ▸ hh)
    simp [content?, FileTree.fill, List.getElem?_set_ne hne]

theorem make_eq_ok (plain : ".." ∉ q) (given : q ≠ []) (h : t.make q = .ok u) :
    t.Reaches q ∧ u = t.put q .directory := by
  rw [make] at h
  split at h
  · cases h
  · rename_i place hplace
    obtain ⟨rfl, hreaches⟩ := (locate_eq_ok_iff plain given).mp hplace
    split at h
    · cases h
    · cases h
      exact ⟨hreaches, rfl⟩

/-- A directory that could be made is there. -/
theorem isDirectory_put (plain : ".." ∉ q) (given : q ≠ []) (h : t.Reaches q) :
    (t.put q .directory).isDirectory q = true := by
  rw [isDirectory_iff plain given]
  refine ⟨⟨h.unended, h.short, fun r hr hgiven hne => ?_⟩, by rw [node?_put, if_pos rfl]⟩
  rw [node?_put, if_neg hne]
  exact h.way r hr hgiven hne

theorem settleMade_eq_ok {mayExist : Bool} {made : Except FileCause FileTree}
    (h : t.settleMade mayExist q made = .ok u) :
    made = .ok u ∨ u = t ∧ mayExist = true ∧ t.isDirectory q = true := by
  cases made with
  | ok v => exact Or.inl (congrArg Except.ok (Except.ok.inj h))
  | error c =>
    rw [settleMade] at h
    split at h
    · rename_i hthere
      cases h
      exact Or.inr ⟨rfl, by simpa using hthere⟩
    · cases h

theorem Spares.settleMade {mayExist : Bool} (plain : ".." ∉ q) (given : q ≠ []) (hp : p ≠ q)
    (h : t.settleMade mayExist q (t.make q) = .ok u) :
    Spares p t u ∧ u.isDirectory q = true := by
  rcases settleMade_eq_ok h with h | ⟨rfl, -, hd⟩
  · obtain ⟨hreaches, rfl⟩ := make_eq_ok plain given h
    exact ⟨.put_directory hp, isDirectory_put plain given hreaches⟩
  · exact ⟨.refl p u, hd⟩

/-- Making directories spares all that is not on their way. -/
theorem Spares.makeFrom {mayExist : Bool} {names : List String} (plain : ".." ∉ names)
    (hp : ¬ p <+: names.reverse) (h : t.makeFrom mayExist names = .ok u) :
    Spares p t u ∧ u.isDirectory names.reverse = true := by
  induction names generalizing t u mayExist with
  | nil => cases h
  | cons name around ih =>
    have hplain : ".." ∉ (name :: around).reverse := fun h => plain (List.mem_reverse.mp h)
    have hgiven : (name :: around).reverse ≠ [] := by simp
    have hne : p ≠ (name :: around).reverse := fun heq => hp (heq ▸ List.prefix_refl _)
    have haround : ¬ p <+: around.reverse := fun hpre => hp (by
      rw [List.reverse_cons]
      exact hpre.trans (List.prefix_append _ _))
    simp only [FileTree.makeFrom] at h
    split at h
    · split at h
      · cases h
      · rename_i made hmade
        obtain ⟨hfirst, -⟩ := ih (fun hmem => plain (List.mem_cons_of_mem name hmem)) haround hmade
        obtain ⟨hrest, hd⟩ := Spares.settleMade hplain hgiven hne h
        exact ⟨hfirst.trans hrest, hd⟩
    · exact Spares.settleMade hplain hgiven hne h

theorem Spares.makeDirectory (plain : ".." ∉ q) (hp : ¬ p <+: q) (h : t.makeDirectory q = .ok u) :
    Spares p t u ∧ u.isDirectory q = true := by
  have hmade : Spares p t u ∧ u.isDirectory q.reverse.reverse = true :=
    Spares.makeFrom (by simpa using plain) (by simpa using hp) h
  rwa [List.reverse_reverse] at hmade

/-- A file is opened where it stands, or a new one is. -/
theorem openNew_cases {k : Handle} (plain : ".." ∉ q) (given : q ≠ [])
    (h : t.openNew q = .ok (k, u)) : t.Reaches q ∧
      (t.node? q = some (.file k) ∧ u = { t with contents := t.contents.set k (.raw []) } ∨
        t.node? q = none ∧ k = t.contents.length ∧
          u = { (t.put q (.file k)) with contents := t.contents ++ [.raw []] }) := by
  rw [openNew] at h
  split at h
  · cases h
  · rename_i place hplace
    obtain ⟨rfl, hreaches⟩ := (locate_eq_ok_iff plain given).mp hplace
    refine ⟨hreaches, ?_⟩
    split at h
    · cases h
    · rename_i k' hfile
      cases h
      exact Or.inl ⟨hfile, rfl⟩
    · rename_i hnone
      cases h
      exact Or.inr ⟨hnone, rfl, rfl⟩

theorem node?_openNew {k : Handle} (plain : ".." ∉ q) (given : q ≠ [])
    (h : t.openNew q = .ok (k, u)) : u.node? q = some (.file k) := by
  obtain ⟨-, ⟨hfile, rfl⟩ | ⟨-, -, rfl⟩⟩ := openNew_cases plain given h
  · exact hfile
  · exact (node?_put t q (.file k) q).trans (if_pos rfl)

theorem lt_of_openNew {k : Handle} (plain : ".." ∉ q) (given : q ≠ []) (hs : t.Sane p)
    (h : t.openNew q = .ok (k, u)) : k < u.contents.length := by
  obtain ⟨-, ⟨hfile, rfl⟩ | ⟨-, rfl, rfl⟩⟩ := openNew_cases plain given h
  · simpa using hs.known q k (mem_of_node? hfile)
  · simp

/-- Opening a file spares all other places. -/
theorem Spares.openNew {k : Handle} (plain : ".." ∉ q) (given : q ≠ []) (hp : p ≠ q)
    (h : t.openNew q = .ok (k, u)) : Spares p t u := by
  obtain ⟨-, ⟨hfile, rfl⟩ | ⟨hnone, rfl, rfl⟩⟩ := openNew_cases plain given h
  · refine ⟨rfl, fun _ _ h => h, Nat.le_of_eq List.length_set.symm, fun hs => ?_, fun hs k' hk' => ?_⟩
    · exact ⟨fun r k' hr => by simpa using hs.known r k' hr, fun r k' => hs.alone r k'⟩
    · have hne : k ≠ k' := by
        rintro rfl
        exact hp (hs.alone q k hk' (mem_of_node? hfile)).symm
      simp [content?, List.getElem?_set_ne hne]
  · have hput : ∀ r, ({ (t.put q (.file t.contents.length)) with
        contents := t.contents ++ [Content.raw []] } : FileTree).node? r =
          if r = q then some (.file t.contents.length) else t.node? r := node?_put t q _
    refine ⟨(hput p).trans (if_neg hp), fun r _ hd => ?_, by simp, fun hs => ⟨fun r k hr => ?_,
      fun r k hk hr => ?_⟩, fun hs k hk => ?_⟩
    · have hne : r ≠ q := by
        rintro rfl
        exact nomatch hnone.symm.trans hd
      exact (hput r).trans ((if_neg hne).trans hd)
    · rcases List.mem_append.mp hr with hr | hr
      · exact Nat.lt_of_lt_of_le (hs.known r k (List.mem_filter.mp hr).1) (by simp)
      · cases List.mem_singleton.mp hr
        simp
    · rw [hput, if_neg hp] at hk
      rcases List.mem_append.mp hr with hr | hr
      · exact hs.alone r k hk (List.mem_filter.mp hr).1
      · -- the new file has a new number
        cases List.mem_singleton.mp hr
        exact absurd (hs.known p _ (mem_of_node? hk)) (Nat.lt_irrefl _)
    · have := hs.known p k (mem_of_node? hk)
      simp [content?, List.getElem?_append_left this]

/-- Writing a file spares all other places. -/
theorem Spares.write {c : Content} (plain : ".." ∉ q) (given : q ≠ []) (hp : p ≠ q)
    (hs : t.Sane p) (h : t.write q c = .ok u) : Spares p t u := by
  rw [FileTree.write] at h
  split at h
  · cases h
  · rename_i k v hopen
    cases h
    have hopened := Spares.openNew plain given hp hopen
    refine hopened.trans (.fill (fun hk => ?_) c)
    exact hp ((hopened.sane hs).alone q k hk (mem_of_node? (node?_openNew plain given hopen))).symm

/-- What was written is what stands there then, in the file that stood there or in a new one. -/
theorem write_eq_ok {c : Content} (plain : ".." ∉ q) (given : q ≠ []) (hs : t.Sane q)
    (h : t.write q c = .ok u) :
    u.Sane q ∧ t.contents.length ≤ u.contents.length ∧
      (∀ r, t.node? r = some .directory → u.node? r = some .directory) ∧
      ∃ k, u.node? q = some (.file k) ∧ u.content? k = some c ∧
        (t.node? q = some (.file k) ∨ k = t.contents.length) := by
  rw [FileTree.write] at h
  split at h
  · cases h
  · rename_i k v hopen
    cases h
    have hnode := node?_openNew plain given hopen
    have hlt := lt_of_openNew plain given hs hopen
    have hfill : (v.fill k c).content? k = some c := by simp [content?, fill, hlt]
    obtain ⟨-, ⟨hfile, rfl⟩ | ⟨hnone, rfl, rfl⟩⟩ := openNew_cases plain given hopen
    · refine ⟨⟨fun r k' hr => ?_, fun r k' => hs.alone r k'⟩, by simp [fill], fun r h => h,
        k, hnode, hfill, Or.inl hfile⟩
      simpa [fill] using hs.known r k' hr
    · refine ⟨⟨fun r k hr => ?_, fun r k hk hr => ?_⟩, by simp [fill], fun r hd => ?_,
        _, hnode, hfill, Or.inr rfl⟩
      · rcases List.mem_append.mp hr with hr | hr
        · exact Nat.lt_of_lt_of_le (hs.known r k (List.mem_filter.mp hr).1) (by simp [fill])
        · cases List.mem_singleton.mp hr
          simp [fill]
      · cases hnode.symm.trans hk
        rcases List.mem_append.mp hr with hr | hr
        · exact absurd (hs.known r _ (List.mem_filter.mp hr).1) (Nat.lt_irrefl _)
        · cases List.mem_singleton.mp hr
          rfl
      · have hne : r ≠ q := by
          rintro rfl
          exact nomatch hnone.symm.trans hd
        exact (node?_put t q _ r).trans ((if_neg hne).trans hd)

/-- No file can be written where a path leads up to a directory. -/
theorem write_up_ne_ok {around : Path} {name : String} {c : Content}
    (plain : ".." ∉ around ++ [name]) (given : around ≠ []) :
    t.write (around ++ [name] ++ [".."]) c ≠ .ok u := by
  intro h
  rw [FileTree.write, openNew, locate, Path.parent_concat, Path.name_concat] at h
  split at h
  · cases h
  · rename_i hopen
    split at hopen
    · cases hopen
    · rename_i place hplace
      split at hplace
      · cases hplace
      · split at hplace
        · cases hplace
        · rename_i directory hdirectory
          obtain ⟨rfl, -, hway⟩ := (descend_eq_ok_iff plain).mp hdirectory
          cases hplace
          have hnode : t.node? around = some .directory :=
            hway around (List.prefix_append _ _) given
          simp [hnode] at hopen

/-- Only a file can be unlinked. -/
theorem unlink_cases (plain : ".." ∉ q) (given : q ≠ []) (h : t.unlink q = .ok u) :
    u = t ∨ t.node? q ≠ some .directory ∧ u = t.drop q := by
  rw [unlink] at h
  split at h
  · exact Or.inl (Except.ok.inj h).symm
  · cases h
  · rename_i place hplace
    obtain ⟨rfl, -⟩ := (locate_eq_ok_iff plain given).mp hplace
    split at h
    · cases h
    · rename_i hfile
      cases h
      exact Or.inr ⟨hfile, rfl⟩

theorem Spares.unlink (plain : ".." ∉ q) (given : q ≠ []) (hp : p ≠ q)
    (h : t.unlink q = .ok u) : Spares p t u := by
  rcases unlink_cases plain given h with rfl | ⟨hfile, rfl⟩
  · exact .refl p u
  · exact .drop hp hfile

theorem Spares.discard (plain : ".." ∉ q) (given : q ≠ []) (hp : p ≠ q) :
    Spares p t (t.discard q) := by
  rw [FileTree.discard]
  cases h : t.unlink q with
  | ok u => exact Spares.unlink plain given hp h
  | error f => exact .refl p t

theorem contents_discard (plain : ".." ∉ q) (given : q ≠ []) :
    (t.discard q).contents = t.contents := by
  rw [FileTree.discard]
  cases h : t.unlink q with
  | ok u =>
    rcases unlink_cases plain given h with rfl | ⟨-, rfl⟩
    · rfl
    · rfl
  | error f => rfl

/-! ### Moving and removing -/

theorem below?_eq_none {source r : Path} : source.below? r = none ↔ ¬ source <+: r := by
  simp [Path.below?]

theorem below?_eq_some {source r rest : Path} (h : source.below? r = some rest) :
    r = source ++ rest := by
  rw [Path.below?] at h
  split at h
  · rename_i hpre
    obtain ⟨more, rfl⟩ := List.isPrefixOf_iff_prefix.mp hpre
    cases h
    simp
  · cases h

theorem relocate_of_outside {source target : Path} {e : Path × FileNode}
    (h : ¬ source <+: e.1) : relocate source target e = e := by
  rw [relocate, below?_eq_none.mpr h]

theorem relocate_eq (source target : Path) (e : Path × FileNode) :
    (¬ source <+: e.1 ∧ relocate source target e = e) ∨
      ∃ rest, e.1 = source ++ rest ∧ relocate source target e = (target ++ rest, e.2) := by
  cases h : source.below? e.1 with
  | none => exact Or.inl ⟨below?_eq_none.mp h, relocate_of_outside (below?_eq_none.mp h)⟩
  | some rest => exact Or.inr ⟨rest, below?_eq_some h, by rw [relocate, h]⟩

/-- A move leaves alone what stands neither below its source nor below its target. -/
theorem node?_move {source target : Path} (hsource : ¬ source <+: q) (htarget : ¬ target <+: q) :
    (t.move source target).node? q = t.node? q := by
  have hne : q ≠ target := fun h => htarget (h ▸ List.prefix_refl _)
  have hdrop := node?_drop t target q
  rw [if_neg hne] at hdrop
  rw [← hdrop, node?, node?, move, List.find?_map]
  have hsame : ((fun e : Path × FileNode => e.1 == q) ∘ relocate source target) =
      fun e => e.1 == q := by
    funext e
    rcases relocate_eq source target e with ⟨-, h⟩ | ⟨rest, hrest, h⟩
    · simp [h]
    · have hleft : e.1 ≠ q := fun he => hsource (he ▸ hrest ▸ List.prefix_append _ _)
      have hright : target ++ rest ≠ q := fun he => htarget (he ▸ List.prefix_append _ _)
      simp [h, hleft, hright]
  rw [hsame]
  cases hfound : (t.drop target).entries.find? fun e => e.1 == q with
  | none => rfl
  | some e =>
    obtain rfl : e.1 = q := by simpa using List.find?_some hfound
    simp [relocate_of_outside hsource]

theorem Spares.move {source target : Path} (hsource : ¬ source <+: p) (htarget : ¬ target <+: p) :
    Spares p t (t.move source target) := by
  refine Spares.of_entries rfl (fun q hq => Or.inl (node?_move (fun h => hsource (h.trans hq))
    fun h => htarget (h.trans hq))) fun q k hq => ?_
  obtain ⟨e, he, heq⟩ := List.mem_map.mp hq
  have hmem := (List.mem_filter.mp he).1
  rcases relocate_eq source target e with ⟨-, h⟩ | ⟨rest, hrest, h⟩
  · rw [h] at heq
    exact ⟨q, heq ▸ hmem, fun h => h⟩
  · rw [h] at heq
    have hnode : e.2 = .file k := (Prod.mk.inj heq).2
    refine ⟨e.1, hnode ▸ hmem, fun he => absurd ?_ hsource⟩
    rw [← he, hrest]
    exact List.prefix_append _ _

/-- Nothing is moved to or from a path that leads up. -/
theorem name_of_rename {source target : Path} (h : t.rename source target = .ok u) :
    source.name ≠ ".." ∧ target.name ≠ ".." := by
  simp only [rename] at h
  split at h
  · cases h
  · split at h
    · cases h
    · rename_i hnames
      exact not_or.mp hnames

theorem rename_cases {source target : Path} (plain : ".." ∉ source) (given : source ≠ [])
    (plain' : ".." ∉ target) (given' : target ≠ []) (h : t.rename source target = .ok u) :
    t.Reaches source ∧ t.Reaches target ∧ ∃ n, t.node? source = some n ∧
      (source = target ∧ u = t ∨
        source ≠ target ∧ t.obstacle? n source target = none ∧ u = t.move source target) := by
  simp only [rename] at h
  split at h
  · cases h
  · rename_i p r hsource
    obtain ⟨rfl, hreaches⟩ := (locate_eq_ok_iff plain given).mp hsource
    split at h
    · cases h
    · split at h
      · cases h
      · cases h
      · rename_i n q hnode htarget
        obtain ⟨rfl, hreaches'⟩ := (locate_eq_ok_iff plain' given').mp htarget
        refine ⟨hreaches, hreaches', n, hnode, ?_⟩
        split at h
        · rename_i heq
          cases h
          exact Or.inl ⟨heq, rfl⟩
        · rename_i hne
          split at h
          · cases h
          · rename_i hfree
            cases h
            exact Or.inr ⟨hne, hfree, rfl⟩

theorem Spares.rename {source target : Path} (plain : ".." ∉ source) (given : source ≠ [])
    (plain' : ".." ∉ target) (given' : target ≠ []) (hsource : ¬ source <+: p)
    (htarget : ¬ target <+: p) (h : t.rename source target = .ok u) : Spares p t u := by
  obtain ⟨-, -, n, -, ⟨-, rfl⟩ | ⟨-, -, rfl⟩⟩ := rename_cases plain given plain' given' h
  · exact .refl p u
  · exact .move hsource htarget

/-- Where a directory stood nothing stands after it was moved. -/
theorem node?_rename_source {source target : Path} (plain : ".." ∉ source) (given : source ≠ [])
    (plain' : ".." ∉ target) (given' : target ≠ []) (other : ¬ target <+: source)
    (h : t.rename source target = .ok u) : u.node? source = none := by
  obtain ⟨-, -, n, -, ⟨rfl, -⟩ | ⟨hne, -, rfl⟩⟩ := rename_cases plain given plain' given' h
  · exact absurd (List.prefix_refl _) other
  · rw [node?, Option.map_eq_none_iff, List.find?_eq_none]
    intro e he heq
    obtain ⟨e', -, rfl⟩ := List.mem_map.mp he
    have heq : (relocate source target e').1 = source := by simpa using heq
    rcases relocate_eq source target e' with ⟨houtside, h⟩ | ⟨rest, -, h⟩ <;> rw [h] at heq
    · exact houtside (heq ▸ List.prefix_refl _)
    · exact other (heq ▸ List.prefix_append target rest)

theorem node?_move_target {source target : Path} (hne : source ≠ target) :
    (t.move source target).node? target = t.node? source := by
  have hsame : (fun e : Path × FileNode => decide ((e.1 != target) = true ∧
      ((fun e => e.1 == target) ∘ relocate source target) e = true)) = fun e => e.1 == source := by
    funext e
    rcases relocate_eq source target e with ⟨hout, h⟩ | ⟨rest, hrest, h⟩
    · have : e.1 ≠ source := fun he => hout (he ▸ List.prefix_refl _)
      simp [h, this]
    · by_cases hempty : rest = []
      · simp [h, hrest, hempty, hne]
      · simp [h, hrest, hempty]
  have hsecond : Prod.snd ∘ relocate source target = Prod.snd := by
    funext e
    rcases relocate_eq source target e with ⟨-, h⟩ | ⟨rest, -, h⟩ <;>
      simp [h]
  simp only [node?, move, drop, List.find?_map, List.find?_filter, hsame, Option.map_map, hsecond]

/-- Where a directory is moved to a directory stands then. -/
theorem node?_rename_target {source target : Path} (plain : ".." ∉ source) (given : source ≠ [])
    (plain' : ".." ∉ target) (given' : target ≠ []) (h : t.rename source target = .ok u) :
    u.node? target = t.node? source := by
  obtain ⟨-, -, n, hnode, ⟨rfl, rfl⟩ | ⟨hne, hfree, rfl⟩⟩ :=
    rename_cases plain given plain' given' h
  · rfl
  · exact node?_move_target hne

/-- The way to a place stays when something is moved there. -/
theorem reaches_rename_target {source target : Path} (plain : ".." ∉ source) (given : source ≠ [])
    (plain' : ".." ∉ target) (given' : target ≠ []) (other : ¬ source <+: target)
    (h : t.rename source target = .ok u) : u.Reaches target := by
  obtain ⟨-, hreaches, n, -, ⟨-, rfl⟩ | ⟨-, -, rfl⟩⟩ :=
    rename_cases plain given plain' given' h
  · exact hreaches
  · refine ⟨hreaches.unended, hreaches.short, fun q hq hgiven hne => ?_⟩
    rw [node?_move (fun h => other (h.trans hq)) fun h => hne ?_]
    · exact hreaches.way q hq hgiven hne
    · exact hq.eq_of_length (Nat.le_antisymm hq.length_le h.length_le)

theorem contents_rename {source target : Path} (h : t.rename source target = .ok u) :
    u.contents = t.contents := by
  simp only [rename] at h
  repeat' split at h
  all_goals first
    | cases h; rfl
    | cases h

/-- Only a directory is removed, with all that is in it. -/
theorem remove_cases (plain : ".." ∉ place) (given : place ≠ []) :
    ¬ (t.Reaches place ∧ t.node? place = some .directory) ∧ t.remove place = t ∨
      t.Reaches place ∧ t.node? place = some .directory ∧
        t.remove place = { t with entries := t.entries.filter fun e => !place.isPrefixOf e.1 } := by
  cases hplace : t.locate place with
  | error c =>
    refine Or.inl ⟨fun ⟨hreaches, _⟩ => ?_, by rw [remove, hplace]⟩
    exact nomatch hplace.symm.trans ((locate_eq_ok_iff plain given).mpr ⟨rfl, hreaches⟩)
  | ok r =>
    obtain ⟨rfl, hreaches⟩ := (locate_eq_ok_iff plain given).mp hplace
    by_cases hd : t.node? r = some .directory
    · exact Or.inr ⟨hreaches, hd, by simp [remove, hplace, hd]⟩
    · exact Or.inl ⟨fun h => hd h.2, by simp [remove, hplace, hd]⟩

theorem node?_filter_below (t : FileTree) (place q : Path) :
    ({ t with entries := t.entries.filter fun e => !place.isPrefixOf e.1 } : FileTree).node? q =
      if place <+: q then none else t.node? q := by
  simp only [node?, List.find?_filter]
  split
  · rename_i hq
    rw [Option.map_eq_none_iff, List.find?_eq_none]
    rintro e - he
    simp only [Bool.not_eq_true', decide_eq_true_eq, beq_iff_eq] at he
    obtain ⟨hout, rfl⟩ := he
    rw [List.isPrefixOf_iff_prefix.mpr hq] at hout
    cases hout
  · rename_i hq
    congr 2
    funext e
    by_cases he : e.1 = q
    · have hout : place.isPrefixOf q = false := by
        rwa [← Bool.not_eq_true, List.isPrefixOf_iff_prefix]
      simp [he, hout]
    · simp [he]

theorem Spares.remove (plain : ".." ∉ place) (given : place ≠ []) (h : ¬ place <+: p) :
    Spares p t (t.remove place) := by
  rcases remove_cases (t := t) plain given with ⟨-, heq⟩ | ⟨-, -, heq⟩ <;> rw [heq]
  · exact .refl p t
  · refine Spares.of_entries rfl (fun q hq => Or.inl ?_) fun q k hq =>
      ⟨q, (List.mem_filter.mp hq).1, fun h => h⟩
    rw [node?_filter_below, if_neg fun hplace => h (hplace.trans hq)]

/-- A directory to which a way leads is not there any more when it was removed. -/
theorem node?_remove_self (plain : ".." ∉ place) (given : place ≠ []) (hreaches : t.Reaches place)
    (hd : t.node? place = some .directory) : (t.remove place).node? place = none := by
  rcases remove_cases (t := t) plain given with ⟨hnot, -⟩ | ⟨-, -, heq⟩
  · exact absurd ⟨hreaches, hd⟩ hnot
  · rw [heq, node?_filter_below, if_pos (List.prefix_refl _)]

theorem contents_remove (t : FileTree) (place : Path) : (t.remove place).contents = t.contents := by
  unfold remove
  repeat' split
  all_goals rfl

end FileTree
end Montage
