import Montage.Plan.Escape
import Mathlib.Data.List.Basic

/-! # Reading escaped text

A reader goes through a text once.  Outside quotes a backslash takes its sense from the character
after it, and a quote begins or ends a quotation.  What a character is to the reader is its `Role`;
the reader drops markup, and splits the text at bare separators only (`parts`).

A **word** (`IsWord`) is a text that the reader leaves in the state in which it came to it, and in
which no separator is bare.  Words can be put together: whoever joins them with separators and then
reads, finds each of them where it was put (`splitOnP_joined`, `parts_joined`).  Plain text, escaped
text and quoted text are words.
-/
namespace Montage.Plan

/-- What a character is to a reader: markup is dropped, and of what is kept only a bare character can
separate. -/
inductive Role where
  | bare
  | literal
  | markup
  deriving DecidableEq, Repr

/-- The characters of a text with their roles, from outside or from inside quotes on.  A backslash
that is the last character stands for itself. -/
def scan : Bool → List Char → List (Char × Role)
  | false, '\\' :: c :: rest => ('\\', .markup) :: (c, .literal) :: scan false rest
  | quoted, '\'' :: rest => ('\'', .markup) :: scan (!quoted) rest
  | quoted, c :: rest => (c, if quoted then .literal else .bare) :: scan quoted rest
  | _, [] => []

/-- The characters that a reader keeps. -/
def kept (marks : List (Char × Role)) : List Char :=
  (marks.filter fun m => m.2 != .markup).map Prod.fst

/-- A text with one level of escaping undone. -/
def undo (cs : List Char) : List Char := kept (scan false cs)

/-- A character that separates. -/
def separates (c : Char) (m : Char × Role) : Bool := m.1 == c && m.2 == .bare

/-- What stands between the bare separators of a text, with one level of escaping undone. -/
def parts (c : Char) (cs : List Char) : List (List Char) :=
  ((scan false cs).splitOnP (separates c)).map kept

/-! ### Roles -/

section Scan
variable {c : Char} {cs rest : List Char}

@[simp] theorem scan_nil (quoted : Bool) : scan quoted [] = [] := by cases quoted <;> rfl

theorem scan_escaped :
    scan false ('\\' :: c :: rest) = ('\\', .markup) :: (c, .literal) :: scan false rest := rfl

/-- A character that is neither a backslash nor a quote stands for itself. -/
theorem scan_bare (hb : c ≠ '\\') (hq : c ≠ '\'') :
    scan false (c :: rest) = (c, .bare) :: scan false rest := by
  rw [scan]
  · rfl
  · exact hq
  · exact fun _ _ _ h => absurd h hb

theorem scan_plain (h : ∀ c ∈ cs, c ≠ '\\' ∧ c ≠ '\'') :
    scan false (cs ++ rest) = cs.map (·, .bare) ++ scan false rest := by
  induction cs with
  | nil => rfl
  | cons c cs ih =>
    obtain ⟨⟨hb, hq⟩, hcs⟩ := List.forall_mem_cons.mp h
    rw [List.cons_append, scan_bare hb hq, ih hcs]
    rfl

/-- Inside quotes all characters are literal, up to the next quote. -/
theorem scan_quoted (h : '\'' ∉ cs) :
    scan true (cs ++ '\'' :: rest) = cs.map (·, .literal) ++ ('\'', .markup) :: scan false rest := by
  induction cs with
  | nil => rfl
  | cons c cs ih =>
    obtain ⟨hc, hcs⟩ := not_or.mp (List.mem_cons.not.mp h)
    rw [List.cons_append, scan, ih hcs]
    · rfl
    · exact Ne.symm hc
    · exact fun _ _ hquoted => nomatch hquoted

/-- Before an escaped text the reader is where it is after it, and none of the special characters is
bare. -/
theorem scan_escape {special : Char → Bool} (hb : special '\\' = true) (hq : special '\'' = true) :
    scan false (escape special cs ++ rest) =
      (cs.flatMap fun c =>
        if special c then [('\\', .markup), (c, .literal)] else [(c, .bare)]) ++ scan false rest := by
  induction cs with
  | nil => rfl
  | cons c cs ih =>
    by_cases hc : special c = true
    · have hescape : escape special (c :: cs) = '\\' :: c :: escape special cs := by
        simp [escape, hc]
      rw [hescape, List.cons_append, List.cons_append, scan_escaped, ih]
      simp [hc]
    · have hescape : escape special (c :: cs) = c :: escape special cs := by
        simp [escape, hc]
      have hplain : c ≠ '\\' ∧ c ≠ '\'' := by
        constructor <;> rintro rfl
        · exact hc hb
        · exact hc hq
      rw [hescape, List.cons_append, scan_bare hplain.1 hplain.2, ih]
      simp [hc]

@[simp] theorem kept_append (a b : List (Char × Role)) : kept (a ++ b) = kept a ++ kept b := by
  simp [kept]

/-- No character is lost. -/
theorem map_fst_scan (quoted : Bool) (cs : List Char) : (scan quoted cs).map Prod.fst = cs := by
  fun_induction scan quoted cs with
  | case1 c rest ih => rw [List.map_cons, List.map_cons, ih]
  | case2 quoted rest ih => rw [List.map_cons, ih]
  | case3 quoted c rest _ _ ih => rw [List.map_cons, ih]
  | case4 => rfl

theorem kept_bare (cs : List Char) : kept (cs.map (·, .bare)) = cs := by
  simp [kept, List.filter_map, Function.comp_def]

theorem kept_literal (cs : List Char) : kept (cs.map (·, .literal)) = cs := by
  simp [kept, List.filter_map, Function.comp_def]

end Scan

/-! ### Words -/

/-- A text after which the reader is where it was before, and in which no separator is bare. -/
structure IsWord (separators : List Char) (cs : List Char) : Prop where
  closed : ∀ rest, scan false (cs ++ rest) = scan false cs ++ scan false rest
  sealed : ∀ c ∈ separators, (c, Role.bare) ∉ scan false cs

namespace IsWord
variable {separators : List Char} {a b cs : List Char}

theorem nil : IsWord separators [] := ⟨fun _ => rfl, fun _ _ => List.not_mem_nil⟩

theorem append (ha : IsWord separators a) (hb : IsWord separators b) :
    IsWord separators (a ++ b) where
  closed := fun rest => by
    rw [List.append_assoc, ha.closed, hb.closed, ha.closed, List.append_assoc]
  sealed := fun c hc h => by
    rw [ha.closed] at h
    exact (List.mem_append.mp h).elim (ha.sealed c hc) (hb.sealed c hc)

/-- Of fewer characters fewer separate. -/
theorem mono (h : IsWord separators cs) {fewer : List Char} (hsub : fewer ⊆ separators) :
    IsWord fewer cs := ⟨h.closed, fun c hc => h.sealed c (hsub hc)⟩

theorem not_separates (h : IsWord separators cs) {c : Char} (hc : c ∈ separators) :
    ∀ m ∈ scan false cs, separates c m = false := by
  rintro ⟨d, role⟩ hm
  by_contra hsep
  obtain ⟨hd, hrole⟩ : d = c ∧ role = .bare := by simpa [separates] using hsep
  subst hd hrole
  exact h.sealed _ hc hm

theorem of_plain (h : ∀ c ∈ cs, c ≠ '\\' ∧ c ≠ '\'' ∧ c ∉ separators) : IsWord separators cs := by
  have hplain : ∀ c ∈ cs, c ≠ '\\' ∧ c ≠ '\'' := fun c hc => ⟨(h c hc).1, (h c hc).2.1⟩
  have hscan : scan false (cs ++ []) = cs.map (·, .bare) ++ scan false [] := scan_plain hplain
  rw [List.append_nil, scan_nil, List.append_nil] at hscan
  refine ⟨fun rest => by rw [scan_plain hplain, hscan], fun c hc hmem => ?_⟩
  rw [hscan] at hmem
  obtain ⟨d, hd, heq⟩ := List.mem_map.mp hmem
  cases heq
  exact (h c hd).2.2 hc

/-- **Escaped text is a word**, whatever it says. -/
theorem of_escape {special : Char → Bool} (hb : special '\\' = true) (hq : special '\'' = true)
    (h : ∀ c ∈ separators, special c = true) (cs : List Char) :
    IsWord separators (escape special cs) := by
  have hscan : scan false (escape special cs ++ []) = _ ++ scan false [] := scan_escape hb hq
  rw [List.append_nil, scan_nil, List.append_nil] at hscan
  refine ⟨fun rest => by rw [scan_escape hb hq, hscan], fun c hc hmem => ?_⟩
  rw [hscan] at hmem
  obtain ⟨d, -, hd⟩ := List.mem_flatMap.mp hmem
  split at hd
  · simp at hd
  · rename_i hnot
    cases List.mem_singleton.mp hd
    exact hnot (h _ hc)

/-- Quoted text is a word, if it has no quote in it. -/
theorem of_quoted (h : '\'' ∉ cs) : IsWord separators ('\'' :: cs ++ ['\'']) := by
  have hscan (rest : List Char) : scan false ('\'' :: cs ++ ['\''] ++ rest) =
      ('\'', .markup) :: (cs.map (·, .literal) ++ ('\'', .markup) :: scan false rest) := by
    rw [List.append_assoc]
    exact congrArg (('\'', Role.markup) :: ·) (scan_quoted h)
  have hself := hscan []
  rw [List.append_nil] at hself
  refine ⟨fun rest => ?_, fun c hc hmem => ?_⟩
  · rw [hscan, hself]
    simp
  · rw [hself] at hmem
    simp at hmem

/-- A word may be followed by a bare character. -/
theorem scan_append_bare (h : IsWord separators a) {c : Char} (hb : c ≠ '\\') (hq : c ≠ '\'')
    (rest : List Char) :
    scan false (a ++ c :: rest) = scan false a ++ (c, .bare) :: scan false rest := by
  rw [h.closed, scan_bare hb hq]

/-- A separator of other words is part of a word. -/
theorem joined {c : Char} (hb : c ≠ '\\') (hq : c ≠ '\'') (hc : c ∉ separators)
    {words : List (List Char)} (h : ∀ w ∈ words, IsWord separators w) :
    IsWord separators ([c].intercalate words) := by
  have hone : IsWord separators [c] := of_plain (by simpa using ⟨hb, hq, hc⟩)
  induction words with
  | nil => exact nil
  | cons w rest ih =>
    obtain ⟨hw, hrest⟩ := List.forall_mem_cons.mp h
    cases rest with
    | nil => simpa using hw
    | cons w' rest =>
      rw [List.intercalate_cons_cons]
      exact (hw.append hone).append (ih hrest)

theorem flatten {words : List (List Char)} (h : ∀ w ∈ words, IsWord separators w) :
    IsWord separators words.flatten := by
  induction words with
  | nil => exact nil
  | cons w rest ih =>
    obtain ⟨hw, hrest⟩ := List.forall_mem_cons.mp h
    exact hw.append (ih hrest)

theorem scan_flatten {words : List (List Char)} (h : ∀ w ∈ words, IsWord separators w) :
    scan false words.flatten = words.flatMap (scan false) := by
  induction words with
  | nil => rfl
  | cons w rest ih =>
    obtain ⟨hw, hrest⟩ := List.forall_mem_cons.mp h
    rw [List.flatten_cons, hw.closed, ih hrest, List.flatMap_cons]

/-! ### Undoing one level -/

theorem undo_append (ha : IsWord separators a) (b : List Char) : undo (a ++ b) = undo a ++ undo b := by
  rw [undo, ha.closed, kept_append]
  rfl

end IsWord

theorem undo_plain {cs : List Char} (h : ∀ c ∈ cs, c ≠ '\\' ∧ c ≠ '\'') : undo cs = cs := by
  have hscan : scan false (cs ++ []) = cs.map (·, .bare) ++ scan false [] := scan_plain h
  rw [List.append_nil, scan_nil, List.append_nil] at hscan
  rw [undo, hscan, kept_bare]

theorem undo_quoted {cs : List Char} (h : '\'' ∉ cs) : undo ('\'' :: cs ++ ['\'']) = cs := by
  have hscan : scan false ('\'' :: cs ++ ['\'']) =
      ('\'', .markup) :: (cs.map (·, .literal) ++ [('\'', .markup)]) :=
    congrArg (('\'', Role.markup) :: ·) (scan_quoted h)
  rw [undo, hscan]
  have hkept := kept_literal cs
  rw [← List.singleton_append, kept_append, kept_append, hkept]
  exact List.append_nil cs

/-- **What was escaped is read as it was.** -/
theorem undo_escape {special : Char → Bool} (hb : special '\\' = true) (hq : special '\'' = true)
    (cs : List Char) : undo (escape special cs) = cs := by
  have hscan : scan false (escape special cs ++ []) = _ ++ scan false [] := scan_escape hb hq
  rw [List.append_nil, scan_nil, List.append_nil] at hscan
  rw [undo, hscan, kept, List.filter_flatMap, List.map_flatMap]
  refine (List.flatMap_congr fun c _ => ?_).trans (List.flatMap_singleton' cs)
  split <;> rfl

/-! ### Joined words -/

section Joined
variable {separators : List Char} {c : Char} {words : List (List Char)}

/-- **Words that are joined are found again.** -/
theorem splitOnP_joined (hc : c ∈ separators) (hb : c ≠ '\\') (hq : c ≠ '\'') (hne : words ≠ [])
    (h : ∀ w ∈ words, IsWord separators w) :
    (scan false ([c].intercalate words)).splitOnP (separates c) = words.map (scan false) := by
  induction words with
  | nil => exact absurd rfl hne
  | cons w rest ih =>
    obtain ⟨hw, hrest⟩ := List.forall_mem_cons.mp h
    cases rest with
    | nil => simpa using List.splitOnP_eq_singleton (hw.not_separates hc)
    | cons w' rest =>
      have hsplit := ih (List.cons_ne_nil _ _) hrest
      rw [List.intercalate_cons_cons, List.append_assoc, List.singleton_append,
        hw.scan_append_bare hb hq, List.splitOnP_append_cons_of_forall_mem (hw.not_separates hc) _
          (by simp [separates]), hsplit]
      rfl

theorem parts_joined (hc : c ∈ separators) (hb : c ≠ '\\') (hq : c ≠ '\'') (hne : words ≠ [])
    (h : ∀ w ∈ words, IsWord separators w) : parts c ([c].intercalate words) = words.map undo := by
  rw [parts, splitOnP_joined hc hb hq hne h, List.map_map]
  rfl

theorem undo_joined (hb : c ≠ '\\') (hq : c ≠ '\'') (h : ∀ w ∈ words, IsWord separators w) :
    undo ([c].intercalate words) = [c].intercalate (words.map undo) := by
  induction words with
  | nil => rfl
  | cons w rest ih =>
    obtain ⟨hw, hrest⟩ := List.forall_mem_cons.mp h
    cases rest with
    | nil => simp
    | cons w' rest =>
      have hone : undo (c :: [c].intercalate (w' :: rest)) =
          c :: undo ([c].intercalate (w' :: rest)) := by
        rw [undo, scan_bare hb hq]
        rfl
      rw [List.intercalate_cons_cons, List.append_assoc, List.singleton_append,
        hw.undo_append, hone, ih hrest]
      simp [List.intercalate_cons_cons]

end Joined
end Montage.Plan
