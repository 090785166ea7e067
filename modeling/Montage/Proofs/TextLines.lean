import Montage.Proofs.StreamReading
import Mathlib.Data.List.DropRight

/-! # Lines of a text

Bytes and texts are cut into lines by different rules.  Bytes are cut at line feeds and nowhere else, and
however they come in pieces the lines are those of the whole stream (`splitFeeds_eq`).  A text is cut
at boundaries of many kinds, and a pair of a carriage return and a line feed is one boundary (`Cut`).  It
can be cut in one way only (`cut_iff`).

Lines of diagnostics are joined by line feeds again.  Such a line may itself be cut further, but it does
not end with a boundary, so what is joined is cut into the lines of its parts (`lines_intercalate`).
-/
namespace Montage.Text

/-! ### Cutting a text -/

/-- A stretch of text in which no line ends. -/
def Unbroken (cs : List Char) : Prop := ∀ c ∈ cs, isBoundary c = false

/-- A text and its lines: each ends at a boundary, but for a last one that is not empty. -/
inductive Cut : List Char → List (List Char) → Prop where
  | nothing : Cut [] []
  | remainder {line : List Char} (unbroken : Unbroken line) (given : line ≠ []) : Cut line [line]
  | boundary {line rest : List Char} {c : Char} {ls : List (List Char)} (unbroken : Unbroken line)
      (ends : isBoundary c = true) (single : ¬ (c = '\r' ∧ rest.head? = some '\n'))
      (more : Cut rest ls) : Cut (line ++ c :: rest) (line :: ls)
  | pair {line rest : List Char} {ls : List (List Char)} (unbroken : Unbroken line)
      (more : Cut rest ls) : Cut (line ++ '\r' :: '\n' :: rest) (line :: ls)

variable {current line rest cs : List Char} {c : Char} {ls ms : List (List Char)}

theorem linesFrom_plain (current rest : List Char) (hc : isBoundary c = false) :
    linesFrom current (c :: rest) = linesFrom (c :: current) rest := by
  rw [linesFrom, if_neg (Bool.eq_false_iff.mp hc)]
  rintro more rfl
  cases hc

theorem linesFrom_boundary (current : List Char) (hc : isBoundary c = true)
    (single : ¬ (c = '\r' ∧ rest.head? = some '\n')) :
    linesFrom current (c :: rest) = current.reverse :: linesFrom [] rest := by
  rw [linesFrom, if_pos hc]
  rintro more hreturn rfl
  exact single ⟨hreturn, rfl⟩

theorem linesFrom_append (unbroken : Unbroken line) (current rest : List Char) :
    linesFrom current (line ++ rest) = linesFrom (line.reverse ++ current) rest := by
  induction line generalizing current with
  | nil => rfl
  | cons c line ih =>
    obtain ⟨hc, hline⟩ := List.forall_mem_cons.mp unbroken
    rw [List.cons_append, linesFrom_plain current _ hc, ih hline, List.reverse_cons,
      List.append_assoc]
    rfl

theorem Cut.linesFrom_eq (h : Cut cs ls) : linesFrom [] cs = ls := by
  induction h with
  | nothing => rfl
  | remainder unbroken given =>
    have hlines := linesFrom_append unbroken [] []
    rw [List.append_nil, List.append_nil] at hlines
    rw [hlines, linesFrom]
    simp [given]
  | boundary unbroken ends single more ih =>
    rw [linesFrom_append unbroken, linesFrom_boundary _ ends single, ih]
    simp
  | pair unbroken more ih =>
    rw [linesFrom_append unbroken, linesFrom, ih]
    simp

/-- Each step of the reader cuts off a line or goes on with the current one. -/
theorem cut_linesFrom (current cs : List Char) (unbroken : Unbroken current.reverse) :
    Cut (current.reverse ++ cs) (linesFrom current cs) := by
  fun_induction linesFrom current cs with
  | case1 current hempty =>
    rw [List.isEmpty_iff.mp hempty]
    exact .nothing
  | case2 current hgiven =>
    rw [List.append_nil]
    exact .remainder unbroken (by simpa using hgiven)
  | case3 current rest ih => exact .pair unbroken (ih (List.forall_mem_nil _))
  | case4 current c rest hsingle hc ih =>
    refine .boundary unbroken hc ?_ (ih (List.forall_mem_nil _))
    rintro ⟨rfl, hfeed⟩
    obtain ⟨more, rfl⟩ := List.head?_eq_some_iff.mp hfeed
    exact hsingle more rfl rfl
  | case5 current c rest hsingle hc ih =>
    rw [List.reverse_cons, List.append_assoc] at ih
    exact ih (List.forall_mem_append.mpr ⟨unbroken, List.forall_mem_singleton.mpr (by simpa using hc)⟩)

/-- **A text can be cut into lines in one way only.** -/
theorem cut_iff : Cut cs ls ↔ linesFrom [] cs = ls := by
  refine ⟨Cut.linesFrom_eq, ?_⟩
  rintro rfl
  exact cut_linesFrom [] cs (List.forall_mem_nil _)

/-! ### Joining lines -/

/-- A text that says something and does not end with a boundary. -/
structure Closed (cs : List Char) : Prop where
  given : cs ≠ []
  last : ∀ c, cs.getLast? = some c → isBoundary c = false

/-- What stands behind a boundary is empty, or does not end with one either. -/
theorem Closed.of_append {before : List Char} (h : Closed (before ++ rest)) (given : rest ≠ []) :
    Closed rest := by
  refine ⟨given, fun c hc => h.last c ?_⟩
  rw [List.getLast?_append_of_ne_nil _ given]
  exact hc

theorem Closed.rest_ne_nil {before : List Char} (h : Closed (before ++ c :: rest))
    (ends : isBoundary c = true) : rest ≠ [] := by
  rintro rfl
  have hlast := h.last c (by simp)
  cases ends.symm.trans hlast

/-- A line feed behind a text ends its last line. -/
theorem Cut.append_feed (h : Cut cs ls) (closed : Closed cs) (more : Cut rest ms) :
    Cut (cs ++ '\n' :: rest) (ls ++ ms) := by
  induction h with
  | nothing => exact absurd rfl closed.given
  | remainder unbroken given => exact .boundary unbroken rfl (by simp) more
  | @boundary line behind c ls unbroken ends single _ ih =>
    have hbehind := closed.rest_ne_nil ends
    rw [List.append_assoc, List.cons_append]
    refine .boundary unbroken ends ?_ (ih ?_)
    · rwa [List.head?_append_of_ne_nil _ hbehind]
    · rw [← List.singleton_append, ← List.append_assoc] at closed
      exact closed.of_append hbehind
  | @pair line behind ls unbroken _ ih =>
    have hbehind : behind ≠ [] := by
      rw [← List.singleton_append, ← List.append_assoc] at closed
      exact closed.rest_ne_nil rfl
    rw [List.append_assoc, List.cons_append, List.cons_append]
    refine .pair unbroken (ih ?_)
    have hsplit : line ++ '\r' :: '\n' :: behind = (line ++ ['\r', '\n']) ++ behind := by simp
    exact (hsplit ▸ closed).of_append hbehind

theorem cut_intercalate {ds : List String} (closed : ∀ d ∈ ds, Closed d.toList) :
    Cut ("\n".intercalate ds).toList (ds.flatMap fun d => linesFrom [] d.toList) := by
  rw [String.toList_intercalate]
  induction ds with
  | nil => exact .nothing
  | cons d more ih =>
    obtain ⟨hd, hmore⟩ := List.forall_mem_cons.mp closed
    have hcut : Cut d.toList (linesFrom [] d.toList) := cut_iff.mpr rfl
    cases more with
    | nil => simpa using hcut
    | cons next more =>
      rw [List.map_cons, List.map_cons, List.intercalate_cons_cons, List.flatMap_cons,
        List.append_assoc]
      exact hcut.append_feed hd (ih hmore)

/-- **Lines that are joined are cut into the lines of the parts.** -/
theorem lines_intercalate {ds : List String} (closed : ∀ d ∈ ds, Closed d.toList) :
    lines ("\n".intercalate ds) = ds.flatMap lines := by
  rw [lines, cut_iff.mp (cut_intercalate closed), List.map_flatMap]
  rfl

/-! ### The last of a list -/

section Last
variable {α : Type} {n : Nat} {xs ys : List α}

/-- The last elements of a list, at most so many. -/
structure LastOf (n : Nat) (xs ys : List α) : Prop where
  suffix : ys <:+ xs
  length : ys.length = min n xs.length

theorem lastOf_iff : LastOf n xs ys ↔ ys = lastN n xs := by
  constructor
  · rintro ⟨⟨before, rfl⟩, hlength⟩
    rw [List.length_append] at hlength
    have hbefore : (before ++ ys).length - n = before.length := by
      rw [List.length_append]
      omega
    rw [lastN, hbefore, List.drop_left]
  · rintro rfl
    refine ⟨List.drop_suffix _ _, ?_⟩
    rw [lastN, List.length_drop]
    omega

end Last

/-! ### Lines of bytes -/

/-- The lines of a stream, with what has been read of the current one. -/
theorem splitFeedsFrom_eq (current bytes : List UInt8) :
    (splitFeedsFrom current bytes).1 ++ [(splitFeedsFrom current bytes).2] =
      (bytes.splitOn 10).modifyHead (current.reverse ++ ·) := by
  induction bytes generalizing current with
  | nil => simp [splitFeedsFrom]
  | cons b rest ih =>
    rw [splitFeedsFrom, List.splitOn_cons_eq_if_modifyHead]
    by_cases hfeed : b = 10
    · have hrest : (splitFeedsFrom [] rest).1 ++ [(splitFeedsFrom [] rest).2] = rest.splitOn 10 :=
        (ih []).trans (congrFun List.modifyHead_id _)
      rw [if_pos hfeed, if_pos (beq_iff_eq.mpr hfeed), List.modifyHead_cons, List.append_nil, ← hrest]
      rfl
    · have hcons : (fun l => (b :: current).reverse ++ l) = (current.reverse ++ ·) ∘ List.cons b := by
        funext l
        simp
      rw [if_neg hfeed, if_neg (by simpa using hfeed), ih, List.modifyHead_modifyHead, hcons]

theorem splitFeeds_eq (bytes : List UInt8) :
    (splitFeeds bytes).1 ++ [(splitFeeds bytes).2] = bytes.splitOn 10 :=
  (splitFeedsFrom_eq [] bytes).trans (congrFun List.modifyHead_id _)

end Montage.Text
