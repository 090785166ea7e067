import Montage.Timeline.Check

/-! # Checks that stop at the first fault

The checks of a timeline and the passes of the compiler are sequences of steps that either go on
or end with a fault.  This module says when such a sequence goes on to its end: a bind when
both halves do (`bind_eq_ok_iff`), a list when every item does, at its own index
(`checkItems_eq_ok_iff`), and which fault ends it otherwise.  A timeline that passes has clips and
settings that pass (`clips_checked`, `settings_checked`).
-/
namespace Montage

section Except
variable {α β ε ε' : Type}

theorem bind_eq_ok_iff {x : Except ε α} {f : α → Except ε β} {b : β} :
    (x >>= f) = .ok b ↔ ∃ a, x = .ok a ∧ f a = .ok b := by
  cases x with
  | error e => simp [bind, Except.bind]
  | ok a => simp [bind, Except.bind]

theorem bind_eq_error_iff {x : Except ε α} {f : α → Except ε β} {e : ε} :
    (x >>= f) = .error e ↔ x = .error e ∨ ∃ a, x = .ok a ∧ f a = .error e := by
  cases x with
  | error e' => simp [bind, Except.bind]
  | ok a => simp [bind, Except.bind]

/-- A check that says nothing but that it goes on, and what follows it. -/
theorem andThen_eq_ok_iff {x : Except ε Unit} {f : Unit → Except ε β} {b : β} :
    (x >>= f) = .ok b ↔ x = .ok () ∧ f () = .ok b := by
  cases x with
  | error e => simp [bind, Except.bind]
  | ok u => simp [bind, Except.bind]

@[simp] theorem mapError_ok {f : ε → ε'} {a : α} :
    (Except.ok a : Except ε α).mapError f = .ok a := rfl

@[simp] theorem mapError_error {f : ε → ε'} {e : ε} :
    (Except.error e : Except ε α).mapError f = .error (f e) := rfl

theorem mapError_eq_ok_iff {x : Except ε α} {f : ε → ε'} {a : α} :
    x.mapError f = .ok a ↔ x = .ok a := by
  cases x <;> simp

theorem mapError_eq_error_iff {x : Except ε α} {f : ε → ε'} {e : ε'} :
    x.mapError f = .error e ↔ ∃ e₀, x = .error e₀ ∧ f e₀ = e := by
  cases x <;> simp

/-- A check that does not go on ends with a fault. -/
theorem exists_error_of_not_ok {x : Except ε Unit} (h : x ≠ .ok ()) : ∃ e, x = .error e := by
  cases x with
  | error e => exact ⟨e, rfl⟩
  | ok u => exact absurd rfl h

end Except

variable {α ε : Type}

theorem ensure_eq_ok_iff {holds : Bool} {fault : ε} :
    ensure holds fault = .ok () ↔ holds = true := by
  cases holds <;> simp [ensure]

theorem ensure_eq_error_iff {holds : Bool} {fault e : ε} :
    ensure holds fault = .error e ↔ holds = false ∧ fault = e := by
  cases holds <;> simp [ensure]

theorem ifGiven_eq_ok_iff {v : Option α} {check : α → Except ε Unit} :
    ifGiven v check = .ok () ↔ ∀ a, v = some a → check a = .ok () := by
  cases v <;> simp [ifGiven]

theorem ifGiven_eq_error_iff {v : Option α} {check : α → Except ε Unit} {e : ε} :
    ifGiven v check = .error e ↔ ∃ a, v = some a ∧ check a = .error e := by
  cases v <;> simp [ifGiven]

theorem checkItems_cons_eq_ok_iff {check : Nat → α → Except ε Unit} {index : Nat} {a : α}
    {rest : List α} :
    checkItems check index (a :: rest) = .ok () ↔
      check index a = .ok () ∧ checkItems check (index + 1) rest = .ok () := by
  cases h : check index a <;> simp [checkItems, h]

/-- **A list passes if and only if every item passes at its index.** -/
theorem checkItems_eq_ok_iff {check : Nat → α → Except ε Unit} {index : Nat} {l : List α} :
    checkItems check index l = .ok () ↔
      ∀ i a, l[i]? = some a → check (index + i) a = .ok () := by
  -- the rest of a list is checked one index further
  induction l generalizing index with
  | nil => simp [checkItems]
  | cons a rest ih =>
    rw [checkItems_cons_eq_ok_iff, ih]
    constructor
    · rintro ⟨ha, hrest⟩ i b hb
      cases i with
      | zero => cases hb; exact ha
      | succ i =>
        rw [← Nat.add_assoc, Nat.add_right_comm]
        exact hrest i b hb
    · intro h
      refine ⟨h 0 a rfl, fun i b hb => ?_⟩
      rw [Nat.add_right_comm, Nat.add_assoc]
      exact h (i + 1) b hb

/-- The fault of a list is that of its first item that does not pass. -/
theorem checkItems_eq_error {check : Nat → α → Except ε Unit} {index : Nat} {l : List α}
    {e : ε}
    (h : checkItems check index l = .error e) :
    ∃ i a, l[i]? = some a ∧ check (index + i) a = .error e ∧
      ∀ j b, l[j]? = some b → j < i → check (index + j) b = .ok () := by
  induction l generalizing index with
  | nil => cases h
  | cons a rest ih =>
    cases ha : check index a with
    | error f =>
      simp only [checkItems, ha] at h
      exact ⟨0, a, rfl, ha.trans h, fun _ _ _ hj => absurd hj (Nat.not_lt_zero _)⟩
    | ok u =>
      simp only [checkItems, ha] at h
      obtain ⟨i, b, hb, he, hbefore⟩ := ih h
      have hnext (j : Nat) : index + 1 + j = index + (j + 1) := by omega
      refine ⟨i + 1, b, hb, hnext i ▸ he, fun j d hd hj => ?_⟩
      cases j with
      | zero => cases hd; exact ha
      | succ j => exact hnext j ▸ hbefore j d hd (Nat.lt_of_succ_lt_succ hj)

/-- In a timeline that passes, every clip passes on its own. -/
theorem clips_checked {r : Rounding} {t : Timeline} (h : t.check r = .ok ()) :
    ∀ c ∈ t.clips ++ t.soundtrack, c.check r = .ok () := by
  simp only [Timeline.check, andThen_eq_ok_iff, checkItems_eq_ok_iff, mapError_eq_ok_iff,
    checkSoundtrackClip] at h
  obtain ⟨-, hclips, hsoundtrack, -⟩ := h
  refine List.forall_mem_append.mpr ⟨fun c hc => ?_, fun c hc => ?_⟩ <;>
    obtain ⟨i, hi⟩ := List.getElem?_of_mem hc
  · exact hclips i c hi
  · exact (hsoundtrack i c hi).1

theorem settings_checked {r : Rounding} {t : Timeline} (h : t.check r = .ok ()) :
    t.settings.check = .ok () := by
  simp only [Timeline.check, andThen_eq_ok_iff, mapError_eq_ok_iff] at h
  exact h.2.2.2

end Montage
