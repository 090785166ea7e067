/-! # The order of texts

Texts stand in the order of their code points: the first character in which two texts
differ decides, and a text comes before every text that it begins (`precedes`).  Equal texts
precede each other.

The order is total (`precedes_total`), transitive (`precedes_trans`) and antisymmetric
(`precedes_antisymm`), so texts sorted by it stand in one order.
-/
namespace Montage.Text

/-- Whether a text may stand before another one. -/
def precedes : List Char → List Char → Bool
  | [], _ => true
  | _ :: _, [] => false
  | a :: as, b :: bs => Nat.blt a.toNat b.toNat || (a == b && precedes as bs)

theorem precedes_refl : ∀ s : List Char, precedes s s = true
  | [] => rfl
  | a :: s => by simp [precedes, precedes_refl s]

/-- Of two texts one may stand before the other. -/
theorem precedes_total : ∀ s t : List Char, (precedes s t || precedes t s) = true
  | [], _ => by simp [precedes]
  | _ :: _, [] => by simp [precedes]
  | a :: s, b :: t => by
    have ih := precedes_total s t
    by_cases h : a = b
    · subst h
      simpa [precedes] using ih
    · have hn : a.toNat ≠ b.toNat := fun he => h (Char.toNat_inj.1 he)
      rcases Nat.lt_or_gt_of_ne hn with hl | hl <;> simp [precedes, hl]

theorem precedes_antisymm : ∀ {s t : List Char},
    precedes s t = true → precedes t s = true → s = t
  | [], [], _, _ => rfl
  | [], _ :: _, _, k => by simp [precedes] at k
  | _ :: _, [], h, _ => by simp [precedes] at h
  | a :: s, b :: t, h, k => by
    simp only [precedes, Bool.or_eq_true, Bool.and_eq_true, beq_iff_eq, Nat.blt_eq] at h k
    rcases h with h | ⟨rfl, h⟩
    · rcases k with k | ⟨rfl, _⟩
      · exact absurd h (Nat.lt_asymm k)
      · exact absurd h (Nat.lt_irrefl _)
    · rcases k with k | ⟨_, k⟩
      · exact absurd k (Nat.lt_irrefl _)
      · rw [precedes_antisymm h k]

theorem precedes_trans : ∀ {s t u : List Char},
    precedes s t = true → precedes t u = true → precedes s u = true
  | [], _, _, _, _ => rfl
  | _ :: _, [], _, h, _ => by simp [precedes] at h
  | _ :: _, _ :: _, [], _, h => by simp [precedes] at h
  | a :: s, b :: t, c :: u, h, k => by
    simp only [precedes, Bool.or_eq_true, Bool.and_eq_true, beq_iff_eq, Nat.blt_eq] at h k ⊢
    rcases h with h | ⟨rfl, h⟩
    · rcases k with k | ⟨rfl, _⟩
      · exact .inl (Nat.lt_trans h k)
      · exact .inl h
    · rcases k with k | ⟨rfl, k⟩
      · exact .inl k
      · exact .inr ⟨rfl, precedes_trans h k⟩

end Montage.Text
